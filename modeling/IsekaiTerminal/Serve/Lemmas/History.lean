import IsekaiTerminal.Serve.Lemmas.Arbiter

/-!
# fencing の履歴の補題

slot の 1 回の遷移で待っている試行、lease、承認待ちがどうなるかを示し、実行の長さに関する帰納法で
履歴の不変条件に広げる。
-/

namespace IsekaiTerminal.Serve

open Protocol Lib

/-! ## 履歴の不変条件 -/

namespace AttachArbiter

/-- slot に入ったことのある lease の行方。いまの lease か、終わりが届いたか、片付けを待たずに空けた slot が
空いたままである。 -/
def LeaseAccounted (es : List AttachEvent) (a : AttachArbiter) : Prop :=
  ∀ id lease, Held es id lease →
    (∃ st, a.stateFor id = some st ∧ st.lease = lease) ∨ Finished es lease ∨
      (a.stateFor id = none ∧ Dropped es id lease)

/-- 中継を始めた lease `leases` は割り当て済みであり、どの slot にあっても `Established` である。 -/
def RelaysEstablished (a : AttachArbiter) (leases : List LeaseId) : Prop :=
  ∀ l ∈ leases, l.raw < a.nextLease ∧
    ∀ id st, a.stateFor id = some st → st.lease = l → ∃ key, st = .established key l

end AttachArbiter

/-! ## slot の 1 回の遷移 -/

namespace SlotStep

variable {id : SessionId} {n n' : Nat} {e : AttachEvent} {st' : Option AttachState}
  {effs : List AttachEffect}

/-- 待っている試行は、結果が届くか、slot に残る。 -/
theorem awaits {st : AttachState} (h : SlotStep id n e (some st) st' n' effs) {key : AttachKey}
    (hw : st.Awaits key) : (∃ eff ∈ effs, eff.Resolves key) ∨ ∃ t, st' = some t ∧ t.Awaits key := by
  cases h with
  | reject | resend => exact Or.inr ⟨_, rfl, hw⟩
  | supersede _ hf =>
      -- `Connecting` の鍵だけが待っており、追い越しはその鍵に `SendReject` を返す。
      cases st with
      | connecting k l => exact Or.inl ⟨_, List.mem_cons_self, hw⟩
      | pendingActivation | established => exact hw.elim
      | closingForSupersede => exact hf.elim
  | replaceNext | connectFailed => exact Or.inl ⟨_, List.mem_cons_self, hw⟩
  | connected => exact Or.inl ⟨_, List.mem_cons_self, hw⟩
  | cancel _ hf hk =>
      cases st with
      | connecting k l => exact Or.inl ⟨_, List.mem_cons_self, hk.symm.trans hw⟩
      | pendingActivation | established => exact hw.elim
      | closingForSupersede => exact hf.elim
  | restart => exact Or.inr ⟨_, rfl, hw⟩
  | activate | expire | finish => exact hw.elim

theorem hello_awaits {st : Option AttachState} {key : AttachKey}
    (h : SlotStep id n (.helloReceived key) st st' n' effs) :
    (∃ eff ∈ effs, eff.Resolves key) ∨ ∃ t, st' = some t ∧ t.Awaits key := by
  cases h with
  | connect | supersede | replaceNext => exact Or.inr ⟨_, rfl, rfl⟩
  | reject => exact Or.inl ⟨_, List.mem_cons_self, rfl⟩
  | resend _ hk hr =>
      rename_i st _
      cases st with
      | connecting | closingForSupersede => exact Or.inr ⟨_, rfl, hk⟩
      | pendingActivation => exact Or.inl ⟨_, List.mem_cons_self, hk⟩
      | established => cases hr

/-- slot の lease は、残るか、終わりが届いたか、片付けを待たずに slot が空いたかのいずれかである。 -/
theorem lease_left {st : AttachState} (h : SlotStep id n e (some st) st' n' effs) :
    (∃ t, st' = some t ∧ t.lease = st.lease) ∨ e.Finishes st.lease ∨ (st' = none ∧ e.Drops st) := by
  cases h with
  | reject | resend => exact Or.inl ⟨_, rfl, rfl⟩
  | supersede | replaceNext | connected | activate => exact Or.inl ⟨_, rfl, rfl⟩
  | connectFailed | restart | finish => exact Or.inr (Or.inl rfl)
  | cancel _ hf hk => exact Or.inr (Or.inr ⟨rfl, Or.inl ⟨_, rfl, hf, hk⟩⟩)
  | expire => exact Or.inr (Or.inr ⟨rfl, Or.inr ⟨_, _, _, _, rfl, rfl⟩⟩)

theorem of_none (h : SlotStep id n e none st' n' effs) :
    ∃ key, e = .helloReceived key ∧ key.sessionId = id := by
  cases h with
  | connect hid => exact ⟨_, rfl, hid⟩

/-- `StartRelay` は、承認待ちの鍵と token を持つ `Activated` だけが出し、slot を `Established` にする。 -/
theorem startRelay_mem {st : Option AttachState} (h : SlotStep id n e st st' n' effs) {lease : LeaseId}
    {target : TargetHandleId} (hm : AttachEffect.startRelay lease target ∈ effs) :
    ∃ key token, e = .activated key token ∧ key.sessionId = id ∧
      st = some (.pendingActivation key lease token target) ∧ st' = some (.established key lease) ∧
      effs = [.startRelay lease target] := by
  cases h with
  | activate hid =>
      obtain ⟨rfl, rfl⟩ := AttachEffect.startRelay.inj (List.mem_singleton.mp hm)
      exact ⟨_, _, rfl, hid, rfl, rfl, rfl⟩
  | resend => rename_i t _ _ _; cases t <;> simp [AttachState.resend] at hm
  | _ => simp at hm

theorem activated {st : Option AttachState} {key : AttachKey} {token : AttachToken}
    (h : SlotStep id n (.activated key token) st st' n' effs) :
    ∃ lease target, st = some (.pendingActivation key lease token target) ∧
      effs = [.startRelay lease target] := by
  cases h with
  | activate => exact ⟨_, _, rfl, rfl⟩

theorem established {key : AttachKey} {lease : LeaseId}
    (h : SlotStep id n e (some (.established key lease)) st' n' effs) :
    st' = some (.established key lease) ∨ e = .relayEnded lease := by
  cases h with
  | reject | resend => exact Or.inl rfl
  | supersede _ hf | cancel _ hf => exact hf.elim
  | finish => exact Or.inr rfl

theorem pendingActivation {st : Option AttachState} {key : AttachKey} {lease : LeaseId}
    {token : AttachToken} {target : TargetHandleId}
    (h : SlotStep id n e st (some (.pendingActivation key lease token target)) n' effs) :
    (e = .targetConnected lease target token ∧ .sendReady key token ∈ effs) ∨
      (st = some (.pendingActivation key lease token target) ∧ AttachArbiter.Retains key lease e) := by
  cases h with
  | connected => exact Or.inl ⟨rfl, List.mem_cons_self⟩
  | reject _ hr =>
      refine Or.inr ⟨rfl, ?_, by simp, by simp⟩
      intro k hk _ hlt
      obtain rfl := AttachEvent.helloReceived.inj hk
      -- より大きい世代は、承認待ちの slot には拒否されない。
      have hne : ¬ (_ : ConnectionGeneration) = key.generation := (UInt64.ne_of_lt hlt).symm
      simp [AttachState.rejection, AttachState.key, UInt64.lt_asymm hlt, hne] at hr
  | resend _ hk =>
      refine Or.inr ⟨rfl, ?_, by simp, by simp⟩
      intro k hk' _ hlt
      obtain rfl := AttachEvent.helloReceived.inj hk'
      obtain rfl : key = _ := hk
      exact UInt64.lt_irrefl _ hlt

end SlotStep

namespace AttachArbiter

/-! ## 待っている試行 -/

theorem hello_waiting {a : AttachArbiter} (h : a.Inv) (key : AttachKey) :
    (∃ eff ∈ (a.apply (.helloReceived key)).2, eff.Resolves key) ∨
      (a.apply (.helloReceived key)).1.Waiting key :=
  (onHelloReceived_stepsAt h key).slot.hello_awaits

theorem Waiting.apply {a : AttachArbiter} (h : a.Inv) {key : AttachKey} (hw : a.Waiting key)
    (e : AttachEvent) :
    (∃ eff ∈ (a.apply e).2, eff.Resolves key) ∨ (a.apply e).1.Waiting key := by
  obtain ⟨st, hst, haw⟩ := hw
  rcases apply_slot h e key.sessionId with hs | ⟨-, hs⟩
  · rw [hst] at hs
    exact hs.awaits haw
  · exact Or.inr ⟨st, hs.trans hst, haw⟩

theorem Waiting.run {a : AttachArbiter} (h : a.Inv) {key : AttachKey} (hw : a.Waiting key)
    (es : List AttachEvent) :
    (∃ eff ∈ Reducer.outputs AttachArbiter.apply a es, eff.Resolves key) ∨
      (Reducer.run AttachArbiter.apply a es).Waiting key := by
  induction es generalizing a with
  | nil => exact Or.inr hw
  | cons e es ih =>
      rcases hw.apply h e with ⟨eff, hm, hr⟩ | hw
      · exact Or.inl ⟨eff, List.mem_append_left _ hm, hr⟩
      rcases ih (h.apply e) hw with ⟨eff, hm, hr⟩ | hw
      · exact Or.inl ⟨eff, List.mem_append_right _ hm, hr⟩
      · exact Or.inr hw

/-! ## slot に入った lease -/

theorem Finished.mono {es : List AttachEvent} {lease : LeaseId} (h : Finished es lease)
    (es' : List AttachEvent) : Finished (es ++ es') lease := by
  obtain ⟨e, he, hf⟩ := h
  exact ⟨e, List.mem_append_left _ he, hf⟩

theorem Dropped.mono {es : List AttachEvent} {id : SessionId} {lease : LeaseId}
    (h : Dropped es id lease) (es' : List AttachEvent) : Dropped (es ++ es') id lease := by
  obtain ⟨pre, e, post, st, rfl, hst, hl, hd⟩ := h
  exact ⟨pre, e, post ++ es', st, by simp, hst, hl, hd⟩

theorem Dropped.held {es : List AttachEvent} {id : SessionId} {lease : LeaseId}
    (h : Dropped es id lease) : Held es id lease := by
  obtain ⟨pre, e, post, st, rfl, hst, hl, -⟩ := h
  exact ⟨pre, e :: post, st, rfl, hst, hl⟩

/-- 1 つのイベントの後に入ったことのある lease は、前に入ったことのある lease か、いまの lease である。 -/
theorem Held.concat {es : List AttachEvent} {e : AttachEvent} {id : SessionId} {lease : LeaseId}
    (h : Held (es ++ [e]) id lease) :
    Held es id lease ∨ ∃ st, (after (es ++ [e])).stateFor id = some st ∧ st.lease = lease := by
  obtain ⟨pre, post, st, heq, hst, hl⟩ := h
  rcases List.eq_nil_or_concat' post with rfl | ⟨post, e', rfl⟩
  · rw [List.append_nil] at heq
    exact Or.inr ⟨st, heq ▸ hst, hl⟩
  · rw [← List.append_assoc] at heq
    obtain ⟨rfl, -⟩ := List.append_inj' heq rfl
    exact Or.inl ⟨pre, post, st, rfl, hst, hl⟩

theorem VacancySettled.of_append {es es' : List AttachEvent} (h : VacancySettled (es ++ es')) :
    VacancySettled es := by
  rintro pre key post rfl hv lease hd
  exact h pre key (post ++ es') (by simp) hv lease hd

theorem LeaseAccounted.concat {es : List AttachEvent} {e : AttachEvent}
    (hv : VacancySettled (es ++ [e])) (h : LeaseAccounted es (after es)) :
    LeaseAccounted (es ++ [e]) ((after es).apply e).1 := by
  intro id lease hheld
  rcases hheld.concat with hheld | hcur
  swap
  · rw [after_concat] at hcur
    exact Or.inl hcur
  rcases h id lease hheld with ⟨st, hst, rfl⟩ | hf | ⟨hnone, hd⟩
  · -- いまの lease が slot を離れるなら、終わりが届いたか、片付けを待たずに slot が空いた。
    rcases apply_slot (Inv.after es) e id with hs | ⟨-, hs⟩
    · rw [hst] at hs
      rcases hs.lease_left with ⟨t, ht, hl⟩ | hfin | ⟨hnone, hdrop⟩
      · exact Or.inl ⟨t, ht, hl⟩
      · exact Or.inr (Or.inl ⟨e, by simp, hfin⟩)
      · exact Or.inr (Or.inr ⟨hnone, es, e, [], st, rfl, hst, rfl, hdrop⟩)
    · exact Or.inl ⟨st, hs.trans hst, rfl⟩
  · exact Or.inr (Or.inl (hf.mono _))
  · rcases apply_slot (Inv.after es) e id with hs | ⟨-, hs⟩
    · rw [hnone] at hs
      obtain ⟨key, rfl, rfl⟩ := hs.of_none
      exact Or.inr (Or.inl ((hv es key [] rfl hnone lease hd).mono _))
    · exact Or.inr (Or.inr ⟨hs.trans hnone, hd.mono _⟩)

theorem LeaseAccounted.after {es : List AttachEvent} (hv : VacancySettled es) :
    LeaseAccounted es (after es) := by
  refine Reducer.run_history (J := fun es a => VacancySettled es → LeaseAccounted es a) ?_ ?_ es hv
  · rintro - id lease ⟨pre, post, st, heq, hst, -⟩
    obtain ⟨rfl, rfl⟩ := List.append_eq_nil_iff.mp heq.symm
    simp at hst
  · intro es e ih hv
    exact LeaseAccounted.concat hv (ih hv.of_append)

/-! ## 承認待ちの由来 -/

/-- slot の承認待ちは、その鍵と token の `SendReady` を出した `TargetConnected` に由来する。 -/
theorem authorized_of_pendingActivation (es : List AttachEvent) {id : SessionId} {key : AttachKey}
    {lease : LeaseId} {token : AttachToken} {target : TargetHandleId}
    (h : (after es).stateFor id = some (.pendingActivation key lease token target)) :
    Authorized es key lease token target := by
  refine Reducer.run_history (J := fun es (a : AttachArbiter) =>
    a.stateFor id = some (.pendingActivation key lease token target) → Authorized es key lease token target)
    (by simp) ?_ es h
  intro es e ih h
  have hkey : key.sessionId = id := ((Inv.after es).apply e).keyed _ _ h
  have hextend (hst : (after es).stateFor id = some (.pendingActivation key lease token target))
      (hr : Retains key lease e) : Authorized (es ++ [e]) key lease token target := by
    obtain ⟨pre, mid, heq, hsend, hmid⟩ := ih hst
    refine ⟨pre, mid ++ [e], by simp [heq], hsend, ?_⟩
    intro e' he'
    rcases List.mem_append.mp he' with he' | he'
    · exact hmid e' he'
    · rw [List.mem_singleton.mp he']; exact hr
  rcases apply_slot (Inv.after es) e id with hs | ⟨hc, hs⟩
  · rw [h] at hs
    rcases hs.pendingActivation with ⟨rfl, hsend⟩ | ⟨hst, hr⟩
    · exact ⟨es, [], rfl, hsend, by simp⟩
    · exact hextend hst hr
  · -- 関わらないイベントは、この承認待ちを終わらせるイベントではない。
    have hst := hs.symm.trans h
    rw [hst] at hc
    refine hextend hst ⟨?_, ?_, ?_⟩
    · rintro k rfl hk -
      exact hc (hk.trans hkey)
    · rintro rfl
      exact hc ⟨_, rfl, trivial, rfl⟩
    · rintro rfl
      exact hc ⟨_, _, _, rfl⟩

/-! ## 中継を始めた lease -/

theorem startRelay_apply {a : AttachArbiter} (h : a.Inv) {e : AttachEvent} {lease : LeaseId}
    {target : TargetHandleId} (hm : .startRelay lease target ∈ (a.apply e).2) :
    ∃ key token, e = .activated key token ∧
      a.stateFor key.sessionId = some (.pendingActivation key lease token target) ∧
      (a.apply e).1.stateFor key.sessionId = some (.established key lease) ∧
      (a.apply e).2 = [.startRelay lease target] := by
  cases apply_decomposes h e with
  | ignored _ hr => simp [hr] at hm
  | acts id hs =>
      obtain ⟨key, token, he, rfl, hst, hst', heffs⟩ := hs.slot.startRelay_mem hm
      exact ⟨key, token, he, hst, hst', heffs⟩

theorem established_run {a : AttachArbiter} (h : a.Inv) {id : SessionId} {key : AttachKey}
    {lease : LeaseId} (hst : a.stateFor id = some (.established key lease)) {es : List AttachEvent}
    (hes : .relayEnded lease ∉ es) :
    (Reducer.run AttachArbiter.apply a es).stateFor id = some (.established key lease) := by
  refine (Reducer.run_invariant_of (I := fun a : AttachArbiter => a.Inv ∧ a.stateFor id = some (.established key lease))
    (P := fun e => e ≠ AttachEvent.relayEnded lease) ?_ ⟨h, hst⟩ ?_).2
  · rintro a e he ⟨h, hst⟩
    refine ⟨h.apply e, ?_⟩
    rcases apply_slot h e id with hs | ⟨-, hs⟩
    · rw [hst] at hs
      exact hs.established.resolve_right he
    · exact hs.trans hst
  · rintro e he rfl
    exact hes he

theorem RelaysEstablished.apply {a : AttachArbiter} (h : a.Inv) {leases : List LeaseId}
    (hr : a.RelaysEstablished leases) (e : AttachEvent) :
    (a.apply e).1.RelaysEstablished leases := by
  intro l hl
  obtain ⟨hlt, hslot⟩ := hr l hl
  refine ⟨lt_of_lt_of_le hlt (nextLease_le_apply h e), ?_⟩
  intro id st' hst' hl'
  rcases apply_slot h e id with hs | ⟨-, hs⟩
  · rcases hs.lease_of_next hst' with ⟨t, ht, heq⟩ | ⟨heq, -⟩
    · obtain ⟨key, rfl⟩ := hslot id t ht (heq.symm.trans hl')
      rw [ht] at hs
      rcases hs.established with he | rfl
      · exact ⟨key, Option.some.inj (hst'.symm.trans he)⟩
      · rw [hst'] at hs
        cases hs
    · -- 新しく割り当てた番号は、割り当て済みの lease と異なる。
      rw [← hl', heq] at hlt
      exact absurd hlt (lt_irrefl _)
  · exact hslot id st' (hs.symm.trans hst') hl'

theorem RelaysEstablished.cons {a : AttachArbiter} (h : a.Inv) {leases : List LeaseId}
    (hr : a.RelaysEstablished leases) {id : SessionId} {key : AttachKey} {lease : LeaseId}
    (hst : a.stateFor id = some (.established key lease)) :
    a.RelaysEstablished (leases ++ [lease]) := by
  intro l hl
  rcases List.mem_append.mp hl with hl | hl
  · exact hr l hl
  obtain rfl := List.mem_singleton.mp hl
  refine ⟨h.fresh id _ hst, ?_⟩
  intro id' st' hst' hl'
  obtain rfl := h.unique id' id st' _ hst' hst hl'
  exact ⟨key, Option.some.inj (hst'.symm.trans hst)⟩

theorem relayLeases_nodup (es : List AttachEvent) :
    ((Reducer.outputs AttachArbiter.apply .new es).filterMap AttachEffect.relayLease).Nodup ∧
      (after es).RelaysEstablished
        ((Reducer.outputs AttachArbiter.apply .new es).filterMap AttachEffect.relayLease) := by
  refine Reducer.run_history (J := fun es (a : AttachArbiter) =>
    ((Reducer.outputs AttachArbiter.apply .new es).filterMap AttachEffect.relayLease).Nodup ∧
      a.RelaysEstablished
        ((Reducer.outputs AttachArbiter.apply .new es).filterMap AttachEffect.relayLease))
    ⟨List.nodup_nil, by simp [RelaysEstablished]⟩ ?_ es
  rintro es e ⟨hnodup, hrel⟩
  rw [Reducer.outputs_concat, List.filterMap_append]
  by_cases hm : ∃ lease target, .startRelay lease target ∈ ((after es).apply e).2
  · obtain ⟨lease, target, hm⟩ := hm
    obtain ⟨key, token, rfl, hst, hst', heffs⟩ := startRelay_apply (Inv.after es) hm
    rw [heffs, List.filterMap_cons_some (by rfl), List.filterMap_nil]
    -- 承認待ちの lease は、まだ中継を始めていない。
    have hfresh : lease ∉ (Reducer.outputs AttachArbiter.apply .new es).filterMap
        AttachEffect.relayLease := by
      intro hmem
      obtain ⟨key', hk⟩ := (hrel lease hmem).2 _ _ hst rfl
      cases hk
    refine ⟨?_, (hrel.apply (Inv.after es) _).cons ((Inv.after es).apply _) hst'⟩
    exact List.nodup_append'.mpr ⟨hnodup, List.nodup_singleton _, by simpa using hfresh⟩
  · have hnil : ((after es).apply e).2.filterMap AttachEffect.relayLease = [] := by
      rw [List.filterMap_eq_nil_iff]
      intro eff heff
      cases eff with
      | startRelay lease target => exact absurd ⟨lease, target, heff⟩ hm
      | _ => rfl
    rw [hnil, List.append_nil]
    exact ⟨hnodup, hrel.apply (Inv.after es) e⟩

end AttachArbiter

end IsekaiTerminal.Serve
