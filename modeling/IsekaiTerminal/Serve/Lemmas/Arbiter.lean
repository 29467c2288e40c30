import IsekaiTerminal.Lib.Transition
import IsekaiTerminal.Lib.Table
import IsekaiTerminal.Serve.Slot

/-!
# `AttachArbiter` の不変条件と、slot の遷移への分解

`apply` は高々 1 つの slot を、関係 `SlotStep` に沿って変える。この事実から、
lease の一意性と新しさ（`AttachArbiter.Inv`）がどの実行でも保たれることを導く。
-/

namespace IsekaiTerminal.Serve

open Protocol Lib

namespace AttachArbiter

/-! ## 表の更新と検索 -/

@[simp] theorem stateFor_new (id : SessionId) : new.stateFor id = none :=
  Std.ExtTreeMap.getElem?_empty

@[simp] theorem stateFor_insertSlot (a : AttachArbiter) (id id' : SessionId) (st : AttachState) :
    (a.insertSlot id st).stateFor id' = if id' = id then some st else a.stateFor id' :=
  getElem?_insert_eq a.sessions id' id st

@[simp] theorem stateFor_removeSlot (a : AttachArbiter) (id id' : SessionId) :
    (a.removeSlot id).stateFor id' = if id' = id then none else a.stateFor id' :=
  getElem?_erase_eq a.sessions id' id

@[simp] theorem nextLease_insertSlot (a : AttachArbiter) (id : SessionId) (st : AttachState) :
    (a.insertSlot id st).nextLease = a.nextLease := rfl

@[simp] theorem nextLease_removeSlot (a : AttachArbiter) (id : SessionId) :
    (a.removeSlot id).nextLease = a.nextLease := rfl

@[simp] theorem stateFor_mintLease (a : AttachArbiter) (id : SessionId) :
    a.mintLease.2.stateFor id = a.stateFor id := rfl

@[simp] theorem nextLease_mintLease (a : AttachArbiter) : a.mintLease.2.nextLease = a.nextLease + 1 := rfl

@[simp] theorem mintLease_fst (a : AttachArbiter) : a.mintLease.1 = ⟨a.nextLease⟩ := rfl

theorem hasSession_iff (a : AttachArbiter) (id : SessionId) :
    a.hasSession id = true ↔ ∃ st, a.stateFor id = some st := by
  rw [hasSession, Std.ExtTreeMap.contains_eq_isSome_getElem?, Option.isSome_iff_exists, stateFor]

theorem mem_toList_iff (a : AttachArbiter) (id : SessionId) (st : AttachState) :
    (id, st) ∈ a.sessions.toList ↔ a.stateFor id = some st :=
  Std.ExtTreeMap.mem_toList_iff_getElem?_eq_some

/-! ## 不変条件 -/

/-- lease は番号の割り当てより小さく、2 つの session に現れず、slot の試行は自分の session のものである。 -/
structure Inv (a : AttachArbiter) : Prop where
  fresh : ∀ id st, a.stateFor id = some st → st.lease.raw < a.nextLease
  unique : ∀ id id' st st', a.stateFor id = some st → a.stateFor id' = some st' →
    st.lease = st'.lease → id = id'
  keyed : ∀ id st, a.stateFor id = some st → st.key.sessionId = id

theorem Inv.new : new.Inv where
  fresh := by simp
  unique := by simp
  keyed := by simp

theorem sessionForLease_eq_none {a : AttachArbiter} {lease : LeaseId} :
    a.sessionForLease lease = none ↔ ∀ id st, a.stateFor id = some st → st.lease ≠ lease := by
  simp only [sessionForLease, List.findSome?_eq_none_iff, Prod.forall, mem_toList_iff]
  constructor
  · intro h id st hst heq
    simpa [heq] using h id st hst
  · intro h id st hst
    simp [h id st hst]

theorem sessionForLease_eq_some {a : AttachArbiter} (h : a.Inv) {lease : LeaseId} {id : SessionId} :
    a.sessionForLease lease = some id ↔ ∃ st, a.stateFor id = some st ∧ st.lease = lease := by
  constructor
  · intro hs
    obtain ⟨⟨id', st⟩, hmem, heq⟩ := List.exists_of_findSome?_eq_some hs
    rw [mem_toList_iff] at hmem
    by_cases hl : st.lease = lease
    · simp only [hl, ↓reduceIte, Option.some.injEq] at heq
      subst heq
      exact ⟨st, hmem, hl⟩
    · simp [hl] at heq
  · rintro ⟨st, hst, hl⟩
    cases hs : a.sessionForLease lease with
    | none => exact absurd hl (sessionForLease_eq_none.mp hs id st hst)
    | some id' =>
        obtain ⟨⟨id'', st'⟩, hmem, heq⟩ := List.exists_of_findSome?_eq_some hs
        rw [mem_toList_iff] at hmem
        by_cases hl' : st'.lease = lease
        · simp only [hl', ↓reduceIte, Option.some.injEq] at heq
          subst heq
          rw [h.unique id id'' st st' hst hmem (hl.trans hl'.symm)]
        · simp [hl'] at heq

/-! ## `apply` の分解 -/

theorem Inv.concerns_unique {a : AttachArbiter} (h : a.Inv) {e : AttachEvent} {id id' : SessionId}
    (hc : e.Concerns id (a.stateFor id)) (hc' : e.Concerns id' (a.stateFor id')) : id = id' := by
  -- lease を運ぶイベントは lease の一意性から、鍵を運ぶイベントは鍵の session から決まる。
  have hlease : ∀ l, e.lease? = some l → id = id' := by
    intro l he
    obtain ⟨t, ht, hl⟩ := hc.lease he
    obtain ⟨t', ht', hl'⟩ := hc'.lease he
    exact h.unique id id' t t' ht ht' (hl.trans hl'.symm)
  have hkey : ∀ key, e = .helloReceived key ∨ (∃ token, e = .activated key token) ∨
      e = .cancelReceived key → id = id' := by
    intro key he
    exact (hc.session (h.keyed id) he).symm.trans (hc'.session (h.keyed id') he)
  cases e with
  | helloReceived key => exact hkey key (Or.inl rfl)
  | activated key token => exact hkey key (Or.inr (Or.inl ⟨_, rfl⟩))
  | cancelReceived key => exact hkey key (Or.inr (Or.inr rfl))
  | targetConnected l | targetConnectFailed l | leaseStopped l | pendingExpired l | relayEnded l =>
      exact hlease l rfl

/-- `apply` の結果 `r` は、session `id` の slot だけを `SlotStep` に沿って変えたものである。 -/
structure StepsAt (a : AttachArbiter) (e : AttachEvent) (r : AttachArbiter × List AttachEffect)
    (id : SessionId) : Prop where
  slot : SlotStep id a.nextLease e (a.stateFor id) (r.1.stateFor id) r.1.nextLease r.2
  frame : ∀ id', id' ≠ id → r.1.stateFor id' = a.stateFor id'

/-- `apply` の結果 `r` は、1 つの slot の遷移であるか、どの slot にも関わらず何も変えない。 -/
inductive Decomposes (a : AttachArbiter) (e : AttachEvent) (r : AttachArbiter × List AttachEffect) : Prop
  | acts (id : SessionId) (h : StepsAt a e r id)
  | ignored (h : ∀ id, ¬ e.Concerns id (a.stateFor id)) (hr : r = (a, []))

/-- slot を `st'` に置き換える結果は、その置き換えが `SlotStep` であれば分解できる。 -/
theorem StepsAt.inserted {a : AttachArbiter} {e : AttachEvent} {id : SessionId} {st' : AttachState}
    {effs : List AttachEffect}
    (h : SlotStep id a.nextLease e (a.stateFor id) (some st') a.nextLease effs) :
    StepsAt a e (a.insertSlot id st', effs) id := by
  refine ⟨by simpa using h, ?_⟩
  intro id' hne
  simp [hne]

theorem StepsAt.removed {a : AttachArbiter} {e : AttachEvent} {id : SessionId}
    {effs : List AttachEffect}
    (h : SlotStep id a.nextLease e (a.stateFor id) none a.nextLease effs) :
    StepsAt a e (a.removeSlot id, effs) id := by
  refine ⟨by simpa using h, ?_⟩
  intro id' hne
  simp [hne]

theorem StepsAt.unchanged {a : AttachArbiter} {e : AttachEvent} {id : SessionId} {effs : List AttachEffect}
    (h : SlotStep id a.nextLease e (a.stateFor id) (a.stateFor id) a.nextLease effs) :
    StepsAt a e (a, effs) id :=
  ⟨h, fun _ _ => rfl⟩

theorem StepsAt.minted {a : AttachArbiter} {e : AttachEvent} {id : SessionId} {key : AttachKey}
    (h : SlotStep id a.nextLease e (a.stateFor id) (some (.connecting key ⟨a.nextLease⟩))
      (a.nextLease + 1) [.connectTarget ⟨a.nextLease⟩]) :
    StepsAt a e (a.mintLease.2.insertSlot id (.connecting key a.mintLease.1),
      [.connectTarget a.mintLease.1]) id := by
  refine ⟨by simpa using h, ?_⟩
  intro id' hne
  simp [hne]

/-! ### 要求のイベント -/

/-- 接続中と承認待ちは、世代の大小と試行の一致だけで判定する。 -/
theorem decideAgainstInFlight_stepsAt {a : AttachArbiter} (h : a.Inv) {key : AttachKey} {st : AttachState}
    (hst : a.stateFor key.sessionId = some st) (hf : st.InFlight) {token : Option AttachToken}
    (ht : st.resend = (token.map fun t => AttachEffect.sendReady st.key t).toList) :
    StepsAt a (.helloReceived key) (a.decideAgainstInFlight key st.key st.lease token) key.sessionId := by
  have hrej : st.rejection key =
      if key.generation < st.key.generation then some (.staleGeneration st.key.generation)
      else if key.generation = st.key.generation ∧ key.attemptId ≠ st.key.attemptId then
        some .alreadyAttached
      else none := by
    cases st <;> first | rfl | exact hf.elim
  unfold decideAgainstInFlight
  by_cases hlt : key.generation < st.key.generation
  · rw [if_pos hlt]
    refine .unchanged ?_
    rw [hst]
    exact .reject rfl (by rw [hrej, if_pos hlt])
  rw [if_neg hlt]
  by_cases heq : key.generation = st.key.generation
  · rw [if_pos heq]
    by_cases hatt : key.attemptId = st.key.attemptId
    · -- 同じ世代の同じ試行なので、session も含めて鍵全体が一致する。
      have hkey : st.key = key := by
        have hsid := h.keyed _ _ hst
        cases key; cases hk : st.key; simp_all
      have hstep : SlotStep key.sessionId a.nextLease (.helloReceived key) (a.stateFor key.sessionId)
          (a.stateFor key.sessionId) a.nextLease st.resend := by
        rw [hst]
        exact .resend rfl hkey (by rw [hrej, if_neg hlt, if_neg (by simp [hatt])])
      rw [if_pos hatt]
      cases token with
      | none => exact .unchanged (by simpa [ht] using hstep)
      | some t => exact .unchanged (by simpa [ht, hkey] using hstep)
    · rw [if_neg hatt]
      refine .unchanged ?_
      rw [hst]
      exact .reject rfl (by rw [hrej, if_neg hlt, if_pos ⟨heq, hatt⟩])
  · rw [if_neg heq]
    refine .inserted ?_
    rw [hst]
    exact .supersede rfl hf (UInt64.lt_of_le_of_ne (UInt64.not_lt.mp hlt) (Ne.symm heq))

theorem onHelloReceived_stepsAt {a : AttachArbiter} (h : a.Inv) (key : AttachKey) :
    StepsAt a (.helloReceived key) (a.onHelloReceived key) key.sessionId := by
  unfold onHelloReceived
  cases hst : a.stateFor key.sessionId with
  | none => exact .minted (by rw [hst]; exact .connect rfl)
  | some st =>
      cases st with
      | connecting cur lease => exact decideAgainstInFlight_stepsAt h hst trivial rfl
      | pendingActivation cur lease token target => exact decideAgainstInFlight_stepsAt h hst trivial rfl
      | established cur lease => exact .unchanged (by rw [hst]; exact .reject rfl rfl)
      | closingForSupersede old next =>
          have hsid : next.sessionId = key.sessionId := h.keyed _ _ hst
          simp only
          by_cases hk : key = next
          · rw [if_pos hk]
            subst hk
            exact .unchanged (by rw [hst]; exact .resend rfl rfl (by simp [AttachState.rejection, AttachState.key]))
          rw [if_neg hk]
          by_cases hgt : next.generation < key.generation
          · rw [if_pos hgt]
            exact .inserted (by rw [hst]; exact .replaceNext rfl hgt)
          rw [if_neg hgt]
          by_cases hlt : key.generation < next.generation
          · rw [if_pos hlt]
            refine .unchanged ?_
            rw [hst]
            exact .reject rfl (by simp [AttachState.rejection, AttachState.key, hlt])
          · rw [if_neg hlt]
            -- 世代が等しく鍵が異なるので、試行が異なる。
            have heq : key.generation = next.generation :=
              UInt64.le_antisymm (UInt64.not_lt.mp hgt) (UInt64.not_lt.mp hlt)
            have hatt : key.attemptId ≠ next.attemptId := by
              intro hatt
              apply hk
              cases key; cases next; simp_all
            refine .unchanged ?_
            rw [hst]
            exact .reject rfl (by simp [AttachState.rejection, AttachState.key, heq, hatt])

theorem Inv.not_concerns_of_key {a : AttachArbiter} (h : a.Inv) {e : AttachEvent} {key : AttachKey}
    (he : (∃ token, e = .activated key token) ∨ e = .cancelReceived key)
    (hn : ¬ e.Concerns key.sessionId (a.stateFor key.sessionId)) (id : SessionId) :
    ¬ e.Concerns id (a.stateFor id) := by
  intro hc
  obtain rfl := hc.session (h.keyed id) (Or.inr he)
  exact hn hc

theorem onActivated_decomposes {a : AttachArbiter} (h : a.Inv) (key : AttachKey) (token : AttachToken) :
    Decomposes a (.activated key token) (a.onActivated key token) := by
  have hign (hn : ¬ (AttachEvent.activated key token).Concerns key.sessionId (a.stateFor key.sessionId)) :
      Decomposes a (.activated key token) (a, []) :=
    .ignored (h.not_concerns_of_key (Or.inl ⟨_, rfl⟩) hn) rfl
  unfold onActivated
  cases hst : a.stateFor key.sessionId with
  | none => exact hign (by simp [hst, AttachEvent.Concerns])
  | some st =>
      cases st with
      | pendingActivation cur lease curToken target =>
          simp only
          by_cases hk : cur ≠ key ∨ curToken.ctEq token = false
          · rw [if_pos hk]
            refine hign ?_
            rintro ⟨l, t, heq⟩
            obtain ⟨rfl, rfl, rfl, rfl⟩ := by simpa [hst] using heq
            simp [AttachToken.ctEq_iff.mpr rfl] at hk
          · rw [if_neg hk]
            simp only [not_or, not_not, Bool.not_eq_false, AttachToken.ctEq_iff] at hk
            obtain ⟨rfl, rfl⟩ := hk
            exact .acts _ (.inserted (by rw [hst]; exact .activate rfl))
      | connecting | established | closingForSupersede => exact hign (by simp [hst, AttachEvent.Concerns])

theorem onCancelReceived_decomposes {a : AttachArbiter} (h : a.Inv) (key : AttachKey) :
    Decomposes a (.cancelReceived key) (a.onCancelReceived key) := by
  have hign (hn : ¬ (AttachEvent.cancelReceived key).Concerns key.sessionId (a.stateFor key.sessionId)) :
      Decomposes a (.cancelReceived key) (a, []) :=
    .ignored (h.not_concerns_of_key (Or.inr rfl) hn) rfl
  unfold onCancelReceived
  cases hst : a.stateFor key.sessionId with
  | none => exact hign (by simp [hst, AttachEvent.Concerns])
  | some st =>
      cases st with
      | connecting cur lease =>
          simp only
          by_cases hk : cur = key
          · rw [if_pos hk]
            exact .acts _ (.removed (by rw [hst]; exact .cancel rfl trivial hk))
          · rw [if_neg hk]
            exact hign (by simp [hst, AttachEvent.Concerns, AttachState.key, hk])
      | pendingActivation cur lease curToken target =>
          simp only
          by_cases hk : cur = key
          · rw [if_pos hk]
            exact .acts _ (.removed (by rw [hst]; exact .cancel rfl trivial hk))
          · rw [if_neg hk]
            exact hign (by simp [hst, AttachEvent.Concerns, AttachState.key, hk])
      | established | closingForSupersede =>
          exact hign (by simp [hst, AttachEvent.Concerns, AttachState.InFlight])

/-! ### lease を運ぶイベント -/

/-- lease を保持する slot が無いか、ただ 1 つあり、その slot に関わらないイベントはどの slot にも関わらない。 -/
theorem sessionForLease_cases {a : AttachArbiter} (h : a.Inv) {e : AttachEvent} {lease : LeaseId}
    (he : e.lease? = some lease) :
    (a.sessionForLease lease = none ∧ ∀ id, ¬ e.Concerns id (a.stateFor id)) ∨
      ∃ id st, a.sessionForLease lease = some id ∧ a.stateFor id = some st ∧ st.lease = lease ∧
        (¬ e.Concerns id (some st) → ∀ id', ¬ e.Concerns id' (a.stateFor id')) := by
  cases hs : a.sessionForLease lease with
  | none =>
      refine Or.inl ⟨rfl, ?_⟩
      intro id hc
      obtain ⟨t, ht, hl⟩ := hc.lease he
      exact sessionForLease_eq_none.mp hs id t ht hl
  | some id =>
      obtain ⟨st, hst, hl⟩ := (sessionForLease_eq_some h).mp hs
      refine Or.inr ⟨id, st, rfl, hst, hl, ?_⟩
      intro hn id' hc
      obtain ⟨t, ht, hl'⟩ := hc.lease he
      obtain rfl := h.unique id' id t st ht hst (hl'.trans hl.symm)
      exact hn (hst ▸ hc)

theorem onTargetConnected_decomposes {a : AttachArbiter} (h : a.Inv) (lease : LeaseId)
    (target : TargetHandleId) (token : AttachToken) :
    Decomposes a (.targetConnected lease target token) (a.onTargetConnected lease target token) := by
  rcases sessionForLease_cases h (e := .targetConnected lease target token) rfl with
    ⟨hs, hn⟩ | ⟨id, st, hs, hst, hl, hn⟩ <;> simp only [onTargetConnected, hs]
  · exact .ignored hn rfl
  cases st with
  | connecting key l =>
      obtain rfl : l = lease := hl
      simp only [hst]
      exact .acts id (.inserted (by rw [hst]; exact .connected))
  | pendingActivation | established | closingForSupersede =>
      simp only [hst]
      exact .ignored (hn (by simp [AttachEvent.Concerns])) rfl

theorem onTargetConnectFailed_decomposes {a : AttachArbiter} (h : a.Inv) (lease : LeaseId) :
    Decomposes a (.targetConnectFailed lease) (a.onTargetConnectFailed lease) := by
  rcases sessionForLease_cases h (e := .targetConnectFailed lease) rfl with
    ⟨hs, hn⟩ | ⟨id, st, hs, hst, hl, hn⟩ <;> simp only [onTargetConnectFailed, hs]
  · exact .ignored hn rfl
  cases st with
  | connecting key l =>
      obtain rfl : l = lease := hl
      simp only [hst]
      exact .acts id (.removed (by rw [hst]; exact .connectFailed))
  | pendingActivation | established | closingForSupersede =>
      simp only [hst]
      exact .ignored (hn (by simp [AttachEvent.Concerns])) rfl

theorem onLeaseStopped_decomposes {a : AttachArbiter} (h : a.Inv) (lease : LeaseId) :
    Decomposes a (.leaseStopped lease) (a.onLeaseStopped lease) := by
  rcases sessionForLease_cases h (e := .leaseStopped lease) rfl with
    ⟨hs, hn⟩ | ⟨id, st, hs, hst, hl, hn⟩ <;> simp only [onLeaseStopped, hs]
  · exact .ignored hn rfl
  cases st with
  | closingForSupersede l next =>
      obtain rfl : l = lease := hl
      simp only [hst]
      exact .acts id (.minted (by rw [hst]; exact .restart))
  | connecting | pendingActivation | established =>
      simp only [hst]
      exact .ignored (hn (by simp [AttachEvent.Concerns])) rfl

theorem onPendingExpired_decomposes {a : AttachArbiter} (h : a.Inv) (lease : LeaseId) :
    Decomposes a (.pendingExpired lease) (a.onPendingExpired lease) := by
  rcases sessionForLease_cases h (e := .pendingExpired lease) rfl with
    ⟨hs, hn⟩ | ⟨id, st, hs, hst, hl, hn⟩ <;> simp only [onPendingExpired, hs]
  · exact .ignored hn rfl
  cases st with
  | pendingActivation key l token target =>
      obtain rfl : l = lease := hl
      simp only [hst]
      exact .acts id (.removed (by rw [hst]; exact .expire))
  | connecting | established | closingForSupersede =>
      simp only [hst]
      exact .ignored (hn (by simp [AttachEvent.Concerns])) rfl

theorem onRelayEnded_decomposes {a : AttachArbiter} (h : a.Inv) (lease : LeaseId) :
    Decomposes a (.relayEnded lease) (a.onRelayEnded lease) := by
  rcases sessionForLease_cases h (e := .relayEnded lease) rfl with
    ⟨hs, hn⟩ | ⟨id, st, hs, hst, hl, hn⟩ <;> simp only [onRelayEnded, hs]
  · exact .ignored hn rfl
  cases st with
  | established key l =>
      obtain rfl : l = lease := hl
      simp only [hst]
      exact .acts id (.removed (by rw [hst]; exact .finish))
  | connecting | pendingActivation | closingForSupersede =>
      simp only [hst]
      exact .ignored (hn (by simp [AttachEvent.Concerns])) rfl

/-- どのイベントも、1 つの slot を `SlotStep` に沿って変えるか、何も変えない。 -/
theorem apply_decomposes {a : AttachArbiter} (h : a.Inv) (e : AttachEvent) :
    Decomposes a e (a.apply e) := by
  cases e with
  | helloReceived key => exact .acts _ (onHelloReceived_stepsAt h key)
  | targetConnected lease target token => exact onTargetConnected_decomposes h lease target token
  | targetConnectFailed lease => exact onTargetConnectFailed_decomposes h lease
  | activated key token => exact onActivated_decomposes h key token
  | cancelReceived key => exact onCancelReceived_decomposes h key
  | leaseStopped lease => exact onLeaseStopped_decomposes h lease
  | pendingExpired lease => exact onPendingExpired_decomposes h lease
  | relayEnded lease => exact onRelayEnded_decomposes h lease

theorem apply_of_not_concerns {a : AttachArbiter} (h : a.Inv) {e : AttachEvent}
    (hn : ∀ id, ¬ e.Concerns id (a.stateFor id)) : a.apply e = (a, []) := by
  cases apply_decomposes h e with
  | acts id hs => exact absurd hs.slot.concerns (hn id)
  | ignored _ hr => exact hr

/-- 1 つの session から見た `apply`。その slot が `SlotStep` に沿って変わるか、イベントが関わらず slot が変わらない。 -/
theorem apply_slot {a : AttachArbiter} (h : a.Inv) (e : AttachEvent) (id : SessionId) :
    SlotStep id a.nextLease e (a.stateFor id) ((a.apply e).1.stateFor id) (a.apply e).1.nextLease
        (a.apply e).2 ∨
      (¬ e.Concerns id (a.stateFor id) ∧ (a.apply e).1.stateFor id = a.stateFor id) := by
  by_cases hn : ∀ id, ¬ e.Concerns id (a.stateFor id)
  · rw [apply_of_not_concerns h hn]
    exact Or.inr ⟨hn id, rfl⟩
  cases apply_decomposes h e with
  | ignored hn' => exact absurd hn' hn
  | acts id₀ hs =>
      by_cases hid : id = id₀
      · subst hid; exact Or.inl hs.slot
      · exact Or.inr ⟨fun hc => hid (h.concerns_unique hc hs.slot.concerns), hs.frame id hid⟩

/-! ## 不変条件の保存 -/

theorem Inv.of_stepsAt {a : AttachArbiter} (h : a.Inv) {e : AttachEvent}
    {r : AttachArbiter × List AttachEffect} {id : SessionId} (hs : StepsAt a e r id) : r.1.Inv := by
  have hle := hs.slot.le_next
  -- 遷移した slot の lease は、元の lease か、どの slot も保持していない番号である。
  have hlease : ∀ t', r.1.stateFor id = some t' →
      (∃ t, a.stateFor id = some t ∧ t'.lease = t.lease) ∨
        (t'.lease = ⟨a.nextLease⟩ ∧ r.1.nextLease = a.nextLease + 1) :=
    fun t' ht => hs.slot.lease_of_next ht
  have hother : ∀ id' t t', id' ≠ id → a.stateFor id' = some t → r.1.stateFor id = some t' →
      t'.lease ≠ t.lease := by
    intro id' t t' hne ht ht' heq
    rcases hlease t' ht' with ⟨t₀, ht₀, hl⟩ | ⟨hl, _⟩
    · exact hne (h.unique id' id t t₀ ht ht₀ (heq.symm.trans hl))
    · have := h.fresh id' t ht
      rw [← heq, hl] at this
      exact absurd this (lt_irrefl _)
  constructor
  · intro id' st hst
    by_cases hid : id' = id
    · subst hid
      rcases hlease st hst with ⟨t, ht, hl⟩ | ⟨hl, hn⟩
      · rw [hl]; exact lt_of_lt_of_le (h.fresh _ _ ht) hle
      · rw [hl, hn]; exact Nat.lt_succ_self _
    · rw [hs.frame id' hid] at hst
      exact lt_of_lt_of_le (h.fresh _ _ hst) hle
  · intro id₁ id₂ st₁ st₂ h₁ h₂ hl
    by_cases hid₁ : id₁ = id <;> by_cases hid₂ : id₂ = id
    · rw [hid₁, hid₂]
    · subst hid₁
      rw [hs.frame id₂ hid₂] at h₂
      exact absurd hl (hother id₂ st₂ st₁ hid₂ h₂ h₁)
    · subst hid₂
      rw [hs.frame id₁ hid₁] at h₁
      exact absurd hl.symm (hother id₁ st₁ st₂ hid₁ h₁ h₂)
    · rw [hs.frame id₁ hid₁] at h₁
      rw [hs.frame id₂ hid₂] at h₂
      exact h.unique id₁ id₂ st₁ st₂ h₁ h₂ hl
  · intro id' st hst
    by_cases hid : id' = id
    · subst hid
      exact hs.slot.keyed_next (h.keyed id') hst
    · rw [hs.frame id' hid] at hst
      exact h.keyed id' st hst

theorem Inv.apply {a : AttachArbiter} (h : a.Inv) (e : AttachEvent) : (a.apply e).1.Inv := by
  by_cases hn : ∀ id, ¬ e.Concerns id (a.stateFor id)
  · rw [apply_of_not_concerns h hn]; exact h
  cases apply_decomposes h e with
  | acts id hs => exact h.of_stepsAt hs
  | ignored hn' => exact absurd hn' hn

theorem nextLease_le_apply {a : AttachArbiter} (h : a.Inv) (e : AttachEvent) :
    a.nextLease ≤ (a.apply e).1.nextLease := by
  cases apply_decomposes h e with
  | acts id hs => exact hs.slot.le_next
  | ignored _ hr => rw [hr]

theorem after_append (es es' : List AttachEvent) :
    after (es ++ es') = Reducer.run AttachArbiter.apply (after es) es' :=
  Reducer.run_append _ _ _

theorem after_concat (es : List AttachEvent) (e : AttachEvent) :
    after (es ++ [e]) = ((after es).apply e).1 :=
  Reducer.run_concat _ _ _

theorem Inv.after (es : List AttachEvent) : (after es).Inv :=
  Reducer.run_invariant (fun _ e h => h.apply e) Inv.new es

end AttachArbiter

end IsekaiTerminal.Serve
