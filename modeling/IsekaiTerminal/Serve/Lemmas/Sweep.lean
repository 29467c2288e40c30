import IsekaiTerminal.Lib.Transition
import IsekaiTerminal.Serve.Lemmas.Aggregate

/-!
# sweep と承認の前の立ち退き

sweep が除く session は、締切に達した parked の session と一致する。承認の前の立ち退きは、park した時刻と id の
組が最小の session だけを除く。どの経路も、中継中の session を期限切れや立ち退きにしない。
-/

namespace IsekaiTerminal.Serve

open Protocol Lib

/-!
## slot の片付け

保持している lease の完了の事実だけで slot を 1 つずつ解放できることを示す。1 つの slot に要する事実は、
世代の交代を待つ slot で 2 つ、ほかの slot で 1 つである。
-/

namespace ServeAggregate

theorem Completion.single {agg : ServeAggregate} {e : ServeEvent} (he : agg.Completes e) :
    Completion agg [e] (agg.apply e).1 :=
  Run.single ⟨rfl, he⟩

theorem Completion.run {agg agg' : ServeAggregate} {es : List ServeEvent} (h : Completion agg es agg') :
    agg' = Reducer.run ServeAggregate.apply agg es := by
  induction h with
  | nil => rfl
  | cons hs _ ih =>
      obtain ⟨rfl, -⟩ := hs
      exact ih

theorem Completion.inv {agg agg' : ServeAggregate} {es : List ServeEvent} (h : Completion agg es agg')
    (hi : agg.Inv) : agg'.Inv := by
  rw [h.run]
  exact Reducer.run_invariant (fun _ e h => h.apply e) hi es

/-! ## 1 つの slot の解放 -/

theorem Inv.sessionForLease {agg : ServeAggregate} (h : agg.Inv) {id : SessionId} {st : AttachState}
    (hst : agg.arbiter.stateFor id = some st) : agg.arbiter.sessionForLease st.lease = some id :=
  (AttachArbiter.sessionForLease_eq_some h.arbiter).mpr ⟨st, hst, rfl⟩

theorem Inv.apply_targetConnectFailed {agg : ServeAggregate} (h : agg.Inv) {id : SessionId}
    {key : AttachKey} {lease : LeaseId} (hst : agg.arbiter.stateFor id = some (.connecting key lease)) :
    (agg.apply (.targetConnectFailed lease)).1 = agg.withArbiter (agg.arbiter.removeSlot id) := by
  have hs := h.sessionForLease hst
  simp only [AttachState.lease] at hs
  simp only [ServeAggregate.apply, forward_eq, AttachArbiter.apply, AttachArbiter.onTargetConnectFailed, hs,
    hst]

theorem Inv.apply_pendingExpired {agg : ServeAggregate} (h : agg.Inv) {id : SessionId}
    {key : AttachKey} {lease : LeaseId} {token : AttachToken} {target : TargetHandleId}
    (hst : agg.arbiter.stateFor id = some (.pendingActivation key lease token target)) :
    (agg.apply (.pendingExpired lease)).1 = agg.withArbiter (agg.arbiter.removeSlot id) := by
  have hs := h.sessionForLease hst
  simp only [AttachState.lease] at hs
  simp only [ServeAggregate.apply, forward_eq, AttachArbiter.apply, AttachArbiter.onPendingExpired, hs, hst]

theorem Inv.apply_leaseStopped {agg : ServeAggregate} (h : agg.Inv) {id : SessionId}
    {lease : LeaseId} {next : AttachKey}
    (hst : agg.arbiter.stateFor id = some (.closingForSupersede lease next)) :
    (agg.apply (.leaseStopped lease)).1 = agg.withArbiter
      (agg.arbiter.mintLease.2.insertSlot id (.connecting next agg.arbiter.mintLease.1)) := by
  have hs := h.sessionForLease hst
  simp only [AttachState.lease] at hs
  simp only [ServeAggregate.apply, forward_eq, AttachArbiter.apply, AttachArbiter.onLeaseStopped, hs, hst]

theorem Inv.apply_relayEnded {agg : ServeAggregate} (h : agg.Inv) {id : SessionId}
    {key : AttachKey} {lease : LeaseId} (hst : agg.arbiter.stateFor id = some (.established key lease)) :
    (agg.apply (.relayEnded lease)).1 = agg.drop id := by
  rcases onRelayEnded_cases h lease with ⟨id', entry, he, hl, heq⟩ | ⟨hn, -⟩
  · obtain ⟨key', hst'⟩ := h.established he
    obtain rfl : id' = id := h.arbiter.unique _ _ _ _ hst' hst hl
    rw [show agg.apply (.relayEnded lease) = agg.onRelayEnded lease from rfl, heq, discard_eq h he]
  · obtain ⟨entry, he, hl⟩ := (h.coupled id lease).mpr ⟨key, hst⟩
    exact absurd hl (hn id entry he)

theorem Inv.drain_connecting {agg : ServeAggregate} (h : agg.Inv) {id : SessionId} {key : AttachKey}
    {lease : LeaseId} (hst : agg.arbiter.stateFor id = some (.connecting key lease)) :
    ∃ agg', Completion agg [.targetConnectFailed lease] agg' ∧
      agg'.arbiter.sessionCount + 1 = agg.arbiter.sessionCount := by
  refine ⟨_, .single ⟨id, key, hst⟩, ?_⟩
  rw [h.apply_targetConnectFailed hst]
  exact AttachArbiter.sessionCount_removeSlot hst

/-- どの slot も、その lease の完了の事実を高々 2 つ適用すれば解放される。 -/
theorem Inv.drain_one {agg : ServeAggregate} (h : agg.Inv) {id : SessionId} {st : AttachState}
    (hst : agg.arbiter.stateFor id = some st) :
    ∃ es agg', Completion agg es agg' ∧ es.length ≤ 2 ∧
      agg'.arbiter.sessionCount + 1 = agg.arbiter.sessionCount := by
  cases st with
  | connecting key lease =>
      obtain ⟨agg', hrun, hcount⟩ := h.drain_connecting hst
      exact ⟨_, agg', hrun, by simp, hcount⟩
  | pendingActivation key lease token target =>
      refine ⟨[.pendingExpired lease], _, .single ⟨id, key, token, target, hst⟩, by simp, ?_⟩
      rw [h.apply_pendingExpired hst]
      exact AttachArbiter.sessionCount_removeSlot hst
  | established key lease =>
      refine ⟨[.relayEnded lease], _, .single ⟨id, key, hst⟩, by simp, ?_⟩
      rw [h.apply_relayEnded hst]
      exact AttachArbiter.sessionCount_removeSlot hst
  | closingForSupersede lease next =>
      -- 停止の事実が `next` の接続を始めるので、その失敗まで続ける。
      have hrun : Completion agg [.leaseStopped lease] _ := .single ⟨id, next, hst⟩
      have hstopped := h.apply_leaseStopped hst
      have hst' : (agg.apply (.leaseStopped lease)).1.arbiter.stateFor id =
          some (.connecting next agg.arbiter.mintLease.1) := by
        rw [hstopped]; simp
      have hcount : (agg.apply (.leaseStopped lease)).1.arbiter.sessionCount = agg.arbiter.sessionCount := by
        have hmem : agg.arbiter.sessions.contains id = true :=
          Std.ExtTreeMap.mem_iff_contains.mp ((AttachArbiter.mem_sessions_iff _ id).mpr ⟨_, hst⟩)
        rw [hstopped]
        simp [AttachArbiter.sessionCount, AttachArbiter.insertSlot, AttachArbiter.mintLease,
          Std.ExtTreeMap.size_insert, hmem]
      obtain ⟨agg', hrun', hcount'⟩ := (hrun.inv h).drain_connecting hst'
      exact ⟨_, agg', hrun.append hrun', by simp, hcount'.trans hcount⟩

/-! ## すべての slot の解放 -/

theorem exists_slot_of_ne_empty {a : AttachArbiter} (h : a.sessions ≠ ∅) :
    ∃ id st, a.stateFor id = some st := by
  by_contra hn
  push Not at hn
  refine h (Std.ExtTreeMap.ext_getElem? ?_)
  intro id
  rw [Std.ExtTreeMap.getElem?_empty]
  cases hst : a.sessions[id]? with
  | none => rfl
  | some st => exact absurd hst (hn id st)

theorem Inv.drain {agg : ServeAggregate} (h : agg.Inv) {n : Nat} (hn : agg.arbiter.sessionCount = n) :
    ∃ es agg', Completion agg es agg' ∧ es.length ≤ 2 * n ∧ agg'.arbiter.sessions = ∅ := by
  induction n generalizing agg with
  | zero => exact ⟨[], agg, .nil _, by simp, Std.ExtTreeMap.eq_empty_iff_size_eq_zero.mpr hn⟩
  | succ n ih =>
      have hne : agg.arbiter.sessions ≠ ∅ := by
        intro hz
        have hsize : agg.arbiter.sessionCount = 0 := Std.ExtTreeMap.eq_empty_iff_size_eq_zero.mp hz
        omega
      obtain ⟨id, st, hst⟩ := exists_slot_of_ne_empty hne
      obtain ⟨es, agg₁, hrun, hlen, hcount⟩ := h.drain_one hst
      obtain ⟨es', agg₂, hrun', hlen', hzero⟩ := ih (hrun.inv h) (by omega)
      refine ⟨es ++ es', agg₂, hrun.append hrun', ?_, hzero⟩
      rw [List.length_append]
      omega

theorem Inv.index_empty {agg : ServeAggregate} (h : agg.Inv) (hz : agg.arbiter.sessions = ∅) :
    agg.index = ∅ := by
  refine Std.ExtTreeMap.ext_getElem? ?_
  intro id
  rw [Std.ExtTreeMap.getElem?_empty]
  cases he : agg.indexEntry id with
  | none => exact he
  | some entry =>
      obtain ⟨key, hst⟩ := h.established he
      rw [AttachArbiter.stateFor, hz, Std.ExtTreeMap.getElem?_empty] at hst
      cases hst

end ServeAggregate

/-! ## park の順序 -/

theorem parkedBefore_eq_false_iff {p q : Millis × SessionKey} :
    parkedBefore p q = false ↔ q.1 < p.1 ∨ q.1 = p.1 ∧ (compare q.2 p.2).isLE = true := by
  have hswap : compare p.2 q.2 = (compare q.2 p.2).swap := Std.OrientedOrd.eq_swap
  rcases Nat.lt_trichotomy p.1 q.1 with hlt | heq | hgt
  · have hcmp : compare p.1 q.1 = .lt := Nat.compare_eq_lt.mpr hlt
    simp [parkedBefore, hcmp, Ordering.then, hlt.ne', Nat.not_lt.mpr hlt.le]
  · simp only [parkedBefore, Ordering.then, hswap, heq]
    cases compare q.2 p.2 <;> simp
  · have hcmp : compare p.1 q.1 = .gt := Nat.compare_eq_gt.mpr hgt
    simp [parkedBefore, hcmp, Ordering.then, hgt]

theorem parkedBefore_trans {p q r : Millis × SessionKey} (h : parkedBefore q p = false)
    (h' : parkedBefore r q = false) : parkedBefore r p = false := by
  rw [parkedBefore_eq_false_iff] at *
  rcases h with h | ⟨h, hle⟩ <;> rcases h' with h' | ⟨h', hle'⟩
  · exact Or.inl (h.trans h')
  · exact Or.inl (h'.symm ▸ h)
  · exact Or.inl (h.symm ▸ h')
  · exact Or.inr ⟨h.trans h', Std.TransOrd.isLE_trans hle hle'⟩

theorem parkedBefore_asymm {p q : Millis × SessionKey} (h : parkedBefore p q = true) :
    parkedBefore q p = false := by
  have htotal : parkedBefore p q = false ∨ parkedBefore q p = false := by
    simp only [parkedBefore_eq_false_iff]
    rcases Nat.lt_trichotomy p.1 q.1 with hlt | heq | hgt
    · exact Or.inr (Or.inl hlt)
    · have hswap : compare p.2 q.2 = (compare q.2 p.2).swap := Std.OrientedOrd.eq_swap
      cases hcmp : compare q.2 p.2 <;> simp [hswap, hcmp, heq]
    · exact Or.inl (Or.inl hgt)
  refine htotal.resolve_left ?_
  simp [h]

theorem parkedBefore_irrefl (p : Millis × SessionKey) : parkedBefore p p = false :=
  parkedBefore_eq_false_iff.mpr (Or.inr ⟨rfl, by simp⟩)

theorem minBy?_eq_none {α : Type} {lt : α → α → Bool} {as : List α} (h : minBy? lt as = none) : as = [] := by
  cases as with
  | nil => rfl
  | cons a as =>
      simp only [minBy?] at h
      split at h
      · cases h
      · split at h <;> cases h

/-- 最小のものより前のものは無い。 -/
theorem minBy?_parkedBefore {ps : List (Millis × SessionKey)} {p q : Millis × SessionKey}
    (h : minBy? parkedBefore ps = some p) (hq : q ∈ ps) : parkedBefore q p = false := by
  induction ps generalizing p q with
  | nil => cases h
  | cons r ps ih =>
      simp only [minBy?] at h
      cases hm : minBy? parkedBefore ps with
      | none =>
          rw [hm] at h
          cases h
          rw [minBy?_eq_none hm, List.mem_singleton] at hq
          exact hq ▸ parkedBefore_irrefl q
      | some m =>
          simp only [hm] at h
          split at h
          case isTrue hlt =>
            cases h
            rcases List.mem_cons.mp hq with rfl | hq
            · exact parkedBefore_asymm hlt
            · exact ih hm hq
          case isFalse hlt =>
            cases h
            rcases List.mem_cons.mp hq with rfl | hq
            · exact parkedBefore_irrefl q
            · exact parkedBefore_trans (Bool.not_eq_true _ ▸ hlt) (ih hm hq)

namespace ServeAggregate

theorem mem_parked_iff (agg : ServeAggregate) (since : Millis) (id : SessionKey) :
    (since, id) ∈ agg.index.toList.filterMap (fun p => p.2.parkedSince.map fun since => (since, p.1)) ↔
      ∃ entry, agg.indexEntry id = some entry ∧ entry.parkedSince = some since := by
  simp only [List.mem_filterMap, Option.map_eq_some_iff, Prod.exists, Prod.mk.injEq, mem_index_toList_iff]
  constructor
  · rintro ⟨id', entry, he, since', hp, rfl, rfl⟩
    exact ⟨entry, he, hp⟩
  · rintro ⟨entry, he, hp⟩
    exact ⟨id, entry, he, since, hp, rfl, rfl⟩

theorem oldestParked_of_eq_some {agg : ServeAggregate} {victim : SessionKey}
    (h : agg.oldestParked = some victim) : ∃ lease, agg.OldestParked victim lease := by
  obtain ⟨⟨since, id⟩, hmin, rfl⟩ := Option.map_eq_some_iff.mp h
  obtain ⟨entry, he, hp⟩ := (mem_parked_iff agg since id).mp (minBy?_mem hmin)
  refine ⟨entry.lease, entry, since, he, rfl, hp, ?_⟩
  intro id' entry' since' he' hp'
  exact parkedBefore_eq_false_iff.mp
    (minBy?_parkedBefore hmin ((mem_parked_iff agg since' id').mpr ⟨entry', he', hp'⟩))

theorem parkedSince_of_oldestParked_eq_none {agg : ServeAggregate} (h : agg.oldestParked = none)
    {id : SessionKey} {entry : IndexEntry} (he : agg.indexEntry id = some entry) : entry.parkedSince = none := by
  cases hp : entry.parkedSince with
  | none => rfl
  | some since =>
      have hmem := (mem_parked_iff agg since id).mpr ⟨entry, he, hp⟩
      rw [minBy?_eq_none (Option.map_eq_none_iff.mp h)] at hmem
      cases hmem

/-! ## sweep -/

theorem mem_expired_iff (agg : ServeAggregate) (now : Millis) (maxParked : Duration) (id : SessionKey) :
    id ∈ agg.expired now maxParked ↔ agg.Overdue now maxParked id := by
  simp only [expired, List.mem_filterMap, Option.bind_eq_some_iff, Prod.exists, mem_index_toList_iff,
    Option.ite_none_right_eq_some, Option.some.injEq]
  constructor
  · rintro ⟨id', entry, he, since, hp, hle, rfl⟩
    refine ⟨entry, since, he, hp, ?_⟩
    cases hg : entry.negotiatedGraceSecs <;> simpa [effectiveDeadline, hg] using hle
  · rintro ⟨entry, since, he, hp, hle⟩
    refine ⟨id, entry, he, since, hp, ?_, rfl⟩
    cases hg : entry.negotiatedGraceSecs <;> simpa [effectiveDeadline, hg] using hle

theorem expired_nodup (agg : ServeAggregate) (now : Millis) (maxParked : Duration) :
    (agg.expired now maxParked).Nodup := by
  have hdistinct : agg.index.toList.Pairwise fun p q => p.1 ≠ q.1 := by
    refine agg.index.distinct_keys_toList.imp ?_
    rintro p q hne heq
    exact hne (by simp [heq])
  refine List.pairwise_filterMap.mpr (hdistinct.imp ?_)
  rintro p q hne id hid id' hid' rfl
  obtain ⟨since, -, hp⟩ := Option.bind_eq_some_iff.mp hid
  obtain ⟨since', -, hq⟩ := Option.bind_eq_some_iff.mp hid'
  obtain ⟨-, hp⟩ := Option.ite_none_right_eq_some.mp hp
  obtain ⟨-, hq⟩ := Option.ite_none_right_eq_some.mp hq
  exact hne ((Option.some.inj hp).trans (Option.some.inj hq).symm)

theorem Removed.of_mem {agg : ServeAggregate} {ids : List SessionKey} {cause : DiscardCause}
    {r : ServeAggregate × List ServeEffect} (h : agg.Removed ids cause r) {eff : ServeEffect} (heff : eff ∈ r.2) :
    ∃ id ∈ ids, ∃ entry, agg.indexEntry id = some entry ∧ eff = .discard id entry.lease cause := by
  obtain ⟨i, hi, rfl⟩ := List.getElem_of_mem heff
  have hlen : i < ids.length := h.effects.length_eq ▸ hi
  exact ⟨ids[i], List.getElem_mem hlen, h.effects.get hlen hi⟩

theorem Removed.nil (agg : ServeAggregate) (cause : DiscardCause) : agg.Removed [] cause (agg, []) :=
  ⟨by simp, by simp, by simp, .nil⟩

@[simp] theorem indexEntry_drop (agg : ServeAggregate) (id id' : SessionKey) :
    (agg.drop id).indexEntry id' = if id' = id then none else agg.indexEntry id' := by
  simp [drop]

@[simp] theorem stateFor_drop (agg : ServeAggregate) (id id' : SessionKey) :
    (agg.drop id).arbiter.stateFor id' = if id' = id then none else agg.arbiter.stateFor id' := by
  simp [drop]

theorem Removed.cons {agg : ServeAggregate} (h : agg.Inv) {id : SessionKey} {entry : IndexEntry}
    (he : agg.indexEntry id = some entry) {ids : List SessionKey} (hid : id ∉ ids) {cause : DiscardCause}
    {r : ServeAggregate × List ServeEffect} (hr : (agg.drop id).Removed ids cause r) :
    agg.Removed (id :: ids) cause (r.1, .discard id entry.lease cause :: r.2) where
  gone := by
    intro id' hid'
    rcases List.mem_cons.mp hid' with rfl | hid'
    · simpa using hr.kept id' hid
    · exact hr.gone id' hid'
  kept := by
    intro id' hid'
    rw [List.mem_cons, not_or] at hid'
    obtain ⟨hne, hid'⟩ := hid'
    simpa [hne] using hr.kept id' hid'
  held := by
    intro id' hid'
    rcases List.mem_cons.mp hid' with rfl | hid'
    · obtain ⟨key, hst⟩ := h.established he
      exact ⟨key, entry.lease, hst⟩
    · obtain ⟨key, lease, hst⟩ := hr.held id' hid'
      rw [stateFor_drop, if_neg (ne_of_mem_of_not_mem hid' hid)] at hst
      exact ⟨key, lease, hst⟩
  effects := by
    refine .cons ⟨entry, he, rfl⟩ (hr.effects.imp ?_)
    rintro id' eff ⟨entry', he', rfl⟩
    rw [indexEntry_drop] at he'
    split at he'
    · cases he'
    · exact ⟨entry', he', rfl⟩

/-- 項目の在る session を順に除くと、それらだけが除かれる。 -/
theorem removed_run {agg : ServeAggregate} (h : agg.Inv) {ids : List SessionKey} (hids : ids.Nodup)
    (hin : ∀ id ∈ ids, ∃ entry, agg.indexEntry id = some entry) :
    agg.Removed ids .expired
      (Reducer.run (fun (agg : ServeAggregate) id => agg.discard id .expired) agg ids,
        Reducer.outputs (fun (agg : ServeAggregate) id => agg.discard id .expired) agg ids) := by
  induction ids generalizing agg with
  | nil => exact .nil agg _
  | cons id ids ih =>
      obtain ⟨hid, hids⟩ := List.nodup_cons.mp hids
      obtain ⟨entry, he⟩ := hin id List.mem_cons_self
      rw [Reducer.run_cons, Reducer.outputs_cons, discard_eq h he]
      refine Removed.cons h he hid (ih (h.drop he) hids ?_)
      intro id' hid'
      obtain ⟨entry', he'⟩ := hin id' (List.mem_cons_of_mem _ hid')
      exact ⟨entry', by rw [indexEntry_drop, if_neg (ne_of_mem_of_not_mem hid' hid), he']⟩

theorem onSweep_removed {agg : ServeAggregate} (h : agg.Inv) (now : Millis) (maxParked : Duration) :
    agg.Removed (agg.expired now maxParked) .expired (agg.onSweep now maxParked) := by
  refine removed_run h (expired_nodup agg now maxParked) ?_
  intro id hid
  obtain ⟨entry, -, he, -⟩ := (mem_expired_iff agg now maxParked id).mp hid
  exact ⟨entry, he⟩

/-! ## 承認の前の立ち退き -/

/-- slot を持つ session か、空きの在るときの承認は、索引に触れない。 -/
theorem onAdmitRequested_of_room {agg : ServeAggregate} {key : AttachKey}
    (h : agg.arbiter.hasSession key.sessionId = true ∨ agg.arbiter.sessionCount < agg.maxSessions) :
    agg.onAdmitRequested key = agg.forward (.helloReceived key) := by
  unfold onAdmitRequested
  rw [if_neg]
  rintro ⟨hnew, hfull⟩
  rcases h with h | h
  · rw [hnew] at h
    cases h
  · exact absurd hfull (not_le.mpr h)

theorem discard_notMem_forward (agg : ServeAggregate) (e : AttachEvent) (id : SessionKey) (lease : LeaseId)
    (cause : DiscardCause) : .discard id lease cause ∉ (agg.forward e).2 := by
  simp [forward_eq]

/-- 新しい session の `HELLO` は、`ConnectTarget` を 1 つだけ出し、その session の slot だけを埋める。 -/
theorem forward_helloReceived {agg : ServeAggregate} {key : AttachKey}
    (hst : agg.arbiter.stateFor key.sessionId = none) :
    agg.forward (.helloReceived key) =
      (agg.withArbiter (agg.arbiter.mintLease.2.insertSlot key.sessionId
        (.connecting key ⟨agg.arbiter.nextLease⟩)), [.attach (.connectTarget ⟨agg.arbiter.nextLease⟩)]) := by
  simp [forward_eq, AttachArbiter.apply, AttachArbiter.onHelloReceived, hst]

theorem onAdmitRequested_of_full {agg : ServeAggregate} (h : agg.Inv) {key : AttachKey}
    (hnew : agg.arbiter.hasSession key.sessionId = false) (hfull : agg.maxSessions ≤ agg.arbiter.sessionCount) :
    (∃ victim lease, agg.Replaced key victim lease (agg.onAdmitRequested key)) ∨
      (∀ id entry, agg.indexEntry id = some entry → entry.parkedSince = none) ∧
        agg.onAdmitRequested key = (agg, [.attach (.sendReject key .busyOtherSession)]) := by
  have hnone : agg.arbiter.stateFor key.sessionId = none := by
    rw [Option.eq_none_iff_forall_ne_some]
    intro st hst
    have := (AttachArbiter.hasSession_iff agg.arbiter key.sessionId).mpr ⟨st, hst⟩
    rw [hnew] at this
    cases this
  unfold onAdmitRequested
  rw [if_pos ⟨hnew, hfull⟩]
  cases hv : agg.oldestParked with
  | none => exact Or.inr ⟨fun id entry he => parkedSince_of_oldestParked_eq_none hv he, rfl⟩
  | some victim =>
      obtain ⟨lease, hold⟩ := oldestParked_of_eq_some hv
      obtain ⟨entry, -, he, rfl, -⟩ := id hold
      have hne : key.sessionId ≠ victim := by
        intro heq
        obtain ⟨key', hst⟩ := h.established he
        rw [← heq, hnone] at hst
        cases hst
      have hst' : (agg.drop victim).arbiter.stateFor key.sessionId = none := by
        rw [stateFor_drop, if_neg hne, hnone]
      refine Or.inl ⟨victim, entry.lease, hold, ?_, ?_, ?_⟩
      · simp only [discard_eq h he, forward_helloReceived hst']
        rfl
      · intro id
        simp only [discard_eq h he, forward_helloReceived hst', indexEntry_withArbiter, indexEntry_drop]
      · intro id
        simp only [discard_eq h he, forward_helloReceived hst', arbiter_withArbiter,
          AttachArbiter.stateFor_insertSlot, AttachArbiter.stateFor_mintLease, stateFor_drop]
        rfl

/-! ## 中継中の session -/

/-- 期限切れと立ち退きで除かれるのは、イベントの前に parked だった session だけである。 -/
theorem parked_of_discard_mem {agg : ServeAggregate} (h : agg.Inv) {e : ServeEvent} {id : SessionKey}
    {lease : LeaseId} {cause : DiscardCause} (hcause : cause = .expired ∨ cause = .evicted)
    (hmem : .discard id lease cause ∈ (agg.apply e).2) :
    ∃ entry, agg.indexEntry id = some entry ∧ entry.lease = lease ∧ entry.parkedSince.isSome = true := by
  have hother {id' : SessionKey} {cause' : DiscardCause} (hne : cause' ≠ .expired ∧ cause' ≠ .evicted)
      (hm : .discard id lease cause ∈ (agg.discard id' cause').2) : False := by
    cases he : agg.indexEntry id' with
    | none => simp [discard, he] at hm
    | some entry =>
        simp only [discard_eq h he, List.mem_singleton, ServeEffect.discard.injEq] at hm
        obtain ⟨-, -, rfl⟩ := hm
        exact hcause.elim hne.1 hne.2
  cases e with
  | admitRequested key =>
      by_cases hroom : agg.arbiter.hasSession key.sessionId = true ∨ agg.arbiter.sessionCount < agg.maxSessions
      · rw [apply, onAdmitRequested_of_room hroom] at hmem
        exact absurd hmem (discard_notMem_forward agg _ id lease cause)
      · rw [not_or, Bool.not_eq_true, not_lt] at hroom
        rcases onAdmitRequested_of_full h hroom.1 hroom.2 with ⟨victim, l, hr⟩ | ⟨-, heq⟩
        · obtain ⟨entry, since, he, hl, hp, -⟩ := hr.oldest
          rw [apply, hr.effects] at hmem
          simp only [List.mem_cons, ServeEffect.discard.injEq, reduceCtorEq, List.not_mem_nil, or_false] at hmem
          obtain ⟨rfl, rfl, -⟩ := hmem
          exact ⟨entry, he, hl, by simp [hp]⟩
        · simp [apply, heq] at hmem
  | targetConnected | targetConnectFailed | cancelReceived | leaseStopped | pendingExpired =>
      exact absurd hmem (discard_notMem_forward agg _ id lease cause)
  | activated key token grace =>
      rcases onActivated_cases h key token grace with heq | ⟨l, target, -, heq⟩ <;> simp [apply, heq] at hmem
  | relayEnded l =>
      rcases onRelayEnded_cases h l with ⟨id', entry, he, -, heq⟩ | ⟨-, heq⟩
      · rw [apply, heq] at hmem
        exact (hother (by simp) hmem).elim
      · simp [apply, heq] at hmem
  | parked id' l now =>
      simp only [apply, onParked] at hmem
      split at hmem
      · simp at hmem
      · split at hmem
        · simp at hmem
        · split at hmem
          · exact (hother (by simp) hmem).elim
          · simp at hmem
  | relayTerminated id' l reason =>
      simp only [apply, onRelayTerminated] at hmem
      split at hmem
      · simp at hmem
      · cases reason <;> exact (hother (by simp) hmem).elim
  | resumeUnavailable id' l =>
      simp only [apply, onResumeUnavailable] at hmem
      split at hmem
      · simp at hmem
      · split at hmem <;> simp at hmem
  | sweep now maxParked =>
      obtain ⟨id', hid', entry, he, heq⟩ := (onSweep_removed h now maxParked).of_mem hmem
      obtain ⟨rfl, rfl, -⟩ := ServeEffect.discard.inj heq
      exact ⟨entry, he, rfl, expired_parked hid' entry he⟩
  | resumeRequested id' =>
      simp only [apply, onResumeRequested] at hmem
      split at hmem
      · simp at hmem
      · split at hmem
        · simp at hmem
        · split at hmem <;> simp at hmem

end ServeAggregate

end IsekaiTerminal.Serve
