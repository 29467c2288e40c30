import IsekaiTerminal.Lib.Transition
import IsekaiTerminal.Serve.Lemmas.History
import IsekaiTerminal.Serve.Aggregate

/-!
# `ServeAggregate` の不変条件と、索引の遷移への分解

`apply` は、索引と slot を同時に変える小さな遷移 `IndexStep` の列である。この事実から、
索引と `Established` の slot が一致することなどの不変条件がどの実行でも保たれることを導く。
-/

namespace IsekaiTerminal.Serve

open Protocol Lib

/-! ## slot と arbiter の補題 -/

/-- `Established` の slot を作るのは `Activated`、無くすのは `RelayEnded` だけである。 -/
theorem SlotStep.established_iff {id : SessionId} {n n' : Nat} {e : AttachEvent}
    {st st' : Option AttachState} {effs : List AttachEffect} (h : SlotStep id n e st st' n' effs)
    (ha : ∀ key token, e ≠ .activated key token) (hr : ∀ lease, e ≠ .relayEnded lease)
    (key : AttachKey) (lease : LeaseId) :
    st' = some (.established key lease) ↔ st = some (.established key lease) := by
  cases h with
  | reject | resend => exact Iff.rfl
  | supersede _ hf =>
      constructor
      · rintro ⟨⟩
      · rintro ⟨⟩; exact hf.elim
  | cancel _ hf =>
      constructor
      · rintro ⟨⟩
      · rintro ⟨⟩; exact hf.elim
  | connect | replaceNext | connected | connectFailed | restart | expire =>
      constructor <;> rintro ⟨⟩
  | activate => exact absurd rfl (ha _ _)
  | finish => exact absurd rfl (hr _)

namespace AttachArbiter

theorem apply_established_iff {a : AttachArbiter} (h : a.Inv) {e : AttachEvent}
    (ha : ∀ key token, e ≠ .activated key token) (hr : ∀ lease, e ≠ .relayEnded lease)
    (id : SessionId) (key : AttachKey) (lease : LeaseId) :
    (a.apply e).1.stateFor id = some (.established key lease) ↔
      a.stateFor id = some (.established key lease) := by
  rcases apply_slot h e id with hs | ⟨-, hs⟩
  · exact hs.established_iff ha hr key lease
  · rw [hs]

theorem mem_sessions_iff (a : AttachArbiter) (id : SessionId) :
    id ∈ a.sessions ↔ ∃ st, a.stateFor id = some st := by
  rw [← hasSession_iff, hasSession, Std.ExtTreeMap.mem_iff_contains]

theorem apply_relayEnded {a : AttachArbiter} (h : a.Inv) {id : SessionId} {key : AttachKey}
    {lease : LeaseId} (hst : a.stateFor id = some (.established key lease)) :
    a.apply (.relayEnded lease) = (a.removeSlot id, []) := by
  have hs : a.sessionForLease lease = some id := (sessionForLease_eq_some h).mpr ⟨_, hst, rfl⟩
  simp only [apply, onRelayEnded, hs, hst]

theorem apply_activated {a : AttachArbiter} {key : AttachKey} {lease : LeaseId} {token : AttachToken}
    {target : TargetHandleId}
    (hst : a.stateFor key.sessionId = some (.pendingActivation key lease token target)) :
    a.apply (.activated key token) =
      (a.insertSlot key.sessionId (.established key lease), [.startRelay lease target]) := by
  simp [apply, onActivated, hst, AttachToken.ctEq_iff.mpr]

/-- slot の数は、空の slot への HELLO でしか増えない。 -/
theorem sessionCount_apply_le {a : AttachArbiter} (h : a.Inv) {e : AttachEvent} {bound : Nat}
    (hb : a.sessionCount ≤ bound)
    (he : ∀ key, e = .helloReceived key → a.hasSession key.sessionId = true ∨ a.sessionCount < bound) :
    (a.apply e).1.sessionCount ≤ bound := by
  by_cases hv : ∃ key, e = .helloReceived key ∧ a.stateFor key.sessionId = none
  · obtain ⟨key, rfl, hv⟩ := hv
    have hlt : a.sessionCount < bound := by
      refine (he key rfl).resolve_left ?_
      rw [hasSession_iff]
      rintro ⟨st, hst⟩
      rw [hv] at hst; cases hst
    have hle : (a.apply (.helloReceived key)).1.sessionCount ≤ a.sessionCount + 1 := by
      simp only [apply, onHelloReceived, hv]
      exact Std.ExtTreeMap.size_insert_le
    exact hle.trans hlt
  · refine le_trans (size_le_of_subset _ _ ?_) hb
    intro id hid
    rw [mem_sessions_iff] at hid ⊢
    obtain ⟨st', hst'⟩ := hid
    cases hst : a.stateFor id with
    | some st => exact ⟨st, rfl⟩
    | none =>
        rcases apply_slot h e id with hs | ⟨-, hs⟩
        · rw [hst] at hs
          obtain ⟨key, rfl, rfl⟩ := hs.of_none
          exact absurd ⟨key, rfl, hst⟩ hv
        · rw [hs, hst] at hst'; cases hst'

theorem sessionCount_removeSlot {a : AttachArbiter} {id : SessionId} {st : AttachState}
    (hst : a.stateFor id = some st) : (a.removeSlot id).sessionCount + 1 = a.sessionCount := by
  have hmem : id ∈ a.sessions := (mem_sessions_iff a id).mpr ⟨st, hst⟩
  have hpos : 0 < a.sessions.size := by
    rw [Nat.pos_iff_ne_zero]
    intro hz
    rw [Std.ExtTreeMap.eq_empty_iff_size_eq_zero.mpr hz] at hmem
    exact absurd hmem Std.ExtTreeMap.not_mem_empty
  have herase : (a.sessions.erase id).size = a.sessions.size - 1 := by
    rw [Std.ExtTreeMap.size_erase, if_pos (Std.ExtTreeMap.mem_iff_contains.mp hmem)]
  simp only [sessionCount, removeSlot, herase]
  omega

end AttachArbiter

namespace ServeAggregate

/-! ## 表の更新と検索 -/

@[simp] theorem indexEntry_new (maxSessions : Nat) (id : SessionKey) :
    (new maxSessions).indexEntry id = none :=
  Std.ExtTreeMap.getElem?_empty

@[simp] theorem indexEntry_insertEntry (agg : ServeAggregate) (id id' : SessionKey) (entry : IndexEntry) :
    (agg.insertEntry id entry).indexEntry id' = if id' = id then some entry else agg.indexEntry id' :=
  getElem?_insert_eq agg.index id' id entry

@[simp] theorem indexEntry_removeEntry (agg : ServeAggregate) (id id' : SessionKey) :
    (agg.removeEntry id).indexEntry id' = if id' = id then none else agg.indexEntry id' :=
  getElem?_erase_eq agg.index id' id

@[simp] theorem arbiter_insertEntry (agg : ServeAggregate) (id : SessionKey) (entry : IndexEntry) :
    (agg.insertEntry id entry).arbiter = agg.arbiter := rfl

@[simp] theorem arbiter_removeEntry (agg : ServeAggregate) (id : SessionKey) :
    (agg.removeEntry id).arbiter = agg.arbiter := rfl

@[simp] theorem maxSessions_insertEntry (agg : ServeAggregate) (id : SessionKey) (entry : IndexEntry) :
    (agg.insertEntry id entry).maxSessions = agg.maxSessions := rfl

@[simp] theorem maxSessions_removeEntry (agg : ServeAggregate) (id : SessionKey) :
    (agg.removeEntry id).maxSessions = agg.maxSessions := rfl

def withArbiter (agg : ServeAggregate) (arbiter : AttachArbiter) : ServeAggregate := { agg with arbiter }

@[simp] theorem arbiter_withArbiter (agg : ServeAggregate) (a : AttachArbiter) :
    (agg.withArbiter a).arbiter = a := rfl

@[simp] theorem indexEntry_withArbiter (agg : ServeAggregate) (a : AttachArbiter) (id : SessionKey) :
    (agg.withArbiter a).indexEntry id = agg.indexEntry id := rfl

@[simp] theorem maxSessions_withArbiter (agg : ServeAggregate) (a : AttachArbiter) :
    (agg.withArbiter a).maxSessions = agg.maxSessions := rfl

theorem forward_eq (agg : ServeAggregate) (e : AttachEvent) :
    agg.forward e = (agg.withArbiter (agg.arbiter.apply e).1, (agg.arbiter.apply e).2.map .attach) := rfl

theorem mem_index_toList_iff (agg : ServeAggregate) (id : SessionKey) (entry : IndexEntry) :
    (id, entry) ∈ agg.index.toList ↔ agg.indexEntry id = some entry :=
  Std.ExtTreeMap.mem_toList_iff_getElem?_eq_some

/-! ## 不変条件 -/

/-- 索引の項目と `Established` の slot は同じ lease で一致し、resume できない項目は park されず、
slot の数は容量を超えない。 -/
structure Inv (agg : ServeAggregate) : Prop where
  arbiter : agg.arbiter.Inv
  coupled : ∀ id lease, (∃ entry, agg.indexEntry id = some entry ∧ entry.lease = lease) ↔
    ∃ key, agg.arbiter.stateFor id = some (.established key lease)
  parkable : ∀ id entry, agg.indexEntry id = some entry →
    ¬ (entry.unresumable = true ∧ entry.parkedSince.isSome = true)
  capacity : agg.arbiter.sessionCount ≤ agg.maxSessions

theorem Inv.new (maxSessions : Nat) : (new maxSessions).Inv where
  arbiter := AttachArbiter.Inv.new
  coupled := by
    intro id lease
    constructor
    · rintro ⟨entry, he, -⟩
      rw [indexEntry_new] at he; cases he
    · rintro ⟨key, hst⟩
      rw [show (ServeAggregate.new maxSessions).arbiter = .new from rfl, AttachArbiter.stateFor_new] at hst
      cases hst
  parkable := by simp
  capacity := Nat.zero_le _

theorem Inv.established {agg : ServeAggregate} (h : agg.Inv) {id : SessionKey} {entry : IndexEntry}
    (he : agg.indexEntry id = some entry) :
    ∃ key, agg.arbiter.stateFor id = some (.established key entry.lease) :=
  (h.coupled id entry.lease).mp ⟨entry, he, rfl⟩

/-! ## 索引の遷移 -/

def drop (agg : ServeAggregate) (id : SessionKey) : ServeAggregate :=
  (agg.withArbiter (agg.arbiter.removeSlot id)).removeEntry id

def register (agg : ServeAggregate) (key : AttachKey) (lease : LeaseId) (grace : Option UInt32) :
    ServeAggregate :=
  (agg.withArbiter (agg.arbiter.insertSlot key.sessionId (.established key lease))).insertEntry
    key.sessionId ⟨lease, none, grace, false⟩

end ServeAggregate

/-- `ServeAggregate::apply` を作る小さな遷移。ラベルは、その遷移が出す作用である。 -/
inductive IndexStep : ServeAggregate → List ServeEffect → ServeAggregate → Prop
  | attach {agg e} (ha : ∀ key token, e ≠ .activated key token) (hr : ∀ lease, e ≠ .relayEnded lease)
      (hc : ∀ key, e = .helloReceived key →
        agg.arbiter.hasSession key.sessionId = true ∨ agg.arbiter.sessionCount < agg.maxSessions) :
      IndexStep agg ((agg.arbiter.apply e).2.map .attach) (agg.withArbiter (agg.arbiter.apply e).1)
  | register {agg key lease token target grace}
      (hst : agg.arbiter.stateFor key.sessionId = some (.pendingActivation key lease token target)) :
      IndexStep agg [.registerIo key.sessionId lease false, .attach (.startRelay lease target)]
        (agg.register key lease grace)
  | discard {agg id entry cause} (he : agg.indexEntry id = some entry)
      (hc : cause = .expired ∨ cause = .evicted → entry.parkedSince.isSome = true) :
      IndexStep agg [.discard id entry.lease cause] (agg.drop id)
  | park {agg id entry now} (he : agg.indexEntry id = some entry) (hu : entry.unresumable = false) :
      IndexStep agg [.storeParked id entry.lease]
        (agg.insertEntry id { entry with parkedSince := some now })
  | markUnresumable {agg id entry} (he : agg.indexEntry id = some entry)
      (hp : entry.parkedSince = none) :
      IndexStep agg [] (agg.insertEntry id { entry with unresumable := true })
  | grant {agg id entry since} (he : agg.indexEntry id = some entry)
      (hp : entry.parkedSince = some since) :
      IndexStep agg [.resumeGranted id entry.lease] (agg.insertEntry id { entry with parkedSince := none })
  | preempt {agg id entry} (he : agg.indexEntry id = some entry) (hp : entry.parkedSince = none) :
      IndexStep agg [.requestPreempt id entry.lease] agg
  | rejectResume {agg id} : IndexStep agg [.resumeRejected id] agg
  | rejectBusy {agg key} : IndexStep agg [.attach (.sendReject key .busyOtherSession)] agg

namespace ServeAggregate

/-! ## 小さな遷移が保つこと -/

theorem Inv.insertEntry {agg : ServeAggregate} (h : agg.Inv) {id : SessionKey}
    {entry entry' : IndexEntry} (he : agg.indexEntry id = some entry) (hl : entry'.lease = entry.lease)
    (hp : ¬ (entry'.unresumable = true ∧ entry'.parkedSince.isSome = true)) :
    (agg.insertEntry id entry').Inv where
  arbiter := h.arbiter
  coupled := by
    intro id' lease
    rw [indexEntry_insertEntry, arbiter_insertEntry, ← h.coupled id' lease]
    by_cases hid : id' = id
    · subst hid; simp [he, hl]
    · rw [if_neg hid]
  parkable := by
    intro id' e he'
    rw [indexEntry_insertEntry] at he'
    by_cases hid : id' = id
    · rw [if_pos hid] at he'
      obtain rfl := Option.some.inj he'
      exact hp
    · rw [if_neg hid] at he'
      exact h.parkable id' e he'
  capacity := h.capacity

theorem Inv.drop {agg : ServeAggregate} (h : agg.Inv) {id : SessionKey} {entry : IndexEntry}
    (he : agg.indexEntry id = some entry) : (agg.drop id).Inv := by
  obtain ⟨key, hst⟩ := h.established he
  have happly := AttachArbiter.apply_relayEnded h.arbiter hst
  constructor
  · have := h.arbiter.apply (.relayEnded entry.lease)
    rw [happly] at this
    exact this
  · intro id' lease
    by_cases hid : id' = id
    · simp [ServeAggregate.drop, hid]
    · simpa [ServeAggregate.drop, hid] using h.coupled id' lease
  · intro id' e he'
    by_cases hid : id' = id
    · simp [ServeAggregate.drop, hid] at he'
    · exact h.parkable id' e (by simpa [ServeAggregate.drop, hid] using he')
  · have := AttachArbiter.sessionCount_removeSlot hst
    have := h.capacity
    simp only [ServeAggregate.drop, arbiter_removeEntry, arbiter_withArbiter, maxSessions_removeEntry,
      maxSessions_withArbiter]
    omega

theorem Inv.register {agg : ServeAggregate} (h : agg.Inv) {key : AttachKey} {lease : LeaseId}
    {token : AttachToken} {target : TargetHandleId}
    (hst : agg.arbiter.stateFor key.sessionId = some (.pendingActivation key lease token target))
    (grace : Option UInt32) : (agg.register key lease grace).Inv := by
  have hslot : AttachArbiter.StepsAt agg.arbiter (.activated key token)
      (agg.arbiter.insertSlot key.sessionId (.established key lease), [.startRelay lease target])
      key.sessionId := .inserted (by rw [hst]; exact .activate rfl)
  constructor
  · exact h.arbiter.of_stepsAt hslot
  · intro id' l
    by_cases hid : id' = key.sessionId
    · simp [ServeAggregate.register, hid]
    · simpa [ServeAggregate.register, hid] using h.coupled id' l
  · intro id' e he'
    by_cases hid : id' = key.sessionId
    · simp only [ServeAggregate.register, indexEntry_insertEntry, if_pos hid, Option.some.injEq] at he'
      simp [← he']
    · exact h.parkable id' e (by simpa [ServeAggregate.register, hid] using he')
  · -- slot を置き換えるだけなので、slot の数は変わらない。
    have hmem := (AttachArbiter.mem_sessions_iff agg.arbiter key.sessionId).mpr ⟨_, hst⟩
    have hsize : (agg.arbiter.sessions.insert key.sessionId (.established key lease)).size =
        agg.arbiter.sessions.size := by
      rw [Std.ExtTreeMap.size_insert, if_pos (Std.ExtTreeMap.mem_iff_contains.mp hmem)]
    exact hsize.trans_le h.capacity

theorem Inv.attach {agg : ServeAggregate} (h : agg.Inv) {e : AttachEvent}
    (ha : ∀ key token, e ≠ .activated key token) (hr : ∀ lease, e ≠ .relayEnded lease)
    (hc : ∀ key, e = .helloReceived key →
      agg.arbiter.hasSession key.sessionId = true ∨ agg.arbiter.sessionCount < agg.maxSessions) :
    (agg.withArbiter (agg.arbiter.apply e).1).Inv where
  arbiter := h.arbiter.apply e
  coupled := by
    intro id lease
    simp only [indexEntry_withArbiter, arbiter_withArbiter, h.coupled id lease,
      AttachArbiter.apply_established_iff h.arbiter ha hr]
  parkable := h.parkable
  capacity := AttachArbiter.sessionCount_apply_le h.arbiter h.capacity hc

theorem Inv.indexStep {agg agg' : ServeAggregate} {effs : List ServeEffect} (h : agg.Inv)
    (hs : IndexStep agg effs agg') : agg'.Inv := by
  cases hs with
  | attach ha hr hc => exact h.attach ha hr hc
  | register hst => exact h.register hst _
  | discard he => exact h.drop he
  | park he hu => exact h.insertEntry he rfl (by simp [hu])
  | markUnresumable he hp => exact h.insertEntry he rfl (by simp [hp])
  | grant he => exact h.insertEntry he rfl (by simp)
  | preempt | rejectResume | rejectBusy => exact h

/-! ## `apply` の分解 -/

theorem discard_eq {agg : ServeAggregate} (h : agg.Inv) {id : SessionKey} {entry : IndexEntry}
    (he : agg.indexEntry id = some entry) (cause : DiscardCause) :
    agg.discard id cause = (agg.drop id, [.discard id entry.lease cause]) := by
  obtain ⟨key, hst⟩ := h.established he
  simp only [discard, he, forward_eq, arbiter_removeEntry,
    AttachArbiter.apply_relayEnded h.arbiter hst, List.map_nil]
  rfl

theorem minBy?_mem {α : Type} {lt : α → α → Bool} {as : List α} {a : α} (h : minBy? lt as = some a) :
    a ∈ as := by
  induction as generalizing a with
  | nil => cases h
  | cons b as ih =>
      simp only [minBy?] at h
      cases hm : minBy? lt as with
      | none => rw [hm] at h; cases h; exact List.mem_cons_self
      | some c =>
          simp only [hm] at h
          split at h
          · cases h; exact List.mem_cons_of_mem _ (ih hm)
          · cases h; exact List.mem_cons_self

theorem oldestParked_parked {agg : ServeAggregate} {victim : SessionKey}
    (h : agg.oldestParked = some victim) :
    ∃ entry, agg.indexEntry victim = some entry ∧ entry.parkedSince.isSome = true := by
  obtain ⟨⟨since, id⟩, hmin, rfl⟩ := Option.map_eq_some_iff.mp h
  obtain ⟨⟨id', entry⟩, hmem, hsome⟩ := List.mem_filterMap.mp (minBy?_mem hmin)
  obtain ⟨since', hp, heq⟩ := Option.map_eq_some_iff.mp hsome
  obtain ⟨rfl, rfl⟩ := Prod.mk.inj heq
  exact ⟨entry, (mem_index_toList_iff agg _ _).mp hmem, by simp [show entry.parkedSince = _ from hp]⟩

/-- `apply` の結果 `r` は、小さな遷移の列である。 -/
def Decomposes (agg : ServeAggregate) (r : ServeAggregate × List ServeEffect) : Prop :=
  ∃ effss, Run IndexStep agg effss r.1 ∧ effss.flatten = r.2

theorem Decomposes.refl (agg : ServeAggregate) : Decomposes agg (agg, []) := ⟨[], .nil _, rfl⟩

theorem Decomposes.single {agg agg' : ServeAggregate} {effs : List ServeEffect}
    (h : IndexStep agg effs agg') : Decomposes agg (agg', effs) :=
  ⟨[effs], .single h, by simp⟩

theorem Decomposes.trans {agg : ServeAggregate} {r r' : ServeAggregate × List ServeEffect}
    (h : Decomposes agg r) (h' : Decomposes r.1 r') : Decomposes agg (r'.1, r.2 ++ r'.2) := by
  obtain ⟨as, hrun, has⟩ := h
  obtain ⟨bs, hrun', hbs⟩ := h'
  exact ⟨as ++ bs, hrun.append hrun', by rw [List.flatten_append, has, hbs]⟩

theorem Decomposes.inv {agg : ServeAggregate} {r : ServeAggregate × List ServeEffect} (h : agg.Inv)
    (hd : Decomposes agg r) : r.1.Inv := by
  obtain ⟨as, hrun, -⟩ := hd
  exact hrun.invariant (fun _ _ _ hI hs => hI.indexStep hs) h

theorem forward_decomposes {agg : ServeAggregate} {e : AttachEvent}
    (ha : ∀ key token, e ≠ .activated key token) (hr : ∀ lease, e ≠ .relayEnded lease)
    (hc : ∀ key, e = .helloReceived key →
      agg.arbiter.hasSession key.sessionId = true ∨ agg.arbiter.sessionCount < agg.maxSessions) :
    Decomposes agg (agg.forward e) :=
  .single (.attach ha hr hc)

theorem discard_decomposes {agg : ServeAggregate} (h : agg.Inv) {id : SessionKey} {entry : IndexEntry}
    (he : agg.indexEntry id = some entry) {cause : DiscardCause}
    (hc : cause = .expired ∨ cause = .evicted → entry.parkedSince.isSome = true) :
    Decomposes agg (agg.discard id cause) := by
  rw [discard_eq h he]
  exact .single (.discard he hc)

/-! ### 承認 -/

/-- 承認待ちの session が 1 つあれば、索引の項目の数は容量に届かない。 -/
theorem Inv.index_size_lt {agg : ServeAggregate} (h : agg.Inv) {id : SessionId} {st : AttachState}
    (hst : agg.arbiter.stateFor id = some st) (hn : ∀ key lease, st ≠ .established key lease) :
    agg.index.size < agg.maxSessions := by
  have hsub : agg.index.size ≤ (agg.arbiter.removeSlot id).sessionCount := by
    refine size_le_of_subset _ _ ?_
    intro id' hid'
    rw [AttachArbiter.mem_sessions_iff, AttachArbiter.stateFor_removeSlot]
    cases he : agg.indexEntry id' with
    | none =>
        rw [Std.ExtTreeMap.mem_iff_isSome_getElem?] at hid'
        rw [indexEntry] at he
        simp [he] at hid'
    | some entry =>
        obtain ⟨key, hst'⟩ := h.established he
        have hne : id' ≠ id := by
          rintro rfl
          exact hn key entry.lease (Option.some.inj (hst.symm.trans hst'))
        exact ⟨_, by rw [if_neg hne, hst']⟩
  have hcount := AttachArbiter.sessionCount_removeSlot hst
  have hcap := h.capacity
  omega

/-- 承認は、何も起こさないか、承認待ちを登録する。容量を超える分岐には到達しない。 -/
theorem onActivated_cases {agg : ServeAggregate} (h : agg.Inv) (key : AttachKey) (token : AttachToken)
    (grace : Option UInt32) :
    agg.onActivated key token grace = (agg, []) ∨
      ∃ lease target,
        agg.arbiter.stateFor key.sessionId = some (.pendingActivation key lease token target) ∧
        agg.onActivated key token grace = (agg.register key lease grace,
          [.registerIo key.sessionId lease false, .attach (.startRelay lease target)]) := by
  cases AttachArbiter.apply_decomposes h.arbiter (.activated key token) with
  | ignored _ hr =>
      refine Or.inl ?_
      simp only [onActivated, hr]
      cases agg.establishedLease key.sessionId <;> rfl
  | acts id hs =>
      obtain ⟨lease, target, hst, -⟩ := hs.slot.activated
      obtain rfl : key.sessionId = id := h.arbiter.keyed _ _ hst
      refine Or.inr ⟨lease, target, hst, ?_⟩
      have happly := AttachArbiter.apply_activated hst
      have hbefore : agg.establishedLease key.sessionId = none := by simp [establishedLease, hst]
      have hafter : (agg.withArbiter (agg.arbiter.insertSlot key.sessionId
          (.established key lease))).establishedLease key.sessionId = some lease := by
        simp [establishedLease]
      have hlive : (agg.index.toList.filter fun p => !p.2.unresumable).length < agg.maxSessions := by
        refine lt_of_le_of_lt (List.length_filter_le _ _) ?_
        rw [Std.ExtTreeMap.length_toList]
        exact h.index_size_lt hst (by simp)
      rw [withArbiter] at hafter
      simp only [onActivated, happly, hbefore, hafter, Option.isSome_none, ge_iff_le,
        not_le.mpr hlive, false_and, if_false, List.nil_append, List.map_cons, List.map_nil,
        List.singleton_append]
      rfl

/-! ### sweep -/

/-- park された session を順に除く列は、項目の残っているものだけを除く。 -/
theorem sweep_decomposes {agg : ServeAggregate} (h : agg.Inv) {ids : List SessionKey}
    (hids : ∀ id ∈ ids, ∀ entry, agg.indexEntry id = some entry → entry.parkedSince.isSome = true) :
    Decomposes agg
      (Reducer.run (fun (agg : ServeAggregate) id => agg.discard id .expired) agg ids,
        Reducer.outputs (fun (agg : ServeAggregate) id => agg.discard id .expired) agg ids) := by
  induction ids generalizing agg with
  | nil => exact .refl agg
  | cons id ids ih =>
      cases he : agg.indexEntry id with
      | none =>
          have hd : agg.discard id .expired = (agg, []) := by simp [discard, he]
          rw [Reducer.run_cons, Reducer.outputs_cons, hd]
          exact ih h fun id' hid' => hids id' (List.mem_cons_of_mem _ hid')
      | some entry =>
          have hd := discard_eq h he .expired
          have hdec : Decomposes agg (agg.discard id .expired) :=
            discard_decomposes h he fun _ => hids id List.mem_cons_self entry he
          refine hdec.trans (ih (hdec.inv h) ?_)
          intro id' hid' entry' he'
          refine hids id' (List.mem_cons_of_mem _ hid') entry' ?_
          rw [hd, drop, indexEntry_removeEntry] at he'
          by_cases heq : id' = id
          · rw [if_pos heq] at he'; cases he'
          · rwa [if_neg heq] at he'

theorem expired_parked {agg : ServeAggregate} {now : Millis} {maxParked : Duration} {id : SessionKey}
    (h : id ∈ agg.expired now maxParked) (entry : IndexEntry) (he : agg.indexEntry id = some entry) :
    entry.parkedSince.isSome = true := by
  obtain ⟨⟨id', entry'⟩, hmem, hsome⟩ := List.mem_filterMap.mp h
  obtain ⟨since, hp, heq⟩ := Option.bind_eq_some_iff.mp hsome
  split at heq
  · obtain rfl := Option.some.inj heq
    rw [mem_index_toList_iff, he] at hmem
    obtain rfl := Option.some.inj hmem
    simp [show entry.parkedSince = some since from hp]
  · cases heq

/-! ### すべてのイベント -/

theorem onAdmitRequested_decomposes {agg : ServeAggregate} (h : agg.Inv) (key : AttachKey) :
    Decomposes agg (agg.onAdmitRequested key) := by
  unfold onAdmitRequested
  by_cases hfull : agg.arbiter.hasSession key.sessionId = false ∧ agg.arbiter.sessionCount ≥ agg.maxSessions
  · rw [if_pos hfull]
    cases hv : agg.oldestParked with
    | none => exact .single .rejectBusy
    | some victim =>
        obtain ⟨entry, he, hp⟩ := oldestParked_parked hv
        obtain ⟨key', hst⟩ := h.established he
        -- 満杯の slot を 1 つ空けたので、容量に余裕がある。
        have hroom : (agg.drop victim).arbiter.sessionCount < (agg.drop victim).maxSessions := by
          have := AttachArbiter.sessionCount_removeSlot hst
          have := h.capacity
          simp only [drop, arbiter_removeEntry, arbiter_withArbiter, maxSessions_removeEntry,
            maxSessions_withArbiter]
          omega
        have hd := discard_eq h he .evicted
        refine (discard_decomposes h he fun _ => hp).trans (forward_decomposes (by simp) (by simp) ?_)
        rintro key' -
        rw [hd]
        exact Or.inr hroom
  · rw [if_neg hfull]
    refine forward_decomposes (by simp) (by simp) ?_
    rintro key' ⟨⟩
    rw [not_and_or, Bool.not_eq_false, not_le] at hfull
    exact hfull

theorem forward_of_not_concerns {agg : ServeAggregate} (h : agg.Inv) {e : AttachEvent}
    (hn : ∀ id, ¬ e.Concerns id (agg.arbiter.stateFor id)) : agg.forward e = (agg, []) := by
  rw [forward_eq, AttachArbiter.apply_of_not_concerns h.arbiter hn]
  rfl

theorem onRelayEnded_cases {agg : ServeAggregate} (h : agg.Inv) (lease : LeaseId) :
    (∃ id entry, agg.indexEntry id = some entry ∧ entry.lease = lease ∧
      agg.onRelayEnded lease = agg.discard id .tcpDied) ∨
    ((∀ id entry, agg.indexEntry id = some entry → entry.lease ≠ lease) ∧
      agg.onRelayEnded lease = (agg, [])) := by
  unfold onRelayEnded
  cases hf : agg.index.toList.find? (fun p => p.2.lease == lease) with
  | some p =>
      have he := (mem_index_toList_iff agg p.1 p.2).mp (List.mem_of_find?_eq_some hf)
      exact Or.inl ⟨p.1, p.2, he, by simpa using List.find?_some hf, rfl⟩
  | none =>
      have hnone : ∀ id entry, agg.indexEntry id = some entry → entry.lease ≠ lease := by
        intro id entry he
        have := List.find?_eq_none.mp hf (id, entry) ((mem_index_toList_iff agg id entry).mpr he)
        simpa using this
      refine Or.inr ⟨hnone, forward_of_not_concerns h ?_⟩
      rintro id ⟨key, hst⟩
      obtain ⟨entry, he, hl⟩ := (h.coupled id lease).mpr ⟨key, hst⟩
      exact hnone id entry he hl

theorem onRelayEnded_decomposes {agg : ServeAggregate} (h : agg.Inv) (lease : LeaseId) :
    Decomposes agg (agg.onRelayEnded lease) := by
  rcases onRelayEnded_cases h lease with ⟨id, entry, he, -, heq⟩ | ⟨-, heq⟩ <;> rw [heq]
  · exact discard_decomposes h he (by simp)
  · exact .refl agg

theorem onParked_decomposes {agg : ServeAggregate} (h : agg.Inv) (id : SessionKey) (lease : LeaseId)
    (now : Millis) : Decomposes agg (agg.onParked id lease now) := by
  unfold onParked
  cases he : agg.indexEntry id with
  | none => exact .refl agg
  | some entry =>
      simp only
      by_cases hl : entry.lease ≠ lease
      · rw [if_pos hl]; exact .refl agg
      rw [if_neg hl]
      obtain rfl := not_not.mp hl
      by_cases hu : entry.unresumable = true
      · rw [if_pos hu]; exact discard_decomposes h he (by simp)
      · rw [if_neg hu]; exact .single (.park he (Bool.not_eq_true _ ▸ hu))

theorem onResumeUnavailable_decomposes (agg : ServeAggregate) (id : SessionKey) (lease : LeaseId) :
    Decomposes agg (agg.onResumeUnavailable id lease) := by
  unfold onResumeUnavailable
  cases he : agg.indexEntry id with
  | none => exact .refl agg
  | some entry =>
      simp only
      by_cases hl : entry.lease = lease ∧ entry.parkedSince.isNone = true
      · rw [if_pos hl]; exact .single (.markUnresumable he (Option.isNone_iff_eq_none.mp hl.2))
      · rw [if_neg hl]; exact .refl agg

theorem onRelayTerminated_decomposes {agg : ServeAggregate} (h : agg.Inv) (id : SessionKey)
    (lease : LeaseId) (reason : TerminateReason) :
    Decomposes agg (agg.onRelayTerminated id lease reason) := by
  unfold onRelayTerminated
  by_cases hl : (agg.indexEntry id).map (·.lease) ≠ some lease
  · rw [if_pos hl]; exact .refl agg
  · rw [if_neg hl]
    obtain ⟨entry, he, -⟩ := Option.map_eq_some_iff.mp (not_not.mp hl)
    cases reason <;> exact discard_decomposes h he (by simp)

theorem onResumeRequested_decomposes (agg : ServeAggregate) (id : SessionKey) :
    Decomposes agg (agg.onResumeRequested id) := by
  unfold onResumeRequested
  cases he : agg.indexEntry id with
  | none => exact .single .rejectResume
  | some entry =>
      simp only
      by_cases hu : entry.unresumable = true ∨ agg.establishedLease id ≠ some entry.lease
      · rw [if_pos hu]; exact .single .rejectResume
      · rw [if_neg hu]
        cases hp : entry.parkedSince with
        | some since => exact .single (.grant he hp)
        | none => exact .single (.preempt he hp)

theorem apply_decomposes {agg : ServeAggregate} (h : agg.Inv) (e : ServeEvent) :
    Decomposes agg (agg.apply e) := by
  cases e with
  | admitRequested key => exact onAdmitRequested_decomposes h key
  | targetConnected | targetConnectFailed | cancelReceived | leaseStopped | pendingExpired =>
      exact forward_decomposes (by simp) (by simp) (by simp)
  | activated key token grace =>
      rcases onActivated_cases h key token grace with heq | ⟨lease, target, hst, heq⟩ <;>
        simp only [apply, heq]
      · exact .refl agg
      · exact .single (.register hst)
  | relayEnded lease => exact onRelayEnded_decomposes h lease
  | parked id lease now => exact onParked_decomposes h id lease now
  | relayTerminated id lease reason => exact onRelayTerminated_decomposes h id lease reason
  | resumeUnavailable id lease => exact onResumeUnavailable_decomposes agg id lease
  | sweep now maxParked =>
      exact sweep_decomposes h fun id hid entry he => expired_parked hid entry he
  | resumeRequested id => exact onResumeRequested_decomposes agg id

theorem Inv.apply {agg : ServeAggregate} (h : agg.Inv) (e : ServeEvent) : (agg.apply e).1.Inv :=
  (apply_decomposes h e).inv h

theorem Inv.after (maxSessions : Nat) (es : List ServeEvent) : (after maxSessions es).Inv :=
  Reducer.run_invariant (fun _ e h => h.apply e) (Inv.new maxSessions) es

end ServeAggregate

end IsekaiTerminal.Serve
