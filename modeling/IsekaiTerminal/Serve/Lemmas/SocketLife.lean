import IsekaiTerminal.Serve.SocketLife
import IsekaiTerminal.Serve.Lemmas.Aggregate
import IsekaiTerminal.Serve.Runtime

/-!
# lease の引退と、ソケットの規約への模倣

lease は slot を離れると二度と使われない（`Retired`）。この事実と索引の遷移から、
どの lease についても、`ServeAggregate` が出す作用の列を規約 `SocketPhase.step` が受理することを示す。
-/

namespace IsekaiTerminal.Serve

open Protocol Lib

/-! ## lease の引退 -/

namespace AttachArbiter

/-- `lease` は割り当て済みで、どの slot にも無い。 -/
def Retired (a : AttachArbiter) (lease : LeaseId) : Prop :=
  lease.raw < a.nextLease ∧ ∀ id st, a.stateFor id = some st → st.lease ≠ lease

/-- `lease` は割り当て済みで、session `id` 以外の slot には無い。 -/
def Confined (a : AttachArbiter) (id : SessionId) (lease : LeaseId) : Prop :=
  lease.raw < a.nextLease ∧ ∀ id' st, a.stateFor id' = some st → st.lease = lease → id' = id

/-- `a'` の slot の lease は、`a` の同じ slot の lease であるか、`a` ではまだ割り当てられていない。 -/
structure LeasesFrom (a a' : AttachArbiter) : Prop where
  next : a.nextLease ≤ a'.nextLease
  slot : ∀ id st', a'.stateFor id = some st' →
    (∃ st, a.stateFor id = some st ∧ st'.lease = st.lease) ∨ a.nextLease ≤ st'.lease.raw

theorem LeasesFrom.refl (a : AttachArbiter) : LeasesFrom a a :=
  ⟨le_rfl, fun _ st hst => Or.inl ⟨st, hst, rfl⟩⟩

theorem LeasesFrom.apply {a : AttachArbiter} (h : a.Inv) (e : AttachEvent) :
    LeasesFrom a (a.apply e).1 := by
  refine ⟨nextLease_le_apply h e, ?_⟩
  intro id st' hst'
  rcases apply_slot h e id with hs | ⟨-, hs⟩
  · rcases hs.lease_of_next hst' with hsame | ⟨hl, -⟩
    · exact Or.inl hsame
    · exact Or.inr (by rw [hl])
  · exact Or.inl ⟨st', hs.symm.trans hst', rfl⟩

theorem LeasesFrom.insertSlot {a : AttachArbiter} {id : SessionId} {st st' : AttachState}
    (hst : a.stateFor id = some st) (hl : st'.lease = st.lease) : LeasesFrom a (a.insertSlot id st') := by
  refine ⟨le_rfl, ?_⟩
  intro id' t ht
  rw [stateFor_insertSlot] at ht
  split at ht
  · rename_i heq
    obtain rfl := Option.some.inj ht
    exact Or.inl ⟨st, heq ▸ hst, hl⟩
  · exact Or.inl ⟨t, ht, rfl⟩

theorem LeasesFrom.removeSlot (a : AttachArbiter) (id : SessionId) : LeasesFrom a (a.removeSlot id) := by
  refine ⟨le_rfl, ?_⟩
  intro id' t ht
  rw [stateFor_removeSlot] at ht
  split at ht
  · cases ht
  · exact Or.inl ⟨t, ht, rfl⟩

theorem Retired.of_leasesFrom {a a' : AttachArbiter} {lease : LeaseId} (h : a.Retired lease)
    (hf : LeasesFrom a a') : a'.Retired lease := by
  refine ⟨lt_of_lt_of_le h.1 hf.next, ?_⟩
  rintro id st' hst' rfl
  rcases hf.slot id st' hst' with ⟨st, hst, hl⟩ | hle
  · exact h.2 id st hst hl.symm
  · exact absurd h.1 (not_lt.mpr hle)

theorem Confined.of_leasesFrom {a a' : AttachArbiter} {id : SessionId} {lease : LeaseId}
    (h : a.Confined id lease) (hf : LeasesFrom a a') : a'.Confined id lease := by
  refine ⟨lt_of_lt_of_le h.1 hf.next, ?_⟩
  rintro id' st' hst' rfl
  rcases hf.slot id' st' hst' with ⟨st, hst, hl⟩ | hle
  · exact h.2 id' st hst hl.symm
  · exact absurd h.1 (not_lt.mpr hle)

theorem Confined.retired {a : AttachArbiter} {id : SessionId} {lease : LeaseId} (h : a.Confined id lease)
    (hn : ∀ st, a.stateFor id = some st → st.lease ≠ lease) : a.Retired lease := by
  refine ⟨h.1, ?_⟩
  intro id' st hst hl
  obtain rfl := h.2 id' st hst hl
  exact hn st hst hl

theorem Inv.confined {a : AttachArbiter} (h : a.Inv) {id : SessionId} {st : AttachState}
    (hst : a.stateFor id = some st) : a.Confined id st.lease :=
  ⟨h.fresh id st hst, fun id' _ hst' hl => h.unique id' id _ st hst' hst hl⟩

end AttachArbiter

namespace ServeAggregate

theorem IndexStep.leasesFrom {agg agg' : ServeAggregate} {effs : List ServeEffect} (h : agg.Inv)
    (hs : IndexStep agg effs agg') : AttachArbiter.LeasesFrom agg.arbiter agg'.arbiter := by
  cases hs with
  | attach => exact .apply h.arbiter _
  | register hst => exact .insertSlot hst rfl
  | discard => exact .removeSlot _ _
  | park | markUnresumable | grant | preempt | rejectResume | rejectBusy => exact .refl _

theorem run_invariant_of_indexStep {P : ServeAggregate → Prop}
    (hP : ∀ agg effs agg', agg.Inv → P agg → IndexStep agg effs agg' → P agg') {agg : ServeAggregate}
    (h : agg.Inv) (hp : P agg) (es : List ServeEvent) : P (Reducer.run ServeAggregate.apply agg es) := by
  refine (Reducer.run_invariant (I := fun agg : ServeAggregate => agg.Inv ∧ P agg) ?_ ⟨h, hp⟩ es).2
  rintro agg e ⟨h, hp⟩
  obtain ⟨as, hrun, -⟩ := apply_decomposes h e
  refine Run.invariant (I := fun agg : ServeAggregate => agg.Inv ∧ P agg) ?_ hrun ⟨h, hp⟩
  rintro agg effs agg' ⟨h, hp⟩ hs
  exact ⟨h.indexStep hs, hP agg effs agg' h hp hs⟩

theorem retired_run {agg : ServeAggregate} (h : agg.Inv) {lease : LeaseId}
    (hr : agg.arbiter.Retired lease) (es : List ServeEvent) :
    (Reducer.run ServeAggregate.apply agg es).arbiter.Retired lease :=
  run_invariant_of_indexStep (P := fun agg => agg.arbiter.Retired lease)
    (fun _ _ _ h hr hs => hr.of_leasesFrom (IndexStep.leasesFrom h hs)) h hr es

theorem confined_run {agg : ServeAggregate} (h : agg.Inv) {id : SessionId} {lease : LeaseId}
    (hc : agg.arbiter.Confined id lease) (es : List ServeEvent) :
    (Reducer.run ServeAggregate.apply agg es).arbiter.Confined id lease :=
  run_invariant_of_indexStep (P := fun agg => agg.arbiter.Confined id lease)
    (fun _ _ _ h hc hs => hc.of_leasesFrom (IndexStep.leasesFrom h hs)) h hc es

theorem maxSessions_run {agg : ServeAggregate} (h : agg.Inv) (es : List ServeEvent) :
    (Reducer.run ServeAggregate.apply agg es).maxSessions = agg.maxSessions :=
  run_invariant_of_indexStep (P := fun agg' => agg'.maxSessions = agg.maxSessions)
    (fun _ _ _ _ hm hs => by cases hs <;> exact hm) h rfl es

/-! ## 古い事実 -/

/-- 現在の lease を運ばない事実は、作用を出さず、何も変えない。 -/
theorem apply_of_not_current {agg : ServeAggregate} (h : agg.Inv) {e : ServeEvent}
    (hn : ¬ agg.Current e) : agg.apply e = (agg, []) := by
  cases e with
  | targetConnected | targetConnectFailed | leaseStopped =>
      simp only [apply]
      refine forward_of_not_concerns h ?_
      rintro id ⟨key, hst⟩
      exact hn ⟨id, key, hst⟩
  | pendingExpired lease =>
      simp only [apply]
      refine forward_of_not_concerns h ?_
      rintro id ⟨key, token, target, hst⟩
      exact hn ⟨id, key, token, target, hst⟩
  | relayEnded lease =>
      rcases onRelayEnded_cases h lease with ⟨id, entry, he, rfl, -⟩ | ⟨-, heq⟩
      · obtain ⟨key, hst⟩ := h.established he
        exact absurd ⟨id, key, hst⟩ hn
      · exact heq
  | parked id lease now =>
      simp only [apply, onParked]
      cases he : agg.indexEntry id with
      | none => rfl
      | some entry =>
          have hl : entry.lease ≠ lease := fun hl => hn ⟨entry, he, hl⟩
          simp only [ne_eq, hl, not_false_eq_true, if_true]
  | relayTerminated id lease reason =>
      have hl : (agg.indexEntry id).map (·.lease) ≠ some lease := by
        intro hl
        obtain ⟨entry, he, hl⟩ := Option.map_eq_some_iff.mp hl
        exact hn ⟨entry, he, hl⟩
      simp only [apply, onRelayTerminated, ne_eq, hl, not_false_eq_true, if_true]
  | resumeUnavailable id lease =>
      simp only [apply, onResumeUnavailable]
      cases he : agg.indexEntry id with
      | none => rfl
      | some entry =>
          have hl : entry.lease ≠ lease := fun hl => hn ⟨entry, he, hl⟩
          simp only [hl, false_and, if_false]
  | admitRequested | cancelReceived | activated | sweep | resumeRequested => exact absurd trivial hn

theorem not_current_of_retired {agg : ServeAggregate} (h : agg.Inv) {lease : LeaseId}
    (hr : agg.arbiter.Retired lease) {e : ServeEvent} (he : e.lease? = some lease) :
    ¬ agg.Current e := by
  have hentry : ∀ id, ¬ ∃ entry, agg.indexEntry id = some entry ∧ entry.lease = lease := by
    rintro id ⟨entry, hen, rfl⟩
    obtain ⟨key, hst⟩ := h.established hen
    exact hr.2 id _ hst rfl
  cases e with
  | targetConnected | targetConnectFailed | leaseStopped | relayEnded =>
      obtain rfl := Option.some.inj he
      rintro ⟨id, key, hst⟩
      exact hr.2 id _ hst rfl
  | pendingExpired =>
      obtain rfl := Option.some.inj he
      rintro ⟨id, key, token, target, hst⟩
      exact hr.2 id _ hst rfl
  | parked id | relayTerminated id | resumeUnavailable id =>
      obtain rfl := Option.some.inj he
      exact hentry id
  | admitRequested | cancelReceived | activated | sweep | resumeRequested => cases he

/-- slot を離れた lease は、その後のどの時点でも引退している。 -/
theorem retired_of_left {maxSessions : Nat} {pre mid post : List ServeEvent} {id : SessionId}
    {st : AttachState} (hst : (after maxSessions pre).arbiter.stateFor id = some st)
    (hleft : ∀ st', (after maxSessions (pre ++ mid)).arbiter.stateFor id = some st' → st'.lease ≠ st.lease) :
    (after maxSessions (pre ++ mid ++ post)).arbiter.Retired st.lease := by
  have hpre := Inv.after maxSessions pre
  have hconf := confined_run hpre (hpre.arbiter.confined hst) mid
  rw [← Reducer.run_append] at hconf
  have hret := retired_run (Inv.after maxSessions (pre ++ mid)) (hconf.retired hleft) post
  rwa [← Reducer.run_append] at hret

/-! ## ソケットの規約 -/

theorem Inv.entry_unique {agg : ServeAggregate} (h : agg.Inv) {id id' : SessionKey}
    {entry entry' : IndexEntry} (he : agg.indexEntry id = some entry)
    (he' : agg.indexEntry id' = some entry') (hl : entry.lease = entry'.lease) :
    id = id' ∧ entry = entry' := by
  obtain ⟨key, hst⟩ := h.established he
  obtain ⟨key', hst'⟩ := h.established he'
  obtain rfl := h.arbiter.unique id id' _ _ hst hst' hl
  exact ⟨rfl, Option.some.inj (he.symm.trans he')⟩

theorem Inv.not_indexed {agg : ServeAggregate} (h : agg.Inv) {id : SessionId} {st : AttachState}
    (hst : agg.arbiter.stateFor id = some st) (hn : ∀ key lease, st ≠ .established key lease)
    (id' : SessionKey) (entry : IndexEntry) (he : agg.indexEntry id' = some entry) :
    entry.lease ≠ st.lease ∧ id' ≠ id := by
  obtain ⟨key, hst'⟩ := h.established he
  have hid : id' ≠ id := by
    rintro rfl
    exact hn key entry.lease (Option.some.inj (hst.symm.trans hst'))
  exact ⟨fun hl => hid (h.arbiter.unique id' id _ _ hst' hst hl), hid⟩

/-- `lease` のソケットの状態を、索引と slot から読み取る。 -/
def SocketIn (agg : ServeAggregate) (lease : LeaseId) : SocketPhase → Prop
  | .unregistered => ∀ id entry, agg.indexEntry id = some entry → entry.lease ≠ lease
  | .active => ∃ id entry, agg.indexEntry id = some entry ∧ entry.lease = lease ∧ entry.parkedSince = none
  | .parked => ∃ id entry, agg.indexEntry id = some entry ∧ entry.lease = lease ∧
      entry.parkedSince.isSome = true
  | .discarded => agg.arbiter.Retired lease

variable {agg agg' : ServeAggregate} {lease : LeaseId} {x : SocketPhase}

/-- `lease` の項目を変えない遷移は、そのソケットの状態を変えない。 -/
theorem SocketIn.frame (hx : agg.SocketIn lease x)
    (hidx : ∀ id entry, entry.lease = lease →
      (agg'.indexEntry id = some entry ↔ agg.indexEntry id = some entry))
    (hf : AttachArbiter.LeasesFrom agg.arbiter agg'.arbiter) : agg'.SocketIn lease x := by
  cases x with
  | unregistered =>
      intro id entry he hl
      exact hx id entry ((hidx id entry hl).mp he) hl
  | active | parked =>
      obtain ⟨id, entry, he, hl, hp⟩ := hx
      exact ⟨id, entry, (hidx id entry hl).mpr he, hl, hp⟩
  | discarded => exact hx.of_leasesFrom hf

/-- 項目のあるソケットは、中継中か park のいずれかであり、項目の `parkedSince` がそれを表す。 -/
theorem SocketIn.of_entry (h : agg.Inv) (hx : agg.SocketIn lease x) {id : SessionKey} {entry : IndexEntry}
    (he : agg.indexEntry id = some entry) (hl : entry.lease = lease) :
    (x = .active ∧ entry.parkedSince = none) ∨ (x = .parked ∧ entry.parkedSince.isSome = true) := by
  cases x with
  | unregistered => exact absurd hl (hx id entry he)
  | active =>
      obtain ⟨id', entry', he', hl', hp⟩ := hx
      obtain ⟨-, rfl⟩ := h.entry_unique he he' (hl.trans hl'.symm)
      exact Or.inl ⟨rfl, hp⟩
  | parked =>
      obtain ⟨id', entry', he', hl', hp⟩ := hx
      obtain ⟨-, rfl⟩ := h.entry_unique he he' (hl.trans hl'.symm)
      exact Or.inr ⟨rfl, hp⟩
  | discarded =>
      obtain ⟨key, hst⟩ := h.established he
      exact absurd hl (hx.2 id _ hst)

theorem indexEntry_insertEntry_iff {id : SessionKey} {entry entry' : IndexEntry}
    (he : agg.indexEntry id = some entry) (hl : entry.lease ≠ lease) (hl' : entry'.lease ≠ lease)
    (id' : SessionKey) (e : IndexEntry) (hel : e.lease = lease) :
    (agg.insertEntry id entry').indexEntry id' = some e ↔ agg.indexEntry id' = some e := by
  rw [indexEntry_insertEntry]
  by_cases hid : id' = id
  · subst hid
    simp only [if_true, he, Option.some.injEq]
    constructor <;> rintro rfl <;> contradiction
  · rw [if_neg hid]

theorem SocketIn.replaced (hx : agg.SocketIn lease x) {id : SessionKey}
    {entry entry' : IndexEntry} {effs : List ServeEffect} (he : agg.indexEntry id = some entry)
    (hl : entry'.lease = entry.lease) (hother : entry.lease ≠ lease → effs.filterMap (·.socket lease) = [])
    (hown : entry.lease = lease → ∃ y, x.Accepts (effs.filterMap (·.socket lease)) y ∧
      (agg.insertEntry id entry').SocketIn lease y) :
    ∃ y, x.Accepts (effs.filterMap (·.socket lease)) y ∧ (agg.insertEntry id entry').SocketIn lease y := by
  by_cases hel : entry.lease = lease
  · exact hown hel
  · refine ⟨x, by rw [hother hel]; exact SocketPhase.Accepts.nil_iff.mpr rfl, ?_⟩
    exact hx.frame (indexEntry_insertEntry_iff he hel (hl ▸ hel)) (.refl _)

theorem IndexStep.registerIo_notMem {effs : List ServeEffect} (hs : IndexStep agg effs agg')
    (id : SessionKey) (l : LeaseId) : .registerIo id l true ∉ effs := by
  cases hs <;> simp

theorem registerIo_notMem_apply (h : agg.Inv) (e : ServeEvent) (id : SessionKey) (l : LeaseId) :
    .registerIo id l true ∉ (agg.apply e).2 := by
  obtain ⟨effss, hrun, heffs⟩ := apply_decomposes h e
  rw [← heffs, List.mem_flatten]
  clear heffs h
  rintro ⟨effs, hmem, hm⟩
  generalize (agg.apply e).1 = agg' at hrun
  induction hrun with
  | nil => cases hmem
  | cons hs _ ih =>
      rcases List.mem_cons.mp hmem with rfl | hmem
      · exact IndexStep.registerIo_notMem hs id l hm
      · exact ih hmem

theorem SocketIn.indexStep (h : agg.Inv) (hx : agg.SocketIn lease x) {effs : List ServeEffect}
    (hs : IndexStep agg effs agg') :
    ∃ y, x.Accepts (effs.filterMap (·.socket lease)) y ∧ agg'.SocketIn lease y := by
  have hf := IndexStep.leasesFrom h hs
  have hkeep {x : SocketPhase} : x.Accepts [] x := SocketPhase.Accepts.nil_iff.mpr rfl
  cases hs with
  | @attach e =>
      refine ⟨x, ?_, hx.frame (fun _ _ _ => Iff.rfl) hf⟩
      have hnil : ((agg.arbiter.apply e).2.map ServeEffect.attach).filterMap (·.socket lease) = [] := by
        rw [List.filterMap_map]
        exact List.filterMap_eq_nil_iff.mpr fun _ _ => rfl
      rw [hnil]
      exact hkeep
  | @register key l token target grace hst =>
      have hnot := h.not_indexed hst (by simp)
      by_cases hl : l = lease
      · -- 承認待ちの lease は、まだ登録されていない。
        subst hl
        have hx' : x = .unregistered := by
          cases x with
          | unregistered => rfl
          | active | parked =>
              obtain ⟨id, entry, he, hl, -⟩ := hx
              exact absurd hl (hnot id entry he).1
          | discarded => exact absurd rfl (hx.2 _ _ hst)
        subst hx'
        refine ⟨.active, by simp [List.filterMap_cons, SocketPhase.Accepts, SocketPhase.step], ?_⟩
        exact ⟨key.sessionId, ⟨l, none, grace, false⟩, by simp [ServeAggregate.register], rfl, rfl⟩
      · refine ⟨x, by simpa [List.filterMap_cons, hl] using hkeep, hx.frame ?_ hf⟩
        intro id e hel
        rw [ServeAggregate.register, indexEntry_insertEntry]
        by_cases hid : id = key.sessionId
        · rw [if_pos hid]
          constructor
          · rintro ⟨⟩
            exact absurd hel hl
          · intro he
            exact absurd hid (hnot id e he).2
        · rw [if_neg hid, indexEntry_withArbiter]
  | @discard id entry cause he hc =>
      by_cases hl : entry.lease = lease
      · subst hl
        obtain ⟨key, hst⟩ := h.established he
        refine ⟨.discarded, ?_, ?_⟩
        · rcases hx.of_entry h he rfl with ⟨rfl, hp⟩ | ⟨rfl, -⟩
          · have hcause : ¬ (cause = .expired ∨ cause = .evicted) := by
              intro hcause
              simp [hp] at hc
              tauto
            simp [SocketPhase.Accepts, SocketPhase.step, DiscardCause.ofParked, hcause]
          · simp [SocketPhase.Accepts, SocketPhase.step]
        · refine ((h.arbiter.confined hst).of_leasesFrom hf).retired ?_
          intro st hst'
          simp [ServeAggregate.drop] at hst'
      · refine ⟨x, by simpa [hl] using hkeep, hx.frame ?_ hf⟩
        intro id' e hel
        rw [ServeAggregate.drop, indexEntry_removeEntry]
        by_cases hid : id' = id
        · subst hid
          simp only [if_true, he, Option.some.injEq]
          constructor
          · rintro ⟨⟩
          · rintro rfl; exact absurd hel hl
        · rw [if_neg hid, indexEntry_withArbiter]
  | @park id entry now he hu =>
      refine hx.replaced he rfl (fun hl => by simp [hl]) ?_
      intro hl
      refine ⟨.parked, ?_, id, { entry with parkedSince := some now }, by simp, hl, rfl⟩
      rcases hx.of_entry h he hl with ⟨rfl, -⟩ | ⟨rfl, -⟩ <;>
        simp [hl, SocketPhase.Accepts, SocketPhase.step]
  | @markUnresumable id entry he hp =>
      refine hx.replaced he rfl (fun _ => rfl) ?_
      intro hl
      rcases hx.of_entry h he hl with ⟨rfl, -⟩ | ⟨-, hp'⟩
      · exact ⟨.active, hkeep, id, { entry with unresumable := true }, by simp, hl, hp⟩
      · simp [hp] at hp'
  | @grant id entry since he hp =>
      refine hx.replaced he rfl (fun hl => by simp [hl]) ?_
      intro hl
      rcases hx.of_entry h he hl with ⟨-, hp'⟩ | ⟨rfl, -⟩
      · simp [hp] at hp'
      · refine ⟨.active, ?_, id, { entry with parkedSince := none }, by simp, hl, rfl⟩
        simp [hl, SocketPhase.Accepts, SocketPhase.step]
  | @preempt id entry he hp =>
      refine ⟨x, ?_, hx⟩
      by_cases hl : entry.lease = lease
      · rcases hx.of_entry h he hl with ⟨rfl, -⟩ | ⟨-, hp'⟩
        · simp [hl, SocketPhase.Accepts, SocketPhase.step]
        · simp [hp] at hp'
      · simpa [hl] using hkeep
  | rejectResume | rejectBusy => exact ⟨x, hkeep, hx⟩

theorem SocketIn.apply (h : agg.Inv) (hx : agg.SocketIn lease x) (e : ServeEvent) :
    ∃ y, x.Accepts ((agg.apply e).2.filterMap (·.socket lease)) y ∧ (agg.apply e).1.SocketIn lease y := by
  obtain ⟨effss, hrun, heffs⟩ := apply_decomposes h e
  rw [← heffs]
  clear heffs
  generalize (agg.apply e).1 = agg' at hrun ⊢
  induction hrun generalizing x with
  | nil => exact ⟨x, SocketPhase.Accepts.nil_iff.mpr rfl, hx⟩
  | cons hs _ ih =>
      obtain ⟨y, hacc, hy⟩ := hx.indexStep h hs
      obtain ⟨z, hacc', hz⟩ := ih (h.indexStep hs) hy
      refine ⟨z, ?_, hz⟩
      rw [List.flatten_cons, List.filterMap_append]
      exact SocketPhase.Accepts.append_iff.mpr ⟨y, hacc, hacc'⟩

/-- どの実行でも、どの lease についても、ソケットへの作用の列は規約に受理される。 -/
theorem socketEvents_accepted (maxSessions : Nat) (es : List ServeEvent) (lease : LeaseId) :
    ∃ y, SocketPhase.unregistered.Accepts (socketEvents maxSessions es lease) y := by
  obtain ⟨y, hacc, -⟩ := Reducer.run_simulates (I := ServeAggregate.Inv)
    (R := fun agg x => agg.SocketIn lease x) (fun _ e h => h.apply e) (fun _ e _ h hx => hx.apply h e)
    (Inv.new maxSessions) (x := .unregistered) (by simp [SocketIn]) es
  exact ⟨y, hacc⟩

end ServeAggregate

/-!
## 1 回の `apply` が lease に及ぼすこと

作用を実行する側から見て、1 回の `apply` の前後で各 lease の立場がどう変わり、どの作用が必ず出るかを
`Evolves` にまとめる。実行の証明は、reducer の分岐に触れずにこの関係だけを使う。
-/

namespace SlotStep

variable {id : SessionId} {n n' : Nat} {e : AttachEvent} {st st' : Option AttachState}
  {effs : List AttachEffect}

theorem closing {lease : LeaseId} {next : AttachKey}
    (h : SlotStep id n e (some (.closingForSupersede lease next)) st' n' effs) :
    (∃ next', st' = some (.closingForSupersede lease next')) ∨
      (e = .leaseStopped lease ∧ st' = some (.connecting next ⟨n⟩)) := by
  cases h with
  | reject | resend | replaceNext => exact Or.inl ⟨_, rfl⟩
  | supersede _ hf | cancel _ hf => exact hf.elim
  | restart => exact Or.inr ⟨rfl, rfl⟩

/-- 接続中と承認待ちの lease は、前から同じ slot にあるか、その接続がちょうど始まる。 -/
theorem inFlight_next (h : SlotStep id n e st st' n' effs) {t' : AttachState} (ht : st' = some t')
    (hf : t'.InFlight) :
    (∃ t, st = some t ∧ t.InFlight ∧ t.lease = t'.lease) ∨ .connectTarget t'.lease ∈ effs := by
  subst ht
  cases h with
  | connect | restart => exact Or.inr List.mem_cons_self
  | reject | resend => exact Or.inl ⟨_, rfl, hf, rfl⟩
  | connected => exact Or.inl ⟨_, rfl, trivial, rfl⟩
  | supersede | replaceNext | activate => exact hf.elim

theorem closing_next {lease : LeaseId} {next : AttachKey}
    (h : SlotStep id n e st (some (.closingForSupersede lease next)) n' effs) :
    (∃ next', st = some (.closingForSupersede lease next')) ∨
      ∃ t, st = some t ∧ t.InFlight ∧ t.lease = lease ∧ .cancelLease lease ∈ effs := by
  cases h with
  | reject | resend => exact Or.inl ⟨_, rfl⟩
  | replaceNext => exact Or.inl ⟨_, rfl⟩
  | supersede _ hf => exact Or.inr ⟨_, rfl, hf, rfl, by simp⟩

theorem of_leaseStopped {lease : LeaseId} (h : SlotStep id n (.leaseStopped lease) st st' n' effs)
    (next : AttachKey) : st' ≠ some (.closingForSupersede lease next) := by
  cases h with
  | restart => simp

/-- `CancelLease` は、追い越すか、slot を空けるときにだけ出る。 -/
theorem cancelLease_mem (h : SlotStep id n e st st' n' effs) {lease : LeaseId}
    (hm : AttachEffect.cancelLease lease ∈ effs) :
    ∃ t, st = some t ∧ t.lease = lease ∧
      (((∃ key, e = .helloReceived key) ∧ ∃ next, st' = some (.closingForSupersede lease next)) ∨
        (((∃ key, e = .cancelReceived key) ∨ ∃ l, e = .pendingExpired l) ∧ st' = none)) := by
  cases h with
  | supersede =>
      obtain rfl : lease = _ := by simpa using hm
      exact ⟨_, rfl, rfl, Or.inl ⟨⟨_, rfl⟩, _, rfl⟩⟩
  | cancel =>
      obtain rfl : lease = _ := by simpa using hm
      exact ⟨_, rfl, rfl, Or.inr ⟨Or.inl ⟨_, rfl⟩, rfl⟩⟩
  | expire =>
      obtain rfl := AttachEffect.cancelLease.inj (List.mem_singleton.mp hm)
      exact ⟨_, rfl, rfl, Or.inr ⟨Or.inr ⟨_, rfl⟩, rfl⟩⟩
  | resend => rename_i t _ _ _; cases t <;> simp [AttachState.resend] at hm
  | _ => simp at hm

end SlotStep

namespace AttachArbiter

/-- `lease` は接続中か承認待ちである。 -/
def Flying (a : AttachArbiter) (lease : LeaseId) : Prop :=
  ∃ id st, a.stateFor id = some st ∧ st.InFlight ∧ st.lease = lease

/-- `lease` は確立したか、slot を離れた。もう接続や停止を待つことはない。 -/
def Settled (a : AttachArbiter) (lease : LeaseId) : Prop := a.RelaysEstablished [lease]

theorem Settled.not_flying {a : AttachArbiter} {lease : LeaseId} (h : a.Settled lease) :
    ¬ a.Flying lease := by
  rintro ⟨id, st, hst, hf, hl⟩
  obtain ⟨key, rfl⟩ := (h lease (by simp)).2 id st hst hl
  exact hf

theorem Settled.not_closing {a : AttachArbiter} {lease : LeaseId} (h : a.Settled lease) :
    ¬ a.Closing lease := by
  rintro ⟨id, next, hst⟩
  obtain ⟨key, hk⟩ := (h lease (by simp)).2 id _ hst rfl
  cases hk

theorem Closing.not_flying {a : AttachArbiter} (h : a.Inv) {lease : LeaseId} (hc : a.Closing lease) :
    ¬ a.Flying lease := by
  obtain ⟨id, next, hst⟩ := hc
  rintro ⟨id', st', hst', hf, hl⟩
  obtain rfl := h.unique id' id st' _ hst' hst hl
  obtain rfl := Option.some.inj (hst'.symm.trans hst)
  exact hf

theorem Retired.settled {a : AttachArbiter} {lease : LeaseId} (h : a.Retired lease) : a.Settled lease := by
  intro l hl
  obtain rfl := List.mem_singleton.mp hl
  exact ⟨h.1, fun id st hst hl => absurd hl (h.2 id st hst)⟩

/-- 作用 `effs` を出した `apply` の前後の状態 `a`、`a'` について、各 lease の立場の変化を述べる。 -/
structure Evolves (a a' : AttachArbiter) (effs : List AttachEffect) : Prop where
  settled : ∀ lease, a.Settled lease → a'.Settled lease
  closing : ∀ lease, a.Closing lease → a'.Closing lease ∨ a'.Settled lease
  flying : ∀ lease, a'.Flying lease → a.Flying lease ∨ .connectTarget lease ∈ effs
  superseded : ∀ lease, a'.Closing lease → a.Closing lease ∨
    (.cancelLease lease ∈ effs ∧ (a.Flying lease ∨ .connectTarget lease ∈ effs))
  cancelled : ∀ lease, .cancelLease lease ∈ effs → a'.Closing lease ∨ a'.Settled lease
  relayed : ∀ lease target, .startRelay lease target ∈ effs → a'.Settled lease

theorem Evolves.refl (a : AttachArbiter) {effs : List AttachEffect}
    (hc : ∀ lease, .cancelLease lease ∉ effs) (hr : ∀ lease target, .startRelay lease target ∉ effs) :
    Evolves a a effs where
  settled _ h := h
  closing _ h := Or.inl h
  flying _ h := Or.inl h
  superseded _ h := Or.inl h
  cancelled lease h := absurd h (hc lease)
  relayed lease target h := absurd h (hr lease target)

theorem Evolves.trans {a a' a'' : AttachArbiter} {effs effs' : List AttachEffect} (h : Evolves a a' effs)
    (h' : Evolves a' a'' effs') : Evolves a a'' (effs ++ effs') where
  settled lease hs := h'.settled lease (h.settled lease hs)
  closing lease hc := by
    rcases h.closing lease hc with hc | hs
    · exact h'.closing lease hc
    · exact Or.inr (h'.settled lease hs)
  flying lease hf := by
    rcases h'.flying lease hf with hf | hm
    · exact (h.flying lease hf).imp_right (List.mem_append_left _)
    · exact Or.inr (List.mem_append_right _ hm)
  superseded lease hc := by
    rcases h'.superseded lease hc with hc | ⟨hm, hf⟩
    · rcases h.superseded lease hc with hc | ⟨hm, hf⟩
      · exact Or.inl hc
      · exact Or.inr ⟨List.mem_append_left _ hm, hf.imp_right (List.mem_append_left _)⟩
    · refine Or.inr ⟨List.mem_append_right _ hm, ?_⟩
      rcases hf with hf | hm'
      · exact (h.flying lease hf).imp_right (List.mem_append_left _)
      · exact Or.inr (List.mem_append_right _ hm')
  cancelled lease hm := by
    rcases List.mem_append.mp hm with hm | hm
    · rcases h.cancelled lease hm with hc | hs
      · exact h'.closing lease hc
      · exact Or.inr (h'.settled lease hs)
    · exact h'.cancelled lease hm
  relayed lease target hm := by
    rcases List.mem_append.mp hm with hm | hm
    · exact h'.settled lease (h.relayed lease target hm)
    · exact h'.relayed lease target hm

/-- 遷移で lease が離れた slot を持つ lease は、遷移の後には引退している。 -/
theorem retired_apply {a : AttachArbiter} (h : a.Inv) {e : AttachEvent} {id : SessionId} {st : AttachState}
    (hst : a.stateFor id = some st)
    (hn : ∀ st', (a.apply e).1.stateFor id = some st' → st'.lease ≠ st.lease) :
    (a.apply e).1.Retired st.lease :=
  ((h.confined hst).of_leasesFrom (.apply h e)).retired hn

theorem Evolves.apply {a : AttachArbiter} (h : a.Inv) (e : AttachEvent) :
    Evolves a (a.apply e).1 (a.apply e).2 where
  settled lease hs := RelaysEstablished.apply h hs e
  closing lease hc := by
    obtain ⟨id, next, hst⟩ := hc
    rcases apply_slot h e id with hs | ⟨-, hs⟩
    · rw [hst] at hs
      rcases hs.closing with ⟨next', hst'⟩ | ⟨-, hst'⟩
      · exact Or.inl ⟨id, next', hst'⟩
      · -- 次の鍵の lease は新しい番号なので、古い lease はどの slot にも無い。
        refine Or.inr (retired_apply h hst ?_).settled
        intro st' hst''
        obtain rfl := Option.some.inj (hst'.symm.trans hst'')
        intro heq
        have := h.fresh id _ hst
        rw [← heq] at this
        exact lt_irrefl _ this
    · exact Or.inl ⟨id, next, hs.trans hst⟩
  flying lease hf := by
    obtain ⟨id, st', hst', hf, rfl⟩ := hf
    rcases apply_slot h e id with hs | ⟨-, hs⟩
    · exact (hs.inFlight_next hst' hf).imp_left fun ⟨t, ht, htf, hl⟩ => ⟨id, t, ht, htf, hl⟩
    · exact Or.inl ⟨id, st', hs.symm.trans hst', hf, rfl⟩
  superseded lease hc := by
    obtain ⟨id, next, hst'⟩ := hc
    rcases apply_slot h e id with hs | ⟨-, hs⟩
    · rw [hst'] at hs
      rcases hs.closing_next with ⟨next', hst⟩ | ⟨t, ht, hf, hl, hm⟩
      · exact Or.inl ⟨id, next', hst⟩
      · exact Or.inr ⟨hm, Or.inl ⟨id, t, ht, hf, hl⟩⟩
    · exact Or.inl ⟨id, next, hs.symm.trans hst'⟩
  cancelled lease hm := by
    cases apply_decomposes h e with
    | ignored _ hr => simp [hr] at hm
    | acts id hs =>
        obtain ⟨t, ht, rfl, ⟨-, next, hst'⟩ | ⟨-, hnone⟩⟩ := hs.slot.cancelLease_mem hm
        · exact Or.inl ⟨id, next, hst'⟩
        · refine Or.inr (retired_apply h ht ?_).settled
          intro st' hst'
          rw [hnone] at hst'
          cases hst'
  relayed lease target hm := by
    obtain ⟨key, token, -, -, hst', -⟩ := startRelay_apply h hm
    have hnil : (a.apply e).1.RelaysEstablished [] := by simp [RelaysEstablished]
    exact hnil.cons (h.apply e) hst'

/-! ## 内部のタスクが適用するイベント -/

theorem connectTarget_mem_apply {a : AttachArbiter} (h : a.Inv) {e : AttachEvent} {lease : LeaseId}
    (hm : .connectTarget lease ∈ (a.apply e).2) :
    (∃ key, e = .helloReceived key) ∨ ∃ old, e = .leaseStopped old := by
  cases apply_decomposes h e with
  | ignored _ hr => simp [hr] at hm
  | acts id hs =>
      obtain ⟨key, -, -, ⟨he, -, -⟩ | ⟨old, he, -⟩⟩ := hs.slot.connectTarget_mem hm
      · exact Or.inl ⟨key, he⟩
      · exact Or.inr ⟨old, he⟩

theorem cancelLease_mem_apply {a : AttachArbiter} (h : a.Inv) {e : AttachEvent} {lease : LeaseId}
    (hm : .cancelLease lease ∈ (a.apply e).2) :
    (∃ key, e = .helloReceived key) ∨
      (((∃ key, e = .cancelReceived key) ∨ ∃ l, e = .pendingExpired l) ∧ (a.apply e).1.Settled lease) := by
  cases apply_decomposes h e with
  | ignored _ hr => simp [hr] at hm
  | acts id hs =>
      obtain ⟨t, ht, rfl, ⟨he, -⟩ | ⟨he, hnone⟩⟩ := hs.slot.cancelLease_mem hm
      · exact Or.inl he
      · refine Or.inr ⟨he, (retired_apply h ht ?_).settled⟩
        intro st' hst'
        rw [hnone] at hst'
        cases hst'

theorem not_closing_leaseStopped {a : AttachArbiter} (h : a.Inv) (lease : LeaseId) :
    ¬ (a.apply (.leaseStopped lease)).1.Closing lease := by
  rintro ⟨id, next, hst'⟩
  rcases apply_slot h (.leaseStopped lease) id with hs | ⟨hn, hs⟩
  · exact hs.of_leaseStopped next hst'
  · rw [← hs, hst'] at hn
    exact hn ⟨next, rfl⟩

/-- 停止を待つことを終わらせるのは、その lease の `LeaseStopped` だけである。 -/
theorem Closing.apply {a : AttachArbiter} (h : a.Inv) {lease : LeaseId} (hc : a.Closing lease) {e : AttachEvent}
    (hne : e ≠ .leaseStopped lease) : (a.apply e).1.Closing lease := by
  obtain ⟨id, next, hst⟩ := hc
  rcases apply_slot h e id with hs | ⟨-, hs⟩
  · rw [hst] at hs
    rcases hs.closing with ⟨next', hst'⟩ | ⟨he, -⟩
    · exact ⟨id, next', hst'⟩
    · exact absurd he hne
  · exact ⟨id, next, hs.trans hst⟩

/-- 接続の失敗が作用を出すのは、その lease の slot を空けたときだけである。 -/
theorem settled_targetConnectFailed {a : AttachArbiter} (h : a.Inv) {lease : LeaseId}
    (hne : (a.apply (.targetConnectFailed lease)).2 ≠ []) :
    (a.apply (.targetConnectFailed lease)).1.Settled lease := by
  cases apply_decomposes h (.targetConnectFailed lease) with
  | ignored _ hr => simp [hr] at hne
  | acts id hs =>
      obtain ⟨key, hst⟩ := hs.slot.concerns
      refine (retired_apply h hst ?_).settled
      intro st' hst'
      have hslot := hs.slot
      rw [hst, hst'] at hslot
      cases hslot

end AttachArbiter

namespace ServeAggregate

theorem attachEffects_map_attach (effs : List AttachEffect) : attachEffects (effs.map .attach) = effs := by
  simp [attachEffects, List.filterMap_map]

theorem attachEffects_append (effs effs' : List ServeEffect) :
    attachEffects (effs ++ effs') = attachEffects effs ++ attachEffects effs' := by
  simp [attachEffects]

theorem IndexStep.evolves {agg agg' : ServeAggregate} {effs : List ServeEffect} (h : agg.Inv)
    (hs : IndexStep agg effs agg') :
    AttachArbiter.Evolves agg.arbiter agg'.arbiter (attachEffects effs) := by
  cases hs with
  | attach =>
      rw [attachEffects_map_attach]
      exact .apply h.arbiter _
  | @register key lease token target grace hst =>
      have hev := AttachArbiter.Evolves.apply h.arbiter (.activated key token)
      rw [AttachArbiter.apply_activated hst] at hev
      exact hev
  | @discard id entry cause he hc =>
      obtain ⟨key, hst⟩ := h.established he
      have hev := AttachArbiter.Evolves.apply h.arbiter (.relayEnded entry.lease)
      rw [AttachArbiter.apply_relayEnded h.arbiter hst] at hev
      exact hev
  | park | markUnresumable | grant | preempt | rejectResume | rejectBusy =>
      exact .refl _ (by simp [attachEffects]) (by simp [attachEffects])

theorem apply_evolves {agg : ServeAggregate} (h : agg.Inv) (e : ServeEvent) :
    AttachArbiter.Evolves agg.arbiter (agg.apply e).1.arbiter (attachEffects (agg.apply e).2) := by
  obtain ⟨effss, hrun, heffs⟩ := apply_decomposes h e
  rw [← heffs]
  clear heffs
  generalize (agg.apply e).1 = agg' at hrun ⊢
  induction hrun with
  | nil => exact .refl _ (by simp [attachEffects]) (by simp [attachEffects])
  | cons hs _ ih =>
      rw [List.flatten_cons, attachEffects_append]
      exact (IndexStep.evolves h hs).trans (ih (h.indexStep hs))

/-- 内部のタスクが適用するイベント。接続の結果、期限切れ、または済んだ lease の停止である。 -/
def Internal (agg : ServeAggregate) (e : ServeEvent) : Prop :=
  (∃ lease target token, e = .targetConnected lease target token) ∨ (∃ lease, e = .pendingExpired lease) ∨
    (∃ lease, e = .targetConnectFailed lease) ∨ ∃ lease, e = .leaseStopped lease ∧ agg.arbiter.Settled lease

/-- 内部のイベントは接続を始めず、取り消すのは済んだ lease だけである。 -/
theorem Internal.effects {agg : ServeAggregate} (h : agg.Inv) {e : ServeEvent} (he : agg.Internal e) :
    (∀ lease, .connectTarget lease ∉ attachEffects (agg.apply e).2) ∧
      ∀ lease, .cancelLease lease ∈ attachEffects (agg.apply e).2 → (agg.apply e).1.arbiter.Settled lease := by
  rcases he with ⟨l, target, token, rfl⟩ | ⟨l, rfl⟩ | ⟨l, rfl⟩ | ⟨l, rfl, hs⟩
  all_goals
    simp only [apply, forward_eq, attachEffects_map_attach, arbiter_withArbiter]
  · refine ⟨fun lease hm => ?_, fun lease hm => ?_⟩
    · simpa using AttachArbiter.connectTarget_mem_apply h.arbiter hm
    · simpa using AttachArbiter.cancelLease_mem_apply h.arbiter hm
  · refine ⟨fun lease hm => ?_, fun lease hm => ?_⟩
    · simpa using AttachArbiter.connectTarget_mem_apply h.arbiter hm
    · simpa using AttachArbiter.cancelLease_mem_apply h.arbiter hm
  · refine ⟨fun lease hm => ?_, fun lease hm => ?_⟩
    · simpa using AttachArbiter.connectTarget_mem_apply h.arbiter hm
    · simpa using AttachArbiter.cancelLease_mem_apply h.arbiter hm
  · -- 済んだ lease の停止は、どの slot にも関わらない。
    have happly : agg.arbiter.apply (.leaseStopped l) = (agg.arbiter, []) := by
      refine AttachArbiter.apply_of_not_concerns h.arbiter ?_
      rintro id ⟨next, hst⟩
      exact hs.not_closing ⟨id, next, hst⟩
    simp [happly]

theorem not_closing_leaseStopped {agg : ServeAggregate} (h : agg.Inv) (lease : LeaseId) :
    ¬ (agg.apply (.leaseStopped lease)).1.arbiter.Closing lease := by
  simp only [apply, forward_eq, arbiter_withArbiter]
  exact AttachArbiter.not_closing_leaseStopped h.arbiter lease

theorem settled_targetConnectFailed {agg : ServeAggregate} (h : agg.Inv) {lease : LeaseId}
    (hne : attachEffects (agg.apply (.targetConnectFailed lease)).2 ≠ []) :
    (agg.apply (.targetConnectFailed lease)).1.arbiter.Settled lease := by
  simp only [apply, forward_eq, attachEffects_map_attach, arbiter_withArbiter] at hne ⊢
  exact AttachArbiter.settled_targetConnectFailed h.arbiter hne

/-! ## 停止を待つ lease -/

/-- `lease` は追い越されて、停止を待っている。arbiter の不変条件とともに保たれる。 -/
def Waits (agg : ServeAggregate) (lease : LeaseId) : Prop := agg.arbiter.Inv ∧ agg.arbiter.Closing lease

theorem Waits.forward {agg : ServeAggregate} {lease : LeaseId} (h : agg.Waits lease) (e : AttachEvent)
    (hne : e ≠ .leaseStopped lease) : (agg.forward e).1.Waits lease :=
  ⟨h.1.apply e, h.2.apply h.1 hne⟩

theorem Waits.discard {agg : ServeAggregate} {lease : LeaseId} (h : agg.Waits lease) (id : SessionKey)
    (cause : DiscardCause) : (agg.discard id cause).1.Waits lease := by
  unfold ServeAggregate.discard
  split
  · exact h
  · rename_i entry _
    have hremoved : (agg.removeEntry id).Waits lease := h
    exact hremoved.forward (.relayEnded entry.lease) (by simp)

theorem Waits.apply {agg : ServeAggregate} {lease : LeaseId} (h : agg.Inv) (hw : agg.Waits lease)
    {e : ServeEvent} (hne : e ≠ .leaseStopped lease) : (agg.apply e).1.Waits lease := by
  cases e with
  | admitRequested key =>
      simp only [ServeAggregate.apply, onAdmitRequested]
      split
      · split
        · exact (hw.discard _ _).forward (.helloReceived key) (by simp)
        · exact hw
      · exact hw.forward _ (by simp)
  | targetConnected | targetConnectFailed | cancelReceived | pendingExpired => exact hw.forward _ (by simp)
  | leaseStopped l => exact hw.forward _ (by simpa using hne)
  | activated key token grace =>
      rcases onActivated_cases h key token grace with heq | ⟨l, target, hst, heq⟩ <;>
        simp only [ServeAggregate.apply, heq]
      · exact hw
      · have hforward := hw.forward (.activated key token) (by simp)
        simp only [ServeAggregate.forward, AttachArbiter.apply_activated hst] at hforward
        exact hforward
  | relayEnded l =>
      simp only [ServeAggregate.apply, onRelayEnded]
      split
      · exact hw.discard _ _
      · exact hw.forward _ (by simp)
  | parked id l now =>
      simp only [ServeAggregate.apply, onParked]
      split
      · exact hw
      · split
        · exact hw
        · split
          · exact hw.discard _ _
          · exact hw
  | relayTerminated id l reason =>
      simp only [ServeAggregate.apply, onRelayTerminated]
      split
      · exact hw
      · exact hw.discard _ _
  | resumeUnavailable id l =>
      simp only [ServeAggregate.apply, onResumeUnavailable]
      split
      · exact hw
      · split <;> exact hw
  | sweep now maxParked =>
      exact Reducer.run_invariant (I := fun agg : ServeAggregate => agg.Waits lease) (fun _ id h => h.discard id .expired) hw _
  | resumeRequested id =>
      simp only [ServeAggregate.apply, onResumeRequested]
      split
      · exact hw
      · split
        · exact hw
        · split <;> exact hw

end ServeAggregate

end IsekaiTerminal.Serve
