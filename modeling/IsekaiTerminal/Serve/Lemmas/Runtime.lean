import IsekaiTerminal.Lib.Transition
import IsekaiTerminal.Serve.Lemmas.SocketLife

/-!
# 作用の実行の不変条件

接続中と承認待ちの lease は、`leases` に登録されているか、`start_connect` をまだ誰かが残している。追い越された
lease は、`cancel_lease` か `LeaseStopped` を、消えることのない接続のタスクが残している。これらを不可分な動作ごとに
保つ。破れるのは、`cancel_lease` が `start_connect` より先に表を引くときだけである。
-/

namespace IsekaiTerminal.Serve

open Protocol Lib

def LeaseResource.task? : LeaseResource → Option TaskId
  | .connecting task => some task
  | .pendingTarget timer => timer

/-- `lease` の停止を、必ず reducer に告げる仕事。 -/
def Instr.Stops (lease : LeaseId) (i : Instr) : Prop :=
  i = .apply (.leaseStopped lease) ∨ ∃ task, i = .awaitTask task lease

namespace AttachRuntime

/-! ## タスクの表 -/

def Owed (s : AttachRuntime) (i : Instr) : Prop :=
  ∃ (t : TaskId) (task : Task), s.tasks[t]? = some task ∧ task.kind = .caller ∧ i ∈ task.code

def Internal (s : AttachRuntime) (t : TaskId) : Prop :=
  ∃ task : Task, s.tasks[t]? = some task ∧ task.kind ≠ .caller

theorem getElem?_setCode (s : AttachRuntime) (t : TaskId) (c : List Instr) (j : TaskId) :
    (s.setCode t c).tasks[j]? =
      (s.tasks[j]?).map fun task => if t = j then { task with code := c } else task := by
  simp [setCode, List.getElem?_modify]

theorem getElem?_abort (s : AttachRuntime) (t j : TaskId) :
    (s.abort t).tasks[j]? =
      (s.tasks[j]?).map fun task => if t = j then { task with aborted := true } else task := by
  simp [abort, List.getElem?_modify]

theorem getElem?_spawn (s : AttachRuntime) (kind : TaskKind) (c : List Instr) (j : TaskId) :
    (s.spawn kind c).tasks[j]? =
      if j < s.tasks.length then s.tasks[j]?
      else if j = s.tasks.length then some ⟨kind, c, false⟩ else none := by
  simp only [spawn, List.getElem?_append]
  by_cases hlt : j < s.tasks.length
  · rw [if_pos hlt, if_pos hlt]
  · rw [if_neg hlt, if_neg hlt]
    by_cases heq : j = s.tasks.length
    · simp [heq]
    · rw [if_neg heq, List.getElem?_eq_none_iff, List.length_singleton]
      exact Nat.sub_pos_of_lt (lt_of_le_of_ne (not_lt.mp hlt) (Ne.symm heq))

theorem getElem?_spawn_of_some {s : AttachRuntime} {kind : TaskKind} {c : List Instr} {j : TaskId}
    {task : Task} (h : s.tasks[j]? = some task) : (s.spawn kind c).tasks[j]? = some task := by
  obtain ⟨hlt, -⟩ := List.getElem?_eq_some_iff.mp h
  rw [getElem?_spawn, if_pos hlt, h]

variable {s s' : AttachRuntime} {t : TaskId} {task : Task} {c : List Instr} {i : Instr} {lease : LeaseId}

/-- 1 つのタスクの仕事を替えても、そのタスクが引き継ぐ限り、残された仕事は失われない。 -/
theorem Owed.setCode (h : s.Owed i) (ht : s.tasks[t]? = some task)
    (hc : task.kind = .caller → i ∈ task.code → i ∈ c) : (s.setCode t c).Owed i := by
  obtain ⟨j, task', hj, hk, hi⟩ := h
  refine ⟨j, _, by rw [getElem?_setCode, hj]; rfl, ?_, ?_⟩
  · split <;> exact hk
  · by_cases htj : t = j
    · subst htj
      obtain rfl := Option.some.inj (ht.symm.trans hj)
      simpa using hc hk hi
    · simpa [htj] using hi

theorem owed_setCode_of_mem (ht : s.tasks[t]? = some task) (hk : task.kind = .caller) (hi : i ∈ c) :
    (s.setCode t c).Owed i :=
  ⟨t, { task with code := c }, by rw [getElem?_setCode, ht]; simp, hk, hi⟩

theorem Owed.abort (h : s.Owed i) (t : TaskId) : (s.abort t).Owed i := by
  obtain ⟨j, task, hj, hk, hi⟩ := h
  refine ⟨j, _, by rw [getElem?_abort, hj]; rfl, ?_, ?_⟩ <;> split <;> assumption

theorem Owed.spawn (h : s.Owed i) (kind : TaskKind) (c : List Instr) : (s.spawn kind c).Owed i := by
  obtain ⟨j, task, hj, hk, hi⟩ := h
  exact ⟨j, task, getElem?_spawn_of_some hj, hk, hi⟩

theorem Internal.setCode (h : s.Internal t) (j : TaskId) (c : List Instr) : (s.setCode j c).Internal t := by
  obtain ⟨task, ht, hk⟩ := h
  refine ⟨_, by rw [getElem?_setCode, ht]; rfl, ?_⟩
  split <;> exact hk

theorem Internal.abort (h : s.Internal t) (j : TaskId) : (s.abort j).Internal t := by
  obtain ⟨task, ht, hk⟩ := h
  refine ⟨_, by rw [getElem?_abort, ht]; rfl, ?_⟩
  split <;> exact hk

theorem Internal.spawn (h : s.Internal t) (kind : TaskKind) (c : List Instr) :
    (s.spawn kind c).Internal t := by
  obtain ⟨task, ht, hk⟩ := h
  exact ⟨task, getElem?_spawn_of_some ht, hk⟩

theorem internal_nextTask {kind : TaskKind} (hk : kind ≠ .caller) (c : List Instr) :
    (s.spawn kind c).Internal s.nextTask :=
  ⟨⟨kind, c, false⟩, by rw [nextTask, getElem?_spawn, if_neg (lt_irrefl _), if_pos rfl], hk⟩

/-! ## 不変条件 -/

def Registered (s : AttachRuntime) (lease : LeaseId) : Prop :=
  s.leases lease ≠ none ∨ s.Owed (.effect (.connectTarget lease))

/-- 停止が必ず告げられる。`cancel_lease` が残っていて登録も済んでいるか、停止を告げる仕事が残っている。 -/
def Stopping (s : AttachRuntime) (lease : LeaseId) : Prop :=
  (s.Owed (.effect (.cancelLease lease)) ∧ s.Registered lease) ∨ ∃ i, i.Stops lease ∧ s.Owed i

/-- タスクの種類ごとに、残してよい仕事。中断されうる内部のタスクは、接続の開始も停止の通知も引き受けない。 -/
def Allowed (s : AttachRuntime) (kind : TaskKind) : Instr → Prop
  | .apply event => kind ≠ .caller → s.core.Internal event
  | .activate _ _ _ => kind = .caller
  | .effect (.connectTarget _) => kind = .caller
  | .effect (.cancelLease lease) =>
      (s.core.arbiter.Closing lease ∨ s.core.arbiter.Settled lease) ∧
        (kind ≠ .caller → s.core.arbiter.Settled lease)
  | .startRelay lease => kind = .caller ∧ s.core.arbiter.Settled lease
  | .forgetConnecting lease => s.core.arbiter.Settled lease
  | .awaitTask _ lease => kind ≠ .caller → s.core.arbiter.Settled lease
  | .storeTimer _ timer => s.Internal timer
  | .effect (.sendReady _ _) | .effect (.sendReject _ _) | .effect (.schedulePendingTimeout _)
  | .effect (.startRelay _ _) => True
  | .connecting _ | .storeTarget _ _ _ => kind ≠ .caller
  | .connectFailed _ | .sleep _ => True

structure Inv (s : AttachRuntime) : Prop where
  core : s.core.Inv
  allowed : ∀ (t : TaskId) (task : Task), s.tasks[t]? = some task → ∀ i ∈ task.code, s.Allowed task.kind i
  aborted : ∀ (t : TaskId) (task : Task), s.tasks[t]? = some task → task.aborted = true → task.kind ≠ .caller
  resource : ∀ lease r, s.leases lease = some r → ∀ t, r.task? = some t → s.Internal t
  started : ∀ lease, s.core.arbiter.Flying lease → s.Registered lease
  stopping : ∀ lease, s.core.arbiter.Closing lease → s.Stopping lease

theorem Inv.new (maxSessions : Nat) : (new maxSessions).Inv where
  core := ServeAggregate.Inv.new maxSessions
  allowed t task h := by simp [AttachRuntime.new] at h
  aborted t task h := by simp [AttachRuntime.new] at h
  resource lease r h := by simp [AttachRuntime.new] at h
  started lease h := by
    obtain ⟨id, st, hst, -⟩ := h
    rw [show (AttachRuntime.new maxSessions).core.arbiter = .new from rfl,
      AttachArbiter.stateFor_new] at hst
    cases hst
  stopping lease h := by
    obtain ⟨id, next, hst⟩ := h
    rw [show (AttachRuntime.new maxSessions).core.arbiter = .new from rfl,
      AttachArbiter.stateFor_new] at hst
    cases hst

theorem Allowed.mono {kind : TaskKind} (h : s.Allowed kind i)
    (hs : ∀ lease, s.core.arbiter.Settled lease → s'.core.arbiter.Settled lease)
    (hc : ∀ lease, s.core.arbiter.Closing lease →
      s'.core.arbiter.Closing lease ∨ s'.core.arbiter.Settled lease)
    (hi : ∀ t, s.Internal t → s'.Internal t) : s'.Allowed kind i := by
  cases i with
  | apply event =>
      intro hk
      rcases h hk with h | h | h | ⟨l, rfl, hl⟩
      · exact Or.inl h
      · exact Or.inr (Or.inl h)
      · exact Or.inr (Or.inr (Or.inl h))
      · exact Or.inr (Or.inr (Or.inr ⟨l, rfl, hs l hl⟩))
  | activate => exact h
  | effect eff =>
      cases eff with
      | connectTarget => exact h
      | cancelLease l =>
          refine ⟨?_, fun hk => hs l (h.2 hk)⟩
          rcases h.1 with hl | hl
          · exact hc l hl
          · exact Or.inr (hs l hl)
      | sendReady | sendReject | schedulePendingTimeout | startRelay => trivial
  | startRelay l => exact ⟨h.1, hs l h.2⟩
  | forgetConnecting l => exact hs l h
  | awaitTask t l => exact fun hk => hs l (h hk)
  | storeTimer l timer => exact hi timer h
  | connecting | storeTarget => exact h
  | connectFailed | sleep => trivial

theorem Allowed.of_core {kind : TaskKind} (h : s.Allowed kind i) (hcore : s'.core = s.core)
    (hi : ∀ t, s.Internal t → s'.Internal t) : s'.Allowed kind i := by
  refine h.mono ?_ ?_ hi
  · intro l hl; rw [hcore]; exact hl
  · intro l hl; rw [hcore]; exact Or.inl hl

/-! ## 動作の部品が保つこと -/

theorem Inv.abort (h : s.Inv) (ht : s.Internal t) : (s.abort t).Inv := by
  have hreg {l : LeaseId} (hl : s.Registered l) : (s.abort t).Registered l :=
    hl.imp id fun ho => ho.abort t
  constructor
  · exact h.core
  · intro j task' hj
    rw [getElem?_abort] at hj
    obtain ⟨task₀, hj₀, rfl⟩ := Option.map_eq_some_iff.mp hj
    intro i hi
    have hal := h.allowed j task₀ hj₀ i (by split at hi <;> exact hi)
    have : (s.abort t).Allowed task₀.kind i := hal.of_core rfl fun j hj => hj.abort t
    split <;> exact this
  · intro j task' hj hab
    rw [getElem?_abort] at hj
    obtain ⟨task₀, hj₀, rfl⟩ := Option.map_eq_some_iff.mp hj
    by_cases htj : t = j
    · subst htj
      obtain ⟨task', ht', hk⟩ := ht
      obtain rfl := Option.some.inj (ht'.symm.trans hj₀)
      simpa using hk
    · simp only [htj, if_false] at hab ⊢
      exact h.aborted j task₀ hj₀ hab
  · intro l r hr j hj
    exact (h.resource l r hr j hj).abort t
  · intro l hl
    exact hreg (h.started l hl)
  · intro l hl
    exact (h.stopping l hl).imp (fun ⟨ho, hl⟩ => ⟨ho.abort t, hreg hl⟩)
      fun ⟨i, hi, ho⟩ => ⟨i, hi, ho.abort t⟩

theorem Inv.abortTimer (h : s.Inv) {timer : Option TaskId} (ht : ∀ t, timer = some t → s.Internal t) :
    (s.abortTimer timer).Inv := by
  cases timer with
  | none => exact h
  | some t => exact h.abort (ht t rfl)

theorem Inv.spawn (h : s.Inv) {kind : TaskKind} (hc : ∀ i ∈ c, s.Allowed kind i) : (s.spawn kind c).Inv := by
  have hint (t : TaskId) (ht : s.Internal t) : (s.spawn kind c).Internal t := ht.spawn kind c
  have hreg {l : LeaseId} (hl : s.Registered l) : (s.spawn kind c).Registered l :=
    hl.imp id fun ho => ho.spawn kind c
  have hcases {j : TaskId} {task : Task} (hj : (s.spawn kind c).tasks[j]? = some task) :
      s.tasks[j]? = some task ∨ task = ⟨kind, c, false⟩ := by
    rw [getElem?_spawn] at hj
    split at hj
    · exact Or.inl hj
    · split at hj
      · exact Or.inr (Option.some.inj hj).symm
      · cases hj
  constructor
  · exact h.core
  · intro j task hj i hi
    rcases hcases hj with hj | rfl
    · exact (h.allowed j task hj i hi).of_core rfl hint
    · exact (hc i hi).of_core rfl hint
  · intro j task hj hab
    rcases hcases hj with hj | rfl
    · exact h.aborted j task hj hab
    · cases hab
  · intro l r hr j hj
    exact hint j (h.resource l r hr j hj)
  · intro l hl
    exact hreg (h.started l hl)
  · intro l hl
    exact (h.stopping l hl).imp (fun ⟨ho, hl⟩ => ⟨ho.spawn kind c, hreg hl⟩)
      fun ⟨i, hi, ho⟩ => ⟨i, hi, ho.spawn kind c⟩

theorem leases_setLease (s : AttachRuntime) (lease l : LeaseId) (r : Option LeaseResource) :
    (s.setLease lease r).leases l = if l = lease then r else s.leases l := by
  simp [setLease, Function.update_apply]

theorem Inv.setLease_some (h : s.Inv) (lease : LeaseId) {r : LeaseResource}
    (hr : ∀ t, r.task? = some t → s.Internal t) : (s.setLease lease (some r)).Inv := by
  have hreg {l : LeaseId} (hl : s.Registered l) : (s.setLease lease (some r)).Registered l := by
    rcases hl with hl | ho
    · refine Or.inl ?_
      rw [leases_setLease]
      split <;> simp [hl]
    · exact Or.inr ho
  constructor
  · exact h.core
  · exact h.allowed
  · exact h.aborted
  · intro l r' hr' j hj
    rw [leases_setLease] at hr'
    split at hr'
    · obtain rfl := Option.some.inj hr'
      exact hr j hj
    · exact h.resource l r' hr' j hj
  · intro l hl
    exact hreg (h.started l hl)
  · intro l hl
    exact (h.stopping l hl).imp_left fun ⟨ho, hl⟩ => ⟨ho, hreg hl⟩

/-- 資源を取り除いてよいのは、lease が接続中でも承認待ちでもなく、停止が必ず告げられるときである。 -/
theorem Inv.setLease_none (h : s.Inv) (hf : ¬ s.core.arbiter.Flying lease)
    (hc : s.core.arbiter.Closing lease → ∃ i, i.Stops lease ∧ s.Owed i) : (s.setLease lease none).Inv := by
  have hreg {l : LeaseId} (hne : l ≠ lease) (hl : s.Registered l) :
      (s.setLease lease none).Registered l := by
    refine hl.imp_left fun hl => ?_
    rwa [leases_setLease, if_neg hne]
  constructor
  · exact h.core
  · exact h.allowed
  · exact h.aborted
  · intro l r' hr' j hj
    rw [leases_setLease] at hr'
    split at hr'
    · cases hr'
    · exact h.resource l r' hr' j hj
  · intro l hl
    refine hreg ?_ (h.started l hl)
    rintro rfl
    exact hf hl
  · intro l hl
    by_cases hne : l = lease
    · subst hne
      exact Or.inr (hc hl)
    · exact (h.stopping l hl).imp_left fun ⟨ho, hl⟩ => ⟨ho, hreg hne hl⟩

theorem Inv.setLease_none_of_settled (h : s.Inv) (hs : s.core.arbiter.Settled lease) :
    (s.setLease lease none).Inv :=
  h.setLease_none hs.not_flying fun hc => absurd hc hs.not_closing

/-- 引き継がなければならない仕事を引き継ぐ限り、タスクの仕事を替えてよい。 -/
theorem Inv.setCode (h : s.Inv) (ht : s.tasks[t]? = some task) (hc : ∀ i ∈ c, s.Allowed task.kind i)
    (hconnect : task.kind = .caller → ∀ l, .effect (.connectTarget l) ∈ task.code →
      .effect (.connectTarget l) ∈ c ∨ s.leases l ≠ none)
    (hcancel : task.kind = .caller → ∀ l, .effect (.cancelLease l) ∈ task.code →
      s.core.arbiter.Closing l → .effect (.cancelLease l) ∈ c ∨ (∃ i ∈ c, i.Stops l) ∨ ¬ s.Registered l)
    (hstop : task.kind = .caller → ∀ l, ∀ i ∈ task.code, i.Stops l → ∃ i ∈ c, i.Stops l) :
    (s.setCode t c).Inv := by
  have hint (j : TaskId) (hj : s.Internal j) : (s.setCode t c).Internal j := hj.setCode t c
  have hreg {l : LeaseId} (hl : s.Registered l) : (s.setCode t c).Registered l := by
    rcases hl with hl | ho
    · exact Or.inl hl
    · by_cases hm : task.kind = .caller → .effect (.connectTarget l) ∈ task.code →
          .effect (.connectTarget l) ∈ c
      · exact Or.inr (ho.setCode ht hm)
      · push Not at hm
        obtain ⟨hk, hmem, hnot⟩ := hm
        exact Or.inl ((hconnect hk l hmem).resolve_left hnot)
  have hstops {l : LeaseId} {i : Instr} (hi : i.Stops l) (ho : s.Owed i) :
      ∃ i, i.Stops l ∧ (s.setCode t c).Owed i := by
    by_cases hm : task.kind = .caller → i ∈ task.code → i ∈ c
    · exact ⟨i, hi, ho.setCode ht hm⟩
    · push Not at hm
      obtain ⟨hk, hmem, -⟩ := hm
      obtain ⟨i', hi', hs'⟩ := hstop hk l i hmem hi
      exact ⟨i', hs', owed_setCode_of_mem ht hk hi'⟩
  constructor
  · exact h.core
  · intro j task' hj i hi
    rw [getElem?_setCode] at hj
    obtain ⟨task₀, hj₀, rfl⟩ := Option.map_eq_some_iff.mp hj
    by_cases htj : t = j
    · subst htj
      obtain rfl := Option.some.inj (ht.symm.trans hj₀)
      simp only [if_true] at hi ⊢
      exact (hc i hi).of_core rfl hint
    · simp only [htj, if_false] at hi ⊢
      exact (h.allowed j task₀ hj₀ i hi).of_core rfl hint
  · intro j task' hj hab
    rw [getElem?_setCode] at hj
    obtain ⟨task₀, hj₀, rfl⟩ := Option.map_eq_some_iff.mp hj
    have := h.aborted j task₀ hj₀ (by split at hab <;> exact hab)
    split <;> exact this
  · intro l r hr j hj
    exact hint j (h.resource l r hr j hj)
  · intro l hl
    exact hreg (h.started l hl)
  · intro l hl
    rcases h.stopping l hl with ⟨ho, hl'⟩ | ⟨i, hi, ho⟩
    · by_cases hm : task.kind = .caller → .effect (.cancelLease l) ∈ task.code →
          .effect (.cancelLease l) ∈ c
      · exact Or.inl ⟨ho.setCode ht hm, hreg hl'⟩
      · push Not at hm
        obtain ⟨hk, hmem, hnot⟩ := hm
        rcases hcancel hk l hmem hl with hin | ⟨i, hi, hs⟩ | hn
        · exact absurd hin hnot
        · exact Or.inr ⟨i, hs, owed_setCode_of_mem ht hk hi⟩
        · exact absurd hl' hn
    · exact Or.inr (hstops hi ho)

/-- `apply` が返した作用を呼び出したタスクが引き受ける限り、不変条件は保たれる。 -/
theorem Inv.applyCore (h : s.Inv) (ht : s.tasks[t]? = some task) {rest new : List Instr}
    (hcode : task.code = i :: rest) (event : ServeEvent)
    (hnew : ∀ j ∈ new, (s.applyCore event).1.Allowed task.kind j)
    (hconnect : ∀ l, .connectTarget l ∈ (s.applyCore event).2 →
      task.kind = .caller ∧ .effect (.connectTarget l) ∈ new)
    (hcancel : ∀ l, .cancelLease l ∈ (s.applyCore event).2 →
      (task.kind = .caller ∧ .effect (.cancelLease l) ∈ new) ∨
        (s.applyCore event).1.core.arbiter.Settled l)
    (hi : ∀ l, i ≠ .effect (.connectTarget l) ∧ i ≠ .effect (.cancelLease l))
    (hstop : ∀ l, i.Stops l → ¬ (s.applyCore event).1.core.arbiter.Closing l) :
    ((s.applyCore event).1.setCode t (new ++ rest)).Inv := by
  have hev : AttachArbiter.Evolves s.core.arbiter (s.applyCore event).1.core.arbiter
      (s.applyCore event).2 := ServeAggregate.apply_evolves h.core event
  have ht' : (s.applyCore event).1.tasks[t]? = some task := ht
  have hint (j : TaskId) (hj : s.Internal j) :
      ((s.applyCore event).1.setCode t (new ++ rest)).Internal j :=
    Internal.setCode (s := (s.applyCore event).1) hj t _
  -- 先頭の仕事のほかは、そのまま引き継がれる。
  have howed {j : Instr} (hne : j ≠ i) (ho : s.Owed j) :
      ((s.applyCore event).1.setCode t (new ++ rest)).Owed j := by
    refine Owed.setCode (s := (s.applyCore event).1) ho ht' ?_
    intro _ hm
    rw [hcode] at hm
    exact List.mem_append_right _ ((List.mem_cons.mp hm).resolve_left hne)
  have hpush {j : Instr} (hk : task.kind = .caller) (hm : j ∈ new) :
      ((s.applyCore event).1.setCode t (new ++ rest)).Owed j :=
    owed_setCode_of_mem ht' hk (List.mem_append_left _ hm)
  have hreg {l : LeaseId} (hl : s.Registered l) :
      ((s.applyCore event).1.setCode t (new ++ rest)).Registered l :=
    hl.imp id fun ho => howed (hi l).1.symm ho
  have hconnect' {l : LeaseId} (hm : .connectTarget l ∈ (s.applyCore event).2) :
      ((s.applyCore event).1.setCode t (new ++ rest)).Registered l :=
    Or.inr (hpush (hconnect l hm).1 (hconnect l hm).2)
  constructor
  · exact h.core.apply event
  · intro j task' hj k hk
    rw [getElem?_setCode] at hj
    obtain ⟨task₀, hj₀, rfl⟩ := Option.map_eq_some_iff.mp hj
    have hold {k : Instr} (hk : k ∈ task₀.code) :
        ((s.applyCore event).1.setCode t (new ++ rest)).Allowed task₀.kind k :=
      (h.allowed j task₀ hj₀ k hk).mono hev.settled hev.closing hint
    by_cases htj : t = j
    · subst htj
      obtain rfl := Option.some.inj (ht.symm.trans hj₀)
      simp only [if_true] at hk ⊢
      rcases List.mem_append.mp hk with hk | hk
      · exact (hnew k hk).of_core rfl hint
      · exact hold (by rw [hcode]; exact List.mem_cons_of_mem _ hk)
    · simp only [htj, if_false] at hk ⊢
      exact hold hk
  · intro j task' hj hab
    rw [getElem?_setCode] at hj
    obtain ⟨task₀, hj₀, rfl⟩ := Option.map_eq_some_iff.mp hj
    have := h.aborted j task₀ hj₀ (by split at hab <;> exact hab)
    split <;> exact this
  · intro l r hr j hj
    exact hint j (h.resource l r hr j hj)
  · intro l hl
    rcases hev.flying l hl with hl | hm
    · exact hreg (h.started l hl)
    · exact hconnect' hm
  · intro l hl
    rcases hev.superseded l hl with hc | ⟨hm, hf⟩
    · rcases h.stopping l hc with ⟨ho, hr⟩ | ⟨j, hj, ho⟩
      · exact Or.inl ⟨howed (hi l).2.symm ho, hreg hr⟩
      · refine Or.inr ⟨j, hj, howed ?_ ho⟩
        rintro rfl
        exact hstop l hj hl
    · rcases hcancel l hm with ⟨hk, hin⟩ | hs
      · refine Or.inl ⟨hpush hk hin, ?_⟩
        rcases hf with hf | hm'
        · exact hreg (h.started l hf)
        · exact hconnect' hm'
      · exact absurd hl hs.not_closing

/-! ## 1 つの動作 -/

/-- 先頭の仕事を新しい仕事 `new` に替えるだけの動作。引き継ぐべき仕事は先頭に無い。 -/
theorem Inv.replaceHead (h : s.Inv) (new : List Instr) (ht : s.tasks[t]? = some task) {rest : List Instr}
    (hcode : task.code = i :: rest) (hnew : ∀ j ∈ new, s.Allowed task.kind j)
    (hi : ∀ l, i ≠ .effect (.connectTarget l) ∧ i ≠ .effect (.cancelLease l))
    (hstop : ∀ l, i.Stops l → ∃ j ∈ new, j.Stops l) : (s.setCode t (new ++ rest)).Inv := by
  refine h.setCode ht ?_ ?_ ?_ ?_
  · intro j hj
    rcases List.mem_append.mp hj with hj | hj
    · exact hnew j hj
    · exact h.allowed t task ht j (by rw [hcode]; exact List.mem_cons_of_mem _ hj)
  · intro _ l hm
    rw [hcode] at hm
    exact Or.inl (List.mem_append_right _ ((List.mem_cons.mp hm).resolve_left (hi l).1.symm))
  · intro _ l hm _
    rw [hcode] at hm
    exact Or.inl (List.mem_append_right _ ((List.mem_cons.mp hm).resolve_left (hi l).2.symm))
  · intro _ l j hm hj
    rw [hcode] at hm
    rcases List.mem_cons.mp hm with rfl | hm
    · obtain ⟨k, hk, hs⟩ := hstop l hj
      exact ⟨k, List.mem_append_left _ hk, hs⟩
    · exact ⟨j, List.mem_append_right _ hm, hj⟩

theorem Inv.popHead (h : s.Inv) (ht : s.tasks[t]? = some task) {rest : List Instr}
    (hcode : task.code = i :: rest)
    (hi : ∀ l, i ≠ .effect (.connectTarget l) ∧ i ≠ .effect (.cancelLease l))
    (hstop : ∀ l, ¬ i.Stops l) : (s.setCode t rest).Inv :=
  h.replaceHead [] ht hcode (by simp) hi fun l hl => absurd hl (hstop l)

theorem Inv.clear (h : s.Inv) (ht : s.tasks[t]? = some task) (hk : task.kind ≠ .caller) :
    (s.setCode t []).Inv :=
  h.setCode ht (by simp) (fun hk' => absurd hk' hk) (fun hk' => absurd hk' hk) fun hk' => absurd hk' hk

theorem Inv.runEffect (h : s.Inv) (ht : s.tasks[t]? = some task) {rest : List Instr} {eff : AttachEffect}
    (hcode : task.code = .effect eff :: rest)
    (hsafe : ∀ l, eff = .cancelLease l → s.core.arbiter.Closing l → ¬ s.Owed (.effect (.connectTarget l))) :
    (s.runEffect t rest eff).Inv := by
  have hal : s.Allowed task.kind (.effect eff) := h.allowed t task ht _ (by rw [hcode]; exact List.mem_cons_self)
  have hrest : ∀ j ∈ rest, s.Allowed task.kind j := fun j hj =>
    h.allowed t task ht j (by rw [hcode]; exact List.mem_cons_of_mem _ hj)
  cases eff with
  | connectTarget l =>
      have hspawn : (s.spawn .connect [.connecting l]).Inv := h.spawn (by simp [Allowed])
      have hreg := hspawn.setLease_some l (r := .connecting s.nextTask) (by
        rintro t' ⟨⟩
        exact internal_nextTask (by simp) _)
      have ht' : ((s.spawn .connect [.connecting l]).setLease l (some (.connecting s.nextTask))).tasks[t]? =
          some task := getElem?_spawn_of_some ht
      refine hreg.setCode ht' ?_ ?_ ?_ ?_
      · intro j hj
        exact (hrest j hj).of_core rfl fun t ht => ht.spawn _ _
      · intro _ l' hm
        rw [hcode] at hm
        rcases List.mem_cons.mp hm with heq | hm
        · -- 始めた接続は、もう登録されている。
          obtain rfl := AttachEffect.connectTarget.inj (Instr.effect.inj heq)
          exact Or.inr (by rw [leases_setLease]; simp)
        · exact Or.inl hm
      · intro _ l' hm _
        rw [hcode] at hm
        exact Or.inl ((List.mem_cons.mp hm).resolve_left (by simp))
      · intro _ l' j hm hj
        rw [hcode] at hm
        rcases List.mem_cons.mp hm with rfl | hm
        · rcases hj with hj | ⟨_, hj⟩ <;> cases hj
        · exact ⟨j, hm, hj⟩
  | cancelLease l =>
      have hstops : ∀ l' j, j ∈ task.code → j.Stops l' → j ∈ rest := by
        intro l' j hm hj
        rw [hcode] at hm
        rcases List.mem_cons.mp hm with rfl | hm
        · rcases hj with hj | ⟨_, hj⟩ <;> cases hj
        · exact hm
      -- 資源を取り出した接続のタスクは、停止を告げる仕事 `i` を引き受ける。
      have htake {i : Instr} (hi : i.Stops l) (hia : s.Allowed task.kind i) : (s.setCode t (i :: rest)).Inv := by
        refine h.setCode ht ?_ ?_ ?_ ?_
        · intro j hj
          rcases List.mem_cons.mp hj with rfl | hj
          · exact hia
          · exact hrest j hj
        · intro _ l' hm
          rw [hcode] at hm
          exact Or.inl (List.mem_cons_of_mem _ ((List.mem_cons.mp hm).resolve_left (by simp)))
        · intro _ l' hm _
          rw [hcode] at hm
          rcases List.mem_cons.mp hm with heq | hm
          · obtain rfl := AttachEffect.cancelLease.inj (Instr.effect.inj heq)
            exact Or.inr (Or.inl ⟨i, List.mem_cons_self, hi⟩)
          · exact Or.inl (List.mem_cons_of_mem _ hm)
        · intro _ l' j hm hj
          exact ⟨j, List.mem_cons_of_mem _ (hstops l' j hm hj), hj⟩
      have hfly : ¬ s.core.arbiter.Flying l := by
        rcases hal.1 with hc | hs
        · exact hc.not_flying h.core.arbiter
        · exact hs.not_flying
      have howed {i : Instr} (hc : s.core.arbiter.Closing l) : (s.setCode t (i :: rest)).Owed i := by
        refine owed_setCode_of_mem ht ?_ List.mem_cons_self
        by_contra hk
        exact (hal.2 hk).not_closing hc
      simp only [AttachRuntime.runEffect]
      cases hl : s.leases l with
      | none =>
          refine h.setCode ht hrest ?_ ?_ ?_
          · intro _ l' hm
            rw [hcode] at hm
            exact Or.inl ((List.mem_cons.mp hm).resolve_left (by simp))
          · intro _ l' hm hc
            rw [hcode] at hm
            rcases List.mem_cons.mp hm with heq | hm
            · -- 登録も `start_connect` も無いなら、停止は別の仕事が告げる。
              obtain rfl := AttachEffect.cancelLease.inj (Instr.effect.inj heq)
              refine Or.inr (Or.inr ?_)
              rintro (hne | ho)
              · exact hne hl
              · exact hsafe l' rfl hc ho
            · exact Or.inl hm
          · intro _ l' j hm hj
            exact ⟨j, hstops l' j hm hj, hj⟩
      | some r =>
          have hres := h.resource l r hl
          cases r with
          | connecting task' =>
              have hi : (Instr.awaitTask task' l).Stops l := Or.inr ⟨task', rfl⟩
              refine ((htake hi hal.2).abort ((hres task' rfl).setCode t _)).setLease_none hfly ?_
              intro hc
              exact ⟨_, hi, (howed hc).abort task'⟩
          | pendingTarget timer =>
              have hi : (Instr.apply (.leaseStopped l)).Stops l := Or.inl rfl
              have hia : s.Allowed task.kind (.apply (.leaseStopped l)) := fun hk =>
                Or.inr (Or.inr (Or.inr ⟨l, rfl, hal.2 hk⟩))
              refine ((htake hi hia).abortTimer fun t' ht' => (hres t' ht').setCode t _).setLease_none ?_ ?_
              · cases timer <;> exact hfly
              · intro hc
                refine ⟨_, hi, ?_⟩
                cases timer with
                | none => exact howed hc
                | some t' => exact (howed hc).abort t'
  | schedulePendingTimeout l =>
      have hspawn : (s.spawn .timer [.sleep l]).Inv := h.spawn (by simp [Allowed])
      refine hspawn.replaceHead [.storeTimer l s.nextTask] (getElem?_spawn_of_some ht) hcode ?_
        (by simp) ?_
      · intro j hj
        rw [List.mem_singleton.mp hj]
        exact internal_nextTask (by simp) _
      · rintro l' (hj | ⟨_, hj⟩) <;> cases hj
  | sendReady | sendReject | startRelay =>
      refine h.popHead ht hcode (by simp) ?_
      rintro l' (hj | ⟨_, hj⟩) <;> cases hj

/-- 返された作用は、接続のタスクか、内部のイベントを適用した内部のタスクが引き受けてよい。 -/
theorem allowed_effects (h : s.Inv) {kind : TaskKind} {event : ServeEvent}
    (hk : kind ≠ .caller → s.core.Internal event) :
    ∀ j ∈ (s.applyCore event).2.map Instr.effect, (s.applyCore event).1.Allowed kind j := by
  have hev : AttachArbiter.Evolves s.core.arbiter (s.applyCore event).1.core.arbiter
      (s.applyCore event).2 := ServeAggregate.apply_evolves h.core event
  intro j hj
  obtain ⟨eff, heff, rfl⟩ := List.mem_map.mp hj
  cases eff with
  | connectTarget l =>
      by_contra hne
      exact ((hk hne).effects h.core).1 l heff
  | cancelLease l => exact ⟨hev.cancelled l heff, fun hne => ((hk hne).effects h.core).2 l heff⟩
  | sendReady | sendReject | schedulePendingTimeout | startRelay => trivial

theorem Inv.applyEvent (h : s.Inv) (ht : s.tasks[t]? = some task) {rest : List Instr} {event : ServeEvent}
    (hcode : task.code = .apply event :: rest) :
    ((s.applyCore event).1.setCode t ((s.applyCore event).2.map .effect ++ rest)).Inv := by
  have hal : s.Allowed task.kind (.apply event) := h.allowed t task ht _ (by rw [hcode]; exact List.mem_cons_self)
  refine h.applyCore ht hcode event (allowed_effects h hal) ?_ ?_ (by simp) ?_
  · intro l hm
    refine ⟨?_, List.mem_map_of_mem hm⟩
    by_contra hne
    exact ((hal hne).effects h.core).1 l hm
  · intro l hm
    by_cases hk : task.kind = .caller
    · exact Or.inl ⟨hk, List.mem_map_of_mem hm⟩
    · exact Or.inr (((hal hk).effects h.core).2 l hm)
  · rintro l (heq | ⟨_, heq⟩)
    · obtain rfl := Instr.apply.inj heq
      exact ServeAggregate.not_closing_leaseStopped h.core l
    · cases heq

theorem Inv.activate (h : s.Inv) (ht : s.tasks[t]? = some task) {rest : List Instr} {key : AttachKey}
    {token : AttachToken} {grace : Option UInt32} (hcode : task.code = .activate key token grace :: rest) :
    ((s.applyCore (.activated key token grace)).1.setCode t
      ((s.applyCore (.activated key token grace)).2.filterMap relayInstr ++ rest)).Inv := by
  have hk : task.kind = .caller :=
    h.allowed t task ht (.activate key token grace) (by rw [hcode]; exact List.mem_cons_self)
  have hev : AttachArbiter.Evolves s.core.arbiter
      (s.applyCore (.activated key token grace)).1.core.arbiter
      (s.applyCore (.activated key token grace)).2 := ServeAggregate.apply_evolves h.core (.activated key token grace)
  -- 承認が出すロックの外の作用は `StartRelay` だけである。
  have heffs : ∀ eff ∈ (s.applyCore (.activated key token grace)).2, ∃ l target, eff = .startRelay l target := by
    rcases ServeAggregate.onActivated_cases h.core key token grace with heq | ⟨l, target, -, heq⟩ <;>
      simp [AttachRuntime.applyCore, ServeAggregate.apply, heq, attachEffects]
  refine h.applyCore ht hcode _ ?_ ?_ ?_ (by simp) ?_
  · intro j hj
    obtain ⟨eff, heff, hsome⟩ := List.mem_filterMap.mp hj
    obtain ⟨l, target, rfl⟩ := heffs eff heff
    obtain rfl := Option.some.inj hsome
    exact ⟨hk, hev.relayed l target heff⟩
  · intro l hm
    obtain ⟨_, _, heq⟩ := heffs _ hm
    cases heq
  · intro l hm
    obtain ⟨_, _, heq⟩ := heffs _ hm
    cases heq
  · rintro l (heq | ⟨_, heq⟩) <;> cases heq

theorem Inv.connectFailed (h : s.Inv) (ht : s.tasks[t]? = some task) {rest : List Instr}
    (hcode : task.code = .connectFailed lease :: rest) :
    ((s.applyCore (.targetConnectFailed lease)).1.setCode t
      ((if (s.applyCore (.targetConnectFailed lease)).2.isEmpty then [] else [.forgetConnecting lease]) ++
        (s.applyCore (.targetConnectFailed lease)).2.map .effect ++ rest)).Inv := by
  have hint : s.core.Internal (.targetConnectFailed lease) := Or.inr (Or.inr (Or.inl ⟨lease, rfl⟩))
  refine h.applyCore ht hcode _ ?_ ?_ ?_ (by simp) ?_
  · intro j hj
    rcases List.mem_append.mp hj with hj | hj
    · split at hj
      · cases hj
      · rename_i hne
        obtain rfl := List.mem_singleton.mp hj
        exact ServeAggregate.settled_targetConnectFailed h.core (by simpa [AttachRuntime.applyCore] using hne)
    · exact allowed_effects h (fun _ => hint) j hj
  · intro l hm
    exact absurd hm ((hint.effects h.core).1 l)
  · intro l hm
    exact Or.inr ((hint.effects h.core).2 l hm)
  · rintro l (heq | ⟨_, heq⟩) <;> cases heq

theorem Inv.runInstr (h : s.Inv) (ht : s.tasks[t]? = some task) {rest : List Instr}
    (hcode : task.code = i :: rest)
    (hsafe : ∀ l, i = .effect (.cancelLease l) → s.core.arbiter.Closing l →
      ¬ s.Owed (.effect (.connectTarget l)))
    (hstep : s.runInstr t rest i = some s') : s'.Inv := by
  have hal : s.Allowed task.kind i := h.allowed t task ht _ (by rw [hcode]; exact List.mem_cons_self)
  cases i with
  | apply event =>
      obtain rfl := Option.some.inj hstep
      exact h.applyEvent ht hcode
  | activate key token grace =>
      obtain rfl := Option.some.inj hstep
      exact h.activate ht hcode
  | effect eff =>
      obtain rfl := Option.some.inj hstep
      exact h.runEffect ht hcode fun l hl => hsafe l (by rw [hl])
  | startRelay l =>
      obtain ⟨hk, hset⟩ := hal
      have hnone := h.setLease_none_of_settled hset
      have hstop : ∀ l', ¬ (Instr.startRelay l).Stops l' := by
        rintro l' (hj | ⟨_, hj⟩) <;> cases hj
      -- 資源が無い場合は、確立した slot を解放する。
      have hrelease {s₁ : AttachRuntime} (h₁ : s₁.Inv) (ht₁ : ∃ task₁, s₁.tasks[t]? = some task₁ ∧
          task₁.kind = task.kind ∧ task₁.code = task.code) :
          (s₁.setCode t (.apply (.relayEnded l) :: rest)).Inv := by
        obtain ⟨task₁, ht₁, hk₁, hc₁⟩ := ht₁
        refine h₁.replaceHead [.apply (.relayEnded l)] ht₁ (hc₁.trans hcode) ?_ (by simp)
          fun l' hl' => absurd hl' (hstop l')
        intro j hj
        rw [List.mem_singleton.mp hj]
        exact fun hne => absurd (hk₁.trans hk) hne
      simp only [AttachRuntime.runInstr] at hstep
      cases hl : s.leases l with
      | none =>
          rw [hl] at hstep
          obtain rfl := Option.some.inj hstep
          exact hrelease h ⟨task, ht, rfl, rfl⟩
      | some r =>
          have hres := h.resource l r hl
          rw [hl] at hstep
          cases r with
          | connecting task' =>
              obtain rfl := Option.some.inj hstep
              refine hrelease (hnone.abort (hres task' rfl)) ?_
              rw [getElem?_abort, show (s.setLease l none).tasks[t]? = some task from ht]
              exact ⟨_, rfl, by split <;> rfl, by split <;> rfl⟩
          | pendingTarget timer =>
              obtain rfl := Option.some.inj hstep
              have habort : ((s.setLease l none).abortTimer timer).Inv := hnone.abortTimer fun t' ht' => hres t' ht'
              cases timer with
              | none => exact habort.popHead ht hcode (by simp) hstop
              | some t' =>
                  have ht' : ((s.setLease l none).abort t').tasks[t]? =
                      some (if t' = t then { task with aborted := true } else task) := by
                    rw [getElem?_abort, show (s.setLease l none).tasks[t]? = some task from ht]
                    rfl
                  refine habort.popHead ht' ?_ (by simp) hstop
                  split <;> exact hcode
  | connecting l => cases hstep
  | storeTarget l target token =>
      simp only [AttachRuntime.runInstr] at hstep
      split at hstep
      · obtain rfl := Option.some.inj hstep
        refine (h.setLease_some l (r := .pendingTarget none) (by rintro t' ⟨⟩)).replaceHead
          [.apply (.targetConnected l target token)] ht hcode ?_ (by simp) ?_
        · intro j hj
          rw [List.mem_singleton.mp hj]
          exact fun _ => Or.inl ⟨l, target, token, rfl⟩
        · rintro l' (hj | ⟨_, hj⟩) <;> cases hj
      · obtain rfl := Option.some.inj hstep
        exact h.clear ht hal
  | connectFailed l =>
      obtain rfl := Option.some.inj hstep
      exact h.connectFailed ht hcode
  | forgetConnecting l =>
      have hstop : ∀ l', ¬ (Instr.forgetConnecting l).Stops l' := by
        rintro l' (hj | ⟨_, hj⟩) <;> cases hj
      simp only [AttachRuntime.runInstr] at hstep
      split at hstep
      · obtain rfl := Option.some.inj hstep
        exact (h.setLease_none_of_settled hal).popHead ht hcode (by simp) hstop
      · obtain rfl := Option.some.inj hstep
        exact h.popHead ht hcode (by simp) hstop
  | awaitTask task' l =>
      simp only [AttachRuntime.runInstr] at hstep
      split at hstep
      · obtain rfl := Option.some.inj hstep
        refine h.replaceHead [.apply (.leaseStopped l)] ht hcode ?_ (by simp) ?_
        · intro j hj
          rw [List.mem_singleton.mp hj]
          exact fun hne => Or.inr (Or.inr (Or.inr ⟨l, rfl, hal hne⟩))
        · rintro l' (hj | ⟨_, hj⟩)
          · cases hj
          · cases hj
            exact ⟨_, List.mem_cons_self, Or.inl rfl⟩
      · cases hstep
  | storeTimer l timer =>
      have hstop : ∀ l', ¬ (Instr.storeTimer l timer).Stops l' := by
        rintro l' (hj | ⟨_, hj⟩) <;> cases hj
      -- 記録する資源が無ければ、起こした timer を中断する。
      have habort : ((s.abort timer).setCode t rest).Inv := by
        have ht' : (s.abort timer).tasks[t]? =
            some (if timer = t then { task with aborted := true } else task) := by
          rw [getElem?_abort, ht]; rfl
        refine (h.abort hal).popHead ht' ?_ (by simp) hstop
        split <;> exact hcode
      simp only [AttachRuntime.runInstr] at hstep
      split at hstep <;> obtain rfl := Option.some.inj hstep
      · refine (h.setLease_some l (r := .pendingTarget (some timer)) ?_).popHead ht hcode (by simp) hstop
        rintro t' ⟨⟩
        exact hal
      · exact habort
      · exact habort
  | sleep l =>
      obtain rfl := Option.some.inj hstep
      refine h.replaceHead [.apply (.pendingExpired l)] ht hcode ?_ (by simp) ?_
      · intro j hj
        rw [List.mem_singleton.mp hj]
        exact fun _ => Or.inr (Or.inl ⟨l, rfl⟩)
      · rintro l' (hj | ⟨_, hj⟩) <;> cases hj

theorem exists_task_of_code {rest : List Instr} (h : s.code t = i :: rest) :
    ∃ task : Task, s.tasks[t]? = some task ∧ task.code = i :: rest := by
  unfold AttachRuntime.code at h
  cases ht : s.tasks[t]? with
  | none => simp [ht] at h
  | some task => exact ⟨task, rfl, by simpa [ht] using h⟩

theorem not_owed_of_connectStarted (h : s.ConnectStarted lease) :
    ¬ s.Owed (.effect (.connectTarget lease)) := by
  rintro ⟨t, task, ht, -, hm⟩
  exact h task (List.mem_of_getElem? ht) hm

/-- `cancel_lease` が `start_connect` より先に表を引かない限り、どの動作も不変条件を保つ。 -/
theorem Inv.step (h : s.Inv) {choice : Choice} (hs : s.Step choice s')
    (hsafe : s.CancelsAfterConnect choice) : s'.Inv := by
  unfold Step AttachRuntime.step at hs
  cases choice with
  | call event =>
      simp only at hs
      split at hs
      · obtain rfl := Option.some.inj hs
        exact h.spawn (by simp [Allowed])
      · cases hs
  | callActivate key token grace =>
      obtain rfl := Option.some.inj hs
      exact h.spawn (by simp [Allowed])
  | run t =>
      simp only at hs
      cases hcode : s.code t with
      | nil => simp [hcode] at hs
      | cons i rest =>
          rw [hcode] at hs
          obtain ⟨task, ht, hc⟩ := exists_task_of_code hcode
          refine h.runInstr ht hc ?_ hs
          rintro l rfl hclosing
          exact not_owed_of_connectStarted (hsafe l rest hcode hclosing)
  | connected t token =>
      simp only at hs
      split at hs
      · rename_i l rest hcode
        obtain rfl := Option.some.inj hs
        obtain ⟨task, ht, hc⟩ := exists_task_of_code hcode
        have hal : s.Allowed task.kind (.connecting l) :=
          h.allowed t task ht _ (by rw [hc]; exact List.mem_cons_self)
        have h' := h.replaceHead [.storeTarget l ⟨s.nextTargetId⟩ token] ht hc
          (by intro j hj; rw [List.mem_singleton.mp hj]; exact hal) (by simp) (by rintro l' (hj | ⟨_, hj⟩) <;> cases hj)
        exact ⟨h'.core, h'.allowed, h'.aborted, h'.resource, h'.started, h'.stopping⟩
      · cases hs
  | refused t =>
      simp only at hs
      split at hs
      · rename_i l rest hcode
        obtain rfl := Option.some.inj hs
        obtain ⟨task, ht, hc⟩ := exists_task_of_code hcode
        exact h.replaceHead [.connectFailed l] ht hc (by simp [Allowed]) (by simp)
          (by rintro l' (hj | ⟨_, hj⟩) <;> cases hj)
      · cases hs
  | kill t =>
      simp only at hs
      split at hs
      · rename_i hab
        obtain rfl := Option.some.inj hs
        obtain ⟨task, ht, hab⟩ := (Option.any_eq_true _ _).mp hab
        exact h.clear ht (h.aborted t task ht hab)
      · cases hs

theorem Inv.run (h : s.Inv) {choices : List Choice}
    (hrun : Run (Guarded Step CancelsAfterConnect) s choices s') : s'.Inv :=
  Run.invariant_of_guarded (fun _ _ _ h hs hsafe => h.step hs hsafe) hrun h

instance (s : AttachRuntime) (lease : LeaseId) : Decidable (s.ConnectStarted lease) :=
  inferInstanceAs (Decidable (∀ task ∈ s.tasks, _))

/-- `cancel_lease` の前に、`start_connect` が残っていないことを確かめて進む。 -/
def checkedStep (s : AttachRuntime) (choice : Choice) : Option AttachRuntime :=
  match choice with
  | .run t =>
      match s.code t with
      | .effect (.cancelLease lease) :: _ => if s.ConnectStarted lease then s.step choice else none
      | _ => s.step choice
  | _ => s.step choice

theorem guarded_of_checkedStep {choice : Choice} (h : s.checkedStep choice = some s') :
    Guarded Step CancelsAfterConnect s choice s' := by
  cases choice with
  | run t =>
      simp only [checkedStep] at h
      split at h
      · rename_i l rest hcode
        split at h
        · rename_i hst
          refine ⟨h, ?_⟩
          intro l' rest' hcode' _
          obtain ⟨heq, -⟩ := List.cons.inj (hcode.symm.trans hcode')
          obtain rfl := AttachEffect.cancelLease.inj (Instr.effect.inj heq)
          exact hst
        · cases h
      · rename_i hne
        exact ⟨h, fun l rest hcode => absurd hcode (hne l rest)⟩
  | call | callActivate | connected | refused | kill => exact ⟨h, trivial⟩

/-- 仕事の残っていない状態では、停止を待つ lease は無い。 -/
theorem Inv.not_closing_of_quiescent (h : s.Inv) (hq : s.Quiescent) (lease : LeaseId) :
    ¬ s.core.arbiter.Closing lease := by
  have hnone {i : Instr} (hi : ∀ l, i ≠ .sleep l) : ¬ s.Owed i := by
    rintro ⟨t, task, ht, -, hm⟩
    rcases hq task (List.mem_of_getElem? ht) with hc | ⟨l, hc⟩
    · rw [hc] at hm; cases hm
    · rw [hc] at hm
      exact hi l (List.mem_singleton.mp hm)
  intro hc
  rcases h.stopping lease hc with ⟨ho, -⟩ | ⟨i, hi, ho⟩
  · exact hnone (by simp) ho
  · rcases hi with rfl | ⟨_, rfl⟩
    · exact hnone (by simp) ho
    · exact hnone (by simp) ho

/-! ## 停止が告げられること -/

theorem core_abortTimer (s : AttachRuntime) (timer : Option TaskId) : (s.abortTimer timer).core = s.core := by
  cases timer <;> rfl

theorem core_runEffect (s : AttachRuntime) (t : TaskId) (rest : List Instr) (eff : AttachEffect) :
    (s.runEffect t rest eff).core = s.core := by
  cases eff with
  | cancelLease lease =>
      simp only [runEffect]
      split
      · rfl
      · exact core_abortTimer _ _
      · rfl
  | connectTarget | sendReady | sendReject | schedulePendingTimeout | startRelay => rfl

/-- 先頭の仕事は、`core` を変えないか、1 つのイベントを適用する。`LeaseStopped` を適用するのは `apply` だけである。 -/
theorem core_runInstr {rest : List Instr} (hs : s.runInstr t rest i = some s') :
    s'.core = s.core ∨
      ∃ e, s'.core = (s.core.apply e).1 ∧ (i = .apply e ∨ ∀ lease, e ≠ .leaseStopped lease) := by
  cases i with
  | apply event =>
      obtain rfl := Option.some.inj hs
      exact Or.inr ⟨event, rfl, Or.inl rfl⟩
  | activate key token grace =>
      obtain rfl := Option.some.inj hs
      exact Or.inr ⟨.activated key token grace, rfl, Or.inr (by simp)⟩
  | effect eff =>
      obtain rfl := Option.some.inj hs
      exact Or.inl (core_runEffect s t rest eff)
  | startRelay lease =>
      simp only [runInstr] at hs
      split at hs <;> obtain rfl := Option.some.inj hs
      · exact Or.inl (core_abortTimer _ _)
      · exact Or.inl rfl
      · exact Or.inl rfl
  | connecting lease => cases hs
  | connectFailed lease =>
      obtain rfl := Option.some.inj hs
      exact Or.inr ⟨.targetConnectFailed lease, rfl, Or.inr (by simp)⟩
  | storeTarget | forgetConnecting | storeTimer =>
      simp only [runInstr] at hs
      split at hs <;> obtain rfl := Option.some.inj hs <;> exact Or.inl rfl
  | awaitTask task lease =>
      simp only [runInstr] at hs
      split at hs
      · obtain rfl := Option.some.inj hs
        exact Or.inl rfl
      · cases hs
  | sleep lease =>
      obtain rfl := Option.some.inj hs
      exact Or.inl rfl

theorem Inv.closing_step (h : s.Inv) {choice : Choice} (hs : s.Step choice s')
    (hc : s.core.arbiter.Closing lease) :
    s'.core.arbiter.Closing lease ∨
      ∃ t rest, choice = .run t ∧ s.code t = .apply (.leaseStopped lease) :: rest := by
  have hsame (hcore : s'.core = s.core) : s'.core.arbiter.Closing lease := by rw [hcore]; exact hc
  unfold Step AttachRuntime.step at hs
  cases choice with
  | call event =>
      simp only at hs
      split at hs
      · obtain rfl := Option.some.inj hs
        exact Or.inl hc
      · cases hs
  | callActivate key token grace =>
      obtain rfl := Option.some.inj hs
      exact Or.inl hc
  | run t =>
      simp only at hs
      cases hcode : s.code t with
      | nil => simp [hcode] at hs
      | cons i rest =>
          rw [hcode] at hs
          rcases core_runInstr hs with hcore | ⟨e, hcore, he⟩
          · exact Or.inl (hsame hcore)
          by_cases hstop : e = .leaseStopped lease
          · rcases he with rfl | hne
            · exact Or.inr ⟨t, rest, rfl, by rw [hcode, hstop]⟩
            · exact absurd hstop (hne lease)
          · rw [hcore]
            exact Or.inl (ServeAggregate.Waits.apply h.core ⟨h.core.arbiter, hc⟩ hstop).2
  | connected t token =>
      simp only at hs
      split at hs
      · obtain rfl := Option.some.inj hs
        exact Or.inl hc
      · cases hs
  | refused t =>
      simp only at hs
      split at hs
      · obtain rfl := Option.some.inj hs
        exact Or.inl hc
      · cases hs
  | kill t =>
      simp only at hs
      split at hs
      · obtain rfl := Option.some.inj hs
        exact Or.inl hc
      · cases hs

/-- 仕事の残っていない状態に至る実行は、停止を待つ lease の `LeaseStopped` を必ず適用する。 -/
theorem Inv.stopApplied (h : s.Inv) {choices : List Choice}
    (hrun : Run (Guarded Step CancelsAfterConnect) s choices s') (hq : s'.Quiescent)
    (hc : s.core.arbiter.Closing lease) : s.StopApplied choices lease := by
  induction hrun with
  | nil s => exact absurd hc (h.not_closing_of_quiescent hq lease)
  | @cons s choice s₁ choices s' hs _ ih =>
      rcases h.closing_step hs.1 hc with hc' | ⟨t, rest, rfl, hcode⟩
      · obtain ⟨before, t, after, s₂, rest, rfl, hbefore, hcode⟩ := ih (h.step hs.1 hs.2) hq hc'
        exact ⟨choice :: before, t, after, s₂, rest, rfl, .cons hs.1 hbefore, hcode⟩
      · exact ⟨[], t, choices, s, rest, rfl, .nil s, hcode⟩

end AttachRuntime

end IsekaiTerminal.Serve
