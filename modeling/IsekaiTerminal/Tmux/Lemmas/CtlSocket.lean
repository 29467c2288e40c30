import IsekaiTerminal.Tmux.CtlSocket

/-!
# ctl-socket のパスの不変条件

書かれている値は、進行中のどのパスより新しくない。書き込みに成功した最も新しいパスは、レジストリにも、登録されている
ウィンドウにも、書かれているか、より新しいパスがこれから書き込む。
-/

namespace IsekaiTerminal.Tmux

open Lib

variable {s : Shared} {ops ops' rest : List Op} {op op' : Op} {k : Choice} {m path : Nat} {locator : String}

/-! ## 進行中のパス -/

theorem Oldest.perm (h : Oldest ops m) (hp : ops.Perm ops') : Oldest ops' m := by
  intro op hop
  exact h op (hp.mem_iff.mpr hop)

theorem oldest_cons : Oldest (op :: rest) m ↔ (∀ q ∈ op.path?, m ≤ q) ∧ Oldest rest m := by
  rw [Oldest, List.forall_mem_cons]
  rfl

theorem Coming.perm (h : Coming ops m) (hp : ops.Perm ops') : Coming ops' m := by
  obtain ⟨op, hop, hq⟩ := h
  exact ⟨op, hp.mem_iff.mp hop, hq⟩

theorem Coming.le {n : Nat} (h : Coming ops m) (hn : n ≤ m) : Coming ops n := by
  obtain ⟨op, hop, q, hq, hle⟩ := h
  exact ⟨op, hop, q, hq, hn.trans hle⟩

theorem coming_cons : Coming (op :: rest) m ↔ (∃ q ∈ op.unwritten?, m ≤ q) ∨ Coming rest m := by
  rw [Coming, List.exists_mem_cons_iff]
  rfl

theorem path_of_unwritten {q : Nat} (h : q ∈ op.unwritten?) : q ∈ op.path? := by
  cases op with
  | locatorFor path | resolve locator path | setOption locator path => exact h
  | setCtlSocketPath path | notePendingCtlSocketPath path | ensureTabWindow | register locator => cases h

/-! ## 不変条件 -/

namespace Shared

/-- tmux かレジストリに書かれている値と、書き込みに成功したパス。 -/
def Holds (s : Shared) (v : Nat) : Prop :=
  (∃ locator, s.options locator = some v) ∨ s.ctlSocketPathFor = some v ∨ s.newest = some v

/-- 値 `v` は、進行中のパスと、退避したパスと、これからの接続のパスのどれよりも新しくない。 -/
structure Behind (s : Shared) (ops : List Op) (v : Nat) : Prop where
  pending : Oldest ops v
  noted : ∀ r ∈ s.pendingCtlSocketPath, v ≤ r
  connections : v < s.connections

theorem Advances.refl (s : Shared) : s.Advances s :=
  ⟨fun _ v hv => ⟨v, hv, le_rfl⟩, fun v hv => ⟨v, hv, le_rfl⟩⟩

structure Invariant (s : Shared) (ops : List Op) : Prop where
  fresh : ∀ op ∈ ops, ∀ q ∈ op.path?, q < s.connections
  freshNoted : ∀ r ∈ s.pendingCtlSocketPath, r < s.connections
  behind : ∀ v, s.Holds v → s.Behind ops v
  noted : ∀ r ∈ s.pendingCtlSocketPath, s.entry = none ∧ Oldest ops r
  noting : ∀ q, .notePendingCtlSocketPath q ∈ ops → s.entry = none
  resolving : ∀ l q, .resolve l q ∈ ops → ∃ e ∈ s.entry, e.locator = l
  setting : ∀ l q, .setOption l q ∈ ops → ∃ e ∈ s.entry, e.locator = l
  entered : s.newest.isSome = true → s.entry.isSome = true
  bounded : ∀ locator, ∀ v ∈ s.options locator, ∃ m ∈ s.newest, v ≤ m
  recording : ∀ q, .setCtlSocketPath q ∈ ops → s.entry.isSome = true ∧ (s.newest = some q ∨ Coming ops (q + 1))
  written : ∀ e ∈ s.entry, ∀ m ∈ s.newest, s.options e.locator = some m ∨ Coming ops m
  recorded : ∀ e ∈ s.entry, ∀ m ∈ s.newest,
    e.ctlSocketPath = some m ∨ .setCtlSocketPath m ∈ ops ∨ Coming ops m
  kept : ∀ e ∈ s.entry, ∀ m ∈ s.newest,
    (∃ c ∈ e.ctlSocketPath, m ≤ c) ∨ ∃ q, m ≤ q ∧ .setCtlSocketPath q ∈ ops

theorem Behind.perm {v : Nat} (h : s.Behind ops v) (hp : ops.Perm ops') : s.Behind ops' v :=
  ⟨h.pending.perm hp, h.noted, h.connections⟩

namespace Invariant

theorem start : Shared.start.Invariant [] where
  fresh _ hop := by cases hop
  freshNoted _ hr := by cases hr
  behind := by
    rintro v (⟨_, hv⟩ | hv | hv) <;> cases hv
  noted _ hr := by cases hr
  noting _ hq := by cases hq
  resolving _ _ hq := by cases hq
  setting _ _ hq := by cases hq
  entered h := by cases h
  bounded _ _ hv := by cases hv
  recording _ hq := by cases hq
  written _ he := by cases he
  recorded _ he := by cases he
  kept _ he := by cases he

theorem perm (h : s.Invariant ops) (hp : ops.Perm ops') : s.Invariant ops' where
  fresh op hop := h.fresh op (hp.mem_iff.mpr hop)
  freshNoted := h.freshNoted
  behind v hv := (h.behind v hv).perm hp
  noted r hr := (h.noted r hr).imp_right fun ho => ho.perm hp
  noting q hq := h.noting q (hp.mem_iff.mpr hq)
  resolving l q hq := h.resolving l q (hp.mem_iff.mpr hq)
  setting l q hq := h.setting l q (hp.mem_iff.mpr hq)
  entered := h.entered
  bounded := h.bounded
  recording q hq := (h.recording q (hp.mem_iff.mpr hq)).imp_right fun hr => hr.imp_right fun hc => hc.perm hp
  written e he m hm := (h.written e he m hm).imp_right fun hc => hc.perm hp
  recorded e he m hm := (h.recorded e he m hm).imp_right (Or.imp hp.mem_iff.mp fun hc => hc.perm hp)
  kept e he m hm := (h.kept e he m hm).imp_right fun ⟨q, hle, hq⟩ => ⟨q, hle, hp.mem_iff.mp hq⟩

/-- 操作 `op` を、同じパスの操作 `op'` に替える。 -/
theorem replace (h : s.Invariant (op :: rest)) (hpath : ∀ q ∈ op'.path?, q ∈ op.path?)
    (hcoming : ∀ m, Coming (op :: rest) m → Coming (op' :: rest) m) (hold : ∀ q, op ≠ .setCtlSocketPath q)
    (hnoting : ∀ q, op' = .notePendingCtlSocketPath q → s.entry = none)
    (hresolving : ∀ l q, op' = .resolve l q → ∃ e ∈ s.entry, e.locator = l)
    (hsetting : ∀ l q, op' = .setOption l q → ∃ e ∈ s.entry, e.locator = l)
    (hrecording : ∀ q, op' = .setCtlSocketPath q → s.entry.isSome = true ∧ Coming (op' :: rest) (q + 1)) :
    s.Invariant (op' :: rest) := by
  have holdest (m : Nat) (ho : Oldest (op :: rest) m) : Oldest (op' :: rest) m := by
    rw [oldest_cons] at ho ⊢
    exact ⟨fun q hq => ho.1 q (hpath q hq), ho.2⟩
  have hrest (q : Nat) (hq : .setCtlSocketPath q ∈ op :: rest) : .setCtlSocketPath q ∈ op' :: rest :=
    List.mem_cons_of_mem _ ((List.mem_cons.mp hq).resolve_left fun heq => hold q heq.symm)
  refine ⟨?_, h.freshNoted, fun v hv => ⟨holdest v (h.behind v hv).pending, (h.behind v hv).noted, (h.behind v hv).connections⟩,
    fun r hr => (h.noted r hr).imp_right (holdest r), ?_, ?_, ?_, h.entered, h.bounded, ?_, ?_, ?_, ?_⟩
  · intro op'' hop q hq
    rcases List.mem_cons.mp hop with rfl | hop
    · exact h.fresh op List.mem_cons_self q (hpath q hq)
    · exact h.fresh op'' (List.mem_cons_of_mem _ hop) q hq
  · intro q hq
    rcases List.mem_cons.mp hq with heq | hq
    · exact hnoting q heq.symm
    · exact h.noting q (List.mem_cons_of_mem _ hq)
  · intro l q hq
    rcases List.mem_cons.mp hq with heq | hq
    · exact hresolving l q heq.symm
    · exact h.resolving l q (List.mem_cons_of_mem _ hq)
  · intro l q hq
    rcases List.mem_cons.mp hq with heq | hq
    · exact hsetting l q heq.symm
    · exact h.setting l q (List.mem_cons_of_mem _ hq)
  · intro q hq
    rcases List.mem_cons.mp hq with heq | hq
    · exact (hrecording q heq.symm).imp_right Or.inr
    · exact (h.recording q (List.mem_cons_of_mem _ hq)).imp_right fun hr => hr.imp_right (hcoming _)
  · intro e he m hm
    exact (h.written e he m hm).imp_right (hcoming m)
  · intro e he m hm
    exact (h.recorded e he m hm).imp_right (Or.imp (hrest m) (hcoming m))
  · intro e he m hm
    refine (h.kept e he m hm).imp_right ?_
    rintro ⟨q, hle, hq⟩
    exact ⟨q, hle, hrest q hq⟩

/-- パスを運ばない操作が終わる。 -/
theorem drop (h : s.Invariant (.ensureTabWindow :: rest)) : s.Invariant rest := by
  have hmem (op : Op) (hop : op ≠ .ensureTabWindow) (hm : op ∈ Op.ensureTabWindow :: rest) : op ∈ rest :=
    (List.mem_cons.mp hm).resolve_left hop
  have hcoming (m : Nat) (hc : Coming (.ensureTabWindow :: rest) m) : Coming rest m := by
    refine (coming_cons.mp hc).resolve_left ?_
    rintro ⟨q, hq, -⟩
    cases hq
  refine ⟨fun op hop => h.fresh op (List.mem_cons_of_mem _ hop), h.freshNoted, ?_, ?_,
    fun q hq => h.noting q (List.mem_cons_of_mem _ hq), fun l q hq => h.resolving l q (List.mem_cons_of_mem _ hq),
    fun l q hq => h.setting l q (List.mem_cons_of_mem _ hq), h.entered, h.bounded, ?_, ?_, ?_, ?_⟩
  · intro v hv
    exact ⟨(oldest_cons.mp (h.behind v hv).pending).2, (h.behind v hv).noted, (h.behind v hv).connections⟩
  · intro r hr
    exact (h.noted r hr).imp_right fun ho => (oldest_cons.mp ho).2
  · intro q hq
    exact (h.recording q (List.mem_cons_of_mem _ hq)).imp_right fun hr => hr.imp_right (hcoming _)
  · intro e he m hm
    exact (h.written e he m hm).imp_right (hcoming m)
  · intro e he m hm
    exact (h.recorded e he m hm).imp_right (Or.imp (hmem _ (by simp)) (hcoming m))
  · intro e he m hm
    refine (h.kept e he m hm).imp_right ?_
    rintro ⟨q, hle, hq⟩
    exact ⟨q, hle, hmem _ (by simp) hq⟩

/-! ## 呼び出しの始まり -/

/-- 何も書き込んでいない操作 `op` を加える。 -/
theorem cons (h : s.Invariant ops) (hop : op.located = false) (hfresh : ∀ q ∈ op.path?, q < s.connections)
    (hbehind : ∀ q ∈ op.path?, (∀ v, s.Holds v → v ≤ q) ∧ ∀ r ∈ s.pendingCtlSocketPath, r ≤ q) :
    s.Invariant (op :: ops) := by
  have hcons (op' : Op) (hl : op'.located = true) (hm : op' ∈ op :: ops) : op' ∈ ops := by
    refine (List.mem_cons.mp hm).resolve_left ?_
    rintro rfl
    cases hop.symm.trans hl
  have hcoming (m : Nat) (hc : Coming ops m) : Coming (op :: ops) m := coming_cons.mpr (Or.inr hc)
  refine ⟨List.forall_mem_cons.mpr ⟨hfresh, h.fresh⟩, h.freshNoted, ?_, ?_, fun q hq => h.noting q (hcons _ rfl hq),
    fun l q hq => h.resolving l q (hcons _ rfl hq), fun l q hq => h.setting l q (hcons _ rfl hq), h.entered, h.bounded,
    ?_, ?_, ?_, ?_⟩
  · intro v hv
    exact ⟨oldest_cons.mpr ⟨fun q hq => (hbehind q hq).1 v hv, (h.behind v hv).pending⟩, (h.behind v hv).noted,
      (h.behind v hv).connections⟩
  · intro r hr
    exact (h.noted r hr).imp_right fun ho => oldest_cons.mpr ⟨fun q hq => (hbehind q hq).2 r hr, ho⟩
  · intro q hq
    exact (h.recording q (hcons _ rfl hq)).imp_right fun hr => hr.imp_right (hcoming _)
  · intro e he m hm
    exact (h.written e he m hm).imp_right (hcoming m)
  · intro e he m hm
    exact (h.recorded e he m hm).imp_right (Or.imp (List.mem_cons_of_mem _) (hcoming m))
  · intro e he m hm
    refine (h.kept e he m hm).imp_right ?_
    rintro ⟨q, hle, hq⟩
    exact ⟨q, hle, List.mem_cons_of_mem _ hq⟩

theorem connections (h : s.Invariant ops) : ({ s with connections := s.connections + 1 } : Shared).Invariant ops where
  fresh op hop q hq := (h.fresh op hop q hq).trans (Nat.lt_succ_self _)
  freshNoted r hr := (h.freshNoted r hr).trans (Nat.lt_succ_self _)
  behind v hv := ⟨(h.behind v hv).pending, (h.behind v hv).noted, (h.behind v hv).connections.trans (Nat.lt_succ_self _)⟩
  noted := h.noted
  noting := h.noting
  resolving := h.resolving
  setting := h.setting
  entered := h.entered
  bounded := h.bounded
  recording := h.recording
  written := h.written
  recorded := h.recorded
  kept := h.kept

theorem connect (h : s.Invariant ops) :
    ({ s with connections := s.connections + 1 } : Shared).Invariant (.locatorFor s.connections :: ops) := by
  refine h.connections.cons rfl ?_ ?_
  · rintro q ⟨⟩
    exact Nat.lt_succ_self _
  · rintro q ⟨⟩
    exact ⟨fun v hv => (h.behind v hv).connections.le, fun r hr => (h.freshNoted r hr).le⟩

/-! ## 操作の 1 歩 -/

theorem locatorFor (h : s.Invariant (.locatorFor path :: rest)) :
    (s.exec (.locatorFor path) k).1.Invariant ((s.exec (.locatorFor path) k).2.1 ++ rest) := by
  simp only [exec]
  split
  · rename_i e he
    refine h.replace (fun q hq => hq) ?_ (by simp) (by simp) ?_ (by simp) (by simp)
    · intro m hc
      rwa [coming_cons] at hc ⊢
    · rintro l q ⟨⟩
      exact ⟨e, he, rfl⟩
  · rename_i he
    -- 登録の前には、書き込みに成功したパスも、記録の途中のパスもない。
    have hnone (m : Nat) (hm : m ∈ s.newest) : False := by
      have hsome := h.entered (Option.isSome_iff_exists.mpr ⟨m, hm⟩)
      rw [he] at hsome
      cases hsome
    have hrecord (q : Nat) (hq : .setCtlSocketPath q ∈ rest) : False := by
      have hsome := (h.recording q (List.mem_cons_of_mem _ hq)).1
      rw [he] at hsome
      cases hsome
    have holdest (m : Nat) (ho : Oldest (.locatorFor path :: rest) m) :
        Oldest (.notePendingCtlSocketPath path :: rest) m := by
      rwa [oldest_cons] at ho ⊢
    refine ⟨?_, h.freshNoted, ?_, fun r hr => (h.noted r hr).imp_right (holdest r), fun _ _ => he, ?_, ?_, h.entered,
      h.bounded, ?_, ?_, ?_, ?_⟩
    · exact List.forall_mem_cons.mpr ⟨h.fresh (.locatorFor path) List.mem_cons_self, fun op hop => h.fresh op (List.mem_cons_of_mem _ hop)⟩
    · intro v hv
      exact ⟨holdest v (h.behind v hv).pending, (h.behind v hv).noted, (h.behind v hv).connections⟩
    · intro l q hq
      exact h.resolving l q (by simpa using hq)
    · intro l q hq
      exact h.setting l q (by simpa using hq)
    · intro q hq
      exact (hrecord q (by simpa using hq)).elim
    · exact fun _ _ m hm => (hnone m hm).elim
    · exact fun _ _ m hm => (hnone m hm).elim
    · exact fun _ _ m hm => (hnone m hm).elim

/-- 失敗したリモートのコマンドの代わりに、より新しいパスがこれから書き込む。 -/
theorem failed (h : s.Invariant (op :: rest)) (hunwritten : op.unwritten? = some path) (hentry : s.entry.isSome = true)
    (hc : Coming rest (path + 1)) : s.Invariant (.setCtlSocketPath path :: rest) := by
  refine h.replace ?_ ?_ ?_ (by simp) (by simp) (by simp) ?_
  · rintro q ⟨⟩
    exact path_of_unwritten hunwritten
  · intro m hm
    rcases coming_cons.mp hm with ⟨q, hq, hle⟩ | hm
    · obtain rfl := Option.some.inj (hunwritten.symm.trans hq)
      exact coming_cons.mpr (Or.inr (hc.le (hle.trans (Nat.le_succ _))))
    · exact coming_cons.mpr (Or.inr hm)
  · rintro q rfl
    cases hunwritten
  · rintro q ⟨⟩
    exact ⟨hentry, coming_cons.mpr (Or.inr hc)⟩

theorem isSome_entry {l : String} (h : ∃ e ∈ s.entry, e.locator = l) : s.entry.isSome = true := by
  obtain ⟨e, he, -⟩ := h
  exact Option.isSome_iff_exists.mpr ⟨e, he⟩

theorem resolve (h : s.Invariant (.resolve locator path :: rest)) (ho : (Op.resolve locator path).Ordered rest k) :
    (s.exec (.resolve locator path) k).1.Invariant ((s.exec (.resolve locator path) k).2.1 ++ rest) := by
  have hentry := h.resolving locator path List.mem_cons_self
  simp only [exec]
  split
  · refine h.replace (fun q hq => hq) ?_ (by simp) (by simp) (by simp) ?_ (by simp)
    · intro m hc
      rwa [coming_cons] at hc ⊢
    · rintro l q ⟨⟩
      exact hentry
  · rename_i hfail
    exact h.failed rfl (isSome_entry hentry) (ho (Bool.eq_false_iff.mpr hfail))

theorem notePendingCtlSocketPath (h : s.Invariant (.notePendingCtlSocketPath path :: rest))
    (ho : Oldest rest path) :
    ({ s with pendingCtlSocketPath := some path } : Shared).Invariant rest := by
  have hentry : s.entry = none := h.noting path List.mem_cons_self
  have hcoming (m : Nat) (hc : Coming (.notePendingCtlSocketPath path :: rest) m) : Coming rest m := by
    refine (coming_cons.mp hc).resolve_left ?_
    rintro ⟨q, hq, -⟩
    cases hq
  have hmem (op : Op) (hm : op ∈ rest) : op ∈ Op.notePendingCtlSocketPath path :: rest := List.mem_cons_of_mem _ hm
  refine ⟨fun op hop => h.fresh op (hmem op hop), ?_, ?_, ?_, fun q hq => h.noting q (hmem _ hq),
    fun l q hq => h.resolving l q (hmem _ hq), fun l q hq => h.setting l q (hmem _ hq), h.entered, h.bounded, ?_, ?_, ?_, ?_⟩
  · rintro r ⟨⟩
    exact h.fresh _ List.mem_cons_self path rfl
  · intro v hv
    obtain ⟨hpath, hrest⟩ := oldest_cons.mp (h.behind v hv).pending
    refine ⟨hrest, ?_, (h.behind v hv).connections⟩
    rintro r ⟨⟩
    exact hpath path rfl
  · rintro r ⟨⟩
    exact ⟨hentry, ho⟩
  · intro q hq
    exact (h.recording q (hmem _ hq)).imp_right fun hr => hr.imp_right (hcoming _)
  · exact fun e he => by cases hentry.symm.trans he
  · exact fun e he => by cases hentry.symm.trans he
  · exact fun e he => by cases hentry.symm.trans he

/-- 書かれている値は、これから書くパスより新しくない。 -/
theorem le_of_holds (h : s.Invariant (op :: rest)) (hop : path ∈ op.path?) {v : Nat} (hv : s.Holds v) : v ≤ path :=
  (oldest_cons.mp (h.behind v hv).pending).1 path hop

/-- 記録する。より新しいパスがこれから書き込むのでなければ、記録するパスが最も新しい。 -/
theorem setCtlSocketPath (h : s.Invariant (.setCtlSocketPath path :: rest)) (ho : Oldest rest path) :
    (s.setCtlSocketPath path).Invariant rest := by
  obtain ⟨hentry, hnewest⟩ := h.recording path List.mem_cons_self
  obtain ⟨e, he⟩ := Option.isSome_iff_exists.mp hentry
  have hcoming (m : Nat) (hc : Coming (.setCtlSocketPath path :: rest) m) : Coming rest m := by
    refine (coming_cons.mp hc).resolve_left ?_
    rintro ⟨q, hq, -⟩
    cases hq
  have hmem (op : Op) (hm : op ∈ rest) : op ∈ Op.setCtlSocketPath path :: rest := List.mem_cons_of_mem _ hm
  have hunnoted (r : Nat) (hr : r ∈ s.pendingCtlSocketPath) : False := by cases he.symm.trans (h.noted r hr).1
  have hset : (s.setCtlSocketPath path).entry = some { e with ctlSocketPath := some path } := by
    simp [Shared.setCtlSocketPath, he]
  refine ⟨fun op hop => h.fresh op (hmem op hop), h.freshNoted, ?_, fun r hr => (hunnoted r hr).elim, ?_, ?_, ?_, ?_,
    h.bounded, ?_, ?_, ?_, ?_⟩
  · intro v hv
    by_cases hold : s.Holds v
    · exact ⟨(oldest_cons.mp (h.behind v hold).pending).2, (h.behind v hold).noted, (h.behind v hold).connections⟩
    · obtain rfl : path = v := by
        rcases hv with hv | hv | hv
        · exact absurd (Or.inl hv) hold
        · simpa [ctlSocketPathFor, hset] using hv
        · exact absurd (Or.inr (Or.inr hv)) hold
      exact ⟨ho, fun r hr => (hunnoted r hr).elim, h.fresh _ List.mem_cons_self path rfl⟩
  · intro q hq
    cases he.symm.trans (h.noting q (hmem _ hq))
  · intro l q hq
    obtain ⟨e', he', hl⟩ := h.resolving l q (hmem _ hq)
    obtain rfl := Option.some.inj (he.symm.trans he')
    exact ⟨_, hset, hl⟩
  · intro l q hq
    obtain ⟨e', he', hl⟩ := h.setting l q (hmem _ hq)
    obtain rfl := Option.some.inj (he.symm.trans he')
    exact ⟨_, hset, hl⟩
  · intro _
    rw [hset]
    rfl
  · intro q hq
    refine ⟨by rw [hset]; rfl, ?_⟩
    exact (h.recording q (hmem _ hq)).2.imp_right (hcoming _)
  · intro e' he' m hm
    obtain rfl := Option.some.inj (hset.symm.trans he')
    exact (h.written e he m hm).imp_right (hcoming m)
  · intro e' he' m hm
    obtain rfl := Option.some.inj (hset.symm.trans he')
    rcases hnewest with hnew | hc
    · obtain rfl := Option.some.inj (hnew.symm.trans hm)
      exact Or.inl rfl
    · have hle := h.le_of_holds rfl (Or.inr (Or.inr hm))
      exact Or.inr (Or.inr ((hcoming _ hc).le (hle.trans (Nat.le_succ _))))
  · intro e' he' m hm
    obtain rfl := Option.some.inj (hset.symm.trans he')
    exact Or.inl ⟨path, rfl, h.le_of_holds rfl (Or.inr (Or.inr hm))⟩

theorem newest_written (h : s.Invariant (.setOption locator path :: rest)) :
    (s.written locator path).newest = some path := by
  unfold Shared.written
  cases hn : s.newest with
  | none => rfl
  | some n => exact congrArg some (max_eq_right (h.le_of_holds rfl (Or.inr (Or.inr hn))))

theorem options_written (s : Shared) (locator : String) (path : Nat) (l : String) :
    (s.written locator path).options l = if l = locator then some path else s.options l :=
  Function.update_apply s.options locator (some path) l

/-- 書き込みに成功したパスは、最も新しく、登録されているウィンドウに書かれ、これから記録される。 -/
theorem writes (h : s.Invariant (.setOption locator path :: rest)) (ho : Oldest rest path) :
    (s.written locator path).Invariant (.setCtlSocketPath path :: rest) := by
  obtain ⟨e, he, hl⟩ := h.setting locator path List.mem_cons_self
  have hnew := h.newest_written
  have hmem (op : Op) (hop : op ≠ .setCtlSocketPath path) (hm : op ∈ Op.setCtlSocketPath path :: rest) :
      op ∈ Op.setOption locator path :: rest :=
    List.mem_cons_of_mem _ ((List.mem_cons.mp hm).resolve_left hop)
  have hunnoted (r : Nat) (hr : r ∈ s.pendingCtlSocketPath) : False := by cases he.symm.trans (h.noted r hr).1
  have holdest (m : Nat) (ho : Oldest (.setOption locator path :: rest) m) :
      Oldest (.setCtlSocketPath path :: rest) m := by
    rwa [oldest_cons] at ho ⊢
  have hcoming (m : Nat) (hm : path < m) (hc : Coming (.setOption locator path :: rest) m) :
      Coming (.setCtlSocketPath path :: rest) m := by
    refine coming_cons.mpr (Or.inr ((coming_cons.mp hc).resolve_left ?_))
    rintro ⟨q, ⟨⟩, hle⟩
    omega
  refine ⟨?_, h.freshNoted, ?_, fun r hr => (hunnoted r hr).elim, fun q hq => h.noting q (hmem _ (by simp) hq),
    fun l q hq => h.resolving l q (hmem _ (by simp) hq), fun l q hq => h.setting l q (hmem _ (by simp) hq), ?_, ?_, ?_,
    ?_, ?_, ?_⟩
  · exact List.forall_mem_cons.mpr ⟨h.fresh (.setOption locator path) List.mem_cons_self, fun op hop => h.fresh op (List.mem_cons_of_mem _ hop)⟩
  · intro v hv
    by_cases hold : s.Holds v
    · exact ⟨holdest v (h.behind v hold).pending, (h.behind v hold).noted, (h.behind v hold).connections⟩
    · obtain rfl : path = v := by
        rcases hv with ⟨l, hv⟩ | hv | hv
        · rw [options_written] at hv
          split at hv
          · exact Option.some.inj hv
          · exact absurd (Or.inl ⟨l, hv⟩) hold
        · exact absurd (Or.inr (Or.inl hv)) hold
        · exact Option.some.inj (hnew.symm.trans hv)
      refine ⟨oldest_cons.mpr ⟨?_, ho⟩, fun r hr => (hunnoted r hr).elim, h.fresh (.setOption locator path) List.mem_cons_self path rfl⟩
      rintro q ⟨⟩
      exact le_rfl
  · exact fun _ => Option.isSome_iff_exists.mpr ⟨e, he⟩
  · intro l v hv
    refine ⟨path, hnew, ?_⟩
    rw [options_written] at hv
    split at hv
    · exact (Option.some.inj hv).ge
    · exact h.le_of_holds rfl (Or.inl ⟨l, hv⟩)
  · intro q hq
    refine ⟨Option.isSome_iff_exists.mpr ⟨e, he⟩, ?_⟩
    rcases List.mem_cons.mp hq with heq | hq
    · obtain rfl := Op.setCtlSocketPath.inj heq
      exact Or.inl hnew
    · have hle : path ≤ q := ho _ hq q rfl
      rcases (h.recording q (List.mem_cons_of_mem _ hq)).2 with hnewest | hc
      · obtain rfl : q = path := le_antisymm (h.le_of_holds rfl (Or.inr (Or.inr hnewest))) hle
        exact Or.inl hnew
      · exact Or.inr (hcoming _ (Nat.lt_succ_of_le hle) hc)
  · intro e' he' m hm
    obtain rfl := Option.some.inj (he.symm.trans he')
    obtain rfl := Option.some.inj (hnew.symm.trans hm)
    left
    rw [options_written, if_pos hl]
  · intro _ _ m hm
    obtain rfl := Option.some.inj (hnew.symm.trans hm)
    exact Or.inr (Or.inl List.mem_cons_self)
  · intro _ _ m hm
    obtain rfl := Option.some.inj (hnew.symm.trans hm)
    exact Or.inr ⟨path, le_rfl, List.mem_cons_self⟩

theorem setOption (h : s.Invariant (.setOption locator path :: rest)) (ho : (Op.setOption locator path).Ordered rest k) :
    (s.exec (.setOption locator path) k).1.Invariant ((s.exec (.setOption locator path) k).2.1 ++ rest) := by
  simp only [exec]
  split
  · rename_i hok
    exact h.writes (ho.1 hok)
  · rename_i hfail
    exact h.failed rfl (isSome_entry (h.setting locator path List.mem_cons_self)) (ho.2 (Bool.eq_false_iff.mpr hfail))

/-- 登録のときは、登録済みの項目のパスが、書き込みに成功した最も新しいパスより古くない。 -/
theorem le_ctlSocketPath (h : s.Invariant (.register locator :: rest)) (ho : ∀ op ∈ rest, op.located = false)
    {e : TmuxTabEntry} (he : s.entry = some e) (hm : s.newest = some m) : ∃ c, e.ctlSocketPath = some c ∧ m ≤ c := by
  rcases h.kept e he m hm with hc | ⟨q, -, hq⟩
  · exact hc
  · cases ho _ ((List.mem_cons.mp hq).resolve_left (by simp))

theorem register_none (h : s.Invariant (.register locator :: rest)) (ho : ∀ op ∈ rest, op.located = false)
    (hr : s.recovered = none) :
    ({ s with entry := some ⟨locator, none⟩, pendingCtlSocketPath := none } : Shared).Invariant rest := by
  have hmem (op : Op) (hm : op ∈ rest) : op ∈ Op.register locator :: rest := List.mem_cons_of_mem _ hm
  -- 書き込みに成功したパスがあれば、項目のパスを引き継ぐ。
  have hnone : s.newest = none := by
    cases hm : s.newest with
    | none => rfl
    | some m =>
        obtain ⟨e, he⟩ := Option.isSome_iff_exists.mp (h.entered (by rw [hm]; rfl))
        obtain ⟨c, hc, -⟩ := h.le_ctlSocketPath ho he hm
        simp [recovered, ctlSocketPathFor, he, hc] at hr
  have hholds (v : Nat) (hv : ({ s with entry := some ⟨locator, none⟩, pendingCtlSocketPath := none } : Shared).Holds v) :
      s.Holds v := by
    rcases hv with hv | hv | hv
    · exact Or.inl hv
    · cases hv
    · exact Or.inr (Or.inr hv)
  have hlocated (op : Op) (hl : op.located = true) (hm : op ∈ rest) : False := by cases hl.symm.trans (ho op hm)
  refine ⟨fun op hop => h.fresh op (hmem op hop), fun _ hr => (by cases hr), ?_, fun _ hr => (by cases hr),
    fun q hq => (hlocated _ rfl hq).elim, fun l q hq => (hlocated _ rfl hq).elim, fun l q hq => (hlocated _ rfl hq).elim,
    fun _ => rfl, h.bounded, fun q hq => (hlocated _ rfl hq).elim, ?_, ?_, ?_⟩
  · intro v hv
    have hb := h.behind v (hholds v hv)
    exact ⟨(oldest_cons.mp hb.pending).2, fun _ hr => (by cases hr), hb.connections⟩
  · exact fun _ _ m hm => by cases hnone.symm.trans hm
  · exact fun _ _ m hm => by cases hnone.symm.trans hm
  · exact fun _ _ m hm => by cases hnone.symm.trans hm

/-- 引き継いだパスは、書かれているどの値よりも古くなく、進行中のどのパスよりも新しくない。 -/
theorem recovered_between (h : s.Invariant (.register locator :: rest)) (ho : ∀ op ∈ rest, op.located = false) {r : Nat}
    (hr : s.recovered = some r) : (∀ v, s.Holds v → v ≤ r) ∧ Oldest rest r ∧ r < s.connections := by
  cases hp : s.pendingCtlSocketPath with
  | some q =>
      obtain rfl : q = r := by simpa [recovered, hp] using hr
      exact ⟨fun v hv => (h.behind v hv).noted q hp, (oldest_cons.mp (h.noted q hp).2).2, h.freshNoted q hp⟩
  | none =>
      have hc : s.ctlSocketPathFor = some r := by simpa [recovered, hp] using hr
      have hb := h.behind r (Or.inr (Or.inl hc))
      obtain ⟨e, he, hpath⟩ := Option.bind_eq_some_iff.mp hc
      have hnewest (m : Nat) (hm : s.newest = some m) : m ≤ r := by
        obtain ⟨c, hc', hle⟩ := h.le_ctlSocketPath ho he hm
        obtain rfl := Option.some.inj (hpath.symm.trans hc')
        exact hle
      refine ⟨?_, (oldest_cons.mp hb.pending).2, hb.connections⟩
      rintro v (⟨l, hv⟩ | hv | hv)
      · obtain ⟨m, hm, hle⟩ := h.bounded l v hv
        exact hle.trans (hnewest m hm)
      · exact (Option.some.inj (hv.symm.trans hc)).le
      · exact hnewest v hv

/-- 引き継いだパスは登録した項目が持ち、これから tmux に書き込む。 -/
theorem register_some (h : s.Invariant (.register locator :: rest)) (ho : ∀ op ∈ rest, op.located = false) {r : Nat}
    (hr : s.recovered = some r) :
    ({ s with entry := some ⟨locator, some r⟩, pendingCtlSocketPath := none } : Shared).Invariant
      (.locatorFor r :: rest) := by
  obtain ⟨hle, holdest, hlt⟩ := h.recovered_between ho hr
  have hlocated (op : Op) (hl : op.located = true) (hm : op ∈ Op.locatorFor r :: rest) : False := by
    rcases List.mem_cons.mp hm with rfl | hm
    · cases hl
    · cases hl.symm.trans (ho op hm)
  have hcoming (m : Nat) (hm : s.newest = some m) : Coming (.locatorFor r :: rest) m :=
    coming_cons.mpr (Or.inl ⟨r, rfl, hle m (Or.inr (Or.inr hm))⟩)
  refine ⟨?_, fun _ hr => (by cases hr), ?_, fun _ hr => (by cases hr), fun q hq => (hlocated _ rfl hq).elim,
    fun l q hq => (hlocated _ rfl hq).elim, fun l q hq => (hlocated _ rfl hq).elim, fun _ => rfl, h.bounded,
    fun q hq => (hlocated _ rfl hq).elim, fun _ _ m hm => Or.inr (hcoming m hm),
    fun _ _ m hm => Or.inr (Or.inr (hcoming m hm)), ?_⟩
  · refine List.forall_mem_cons.mpr ⟨?_, fun op hop => h.fresh op (List.mem_cons_of_mem _ hop)⟩
    rintro q ⟨⟩
    exact hlt
  · intro v hv
    by_cases hold : s.Holds v
    · have hb := h.behind v hold
      refine ⟨oldest_cons.mpr ⟨?_, (oldest_cons.mp hb.pending).2⟩, fun _ hr => (by cases hr), hb.connections⟩
      rintro q ⟨⟩
      exact hle v hold
    · obtain rfl : r = v := by
        rcases hv with hv | hv | hv
        · exact absurd (Or.inl hv) hold
        · exact Option.some.inj hv
        · exact absurd (Or.inr (Or.inr hv)) hold
      refine ⟨oldest_cons.mpr ⟨?_, holdest⟩, fun _ hr => (by cases hr), hlt⟩
      rintro q ⟨⟩
      exact le_rfl
  · rintro e ⟨⟩ m hm
    exact Or.inl ⟨r, rfl, hle m (Or.inr (Or.inr hm))⟩

theorem register (h : s.Invariant (.register locator :: rest)) (ho : ∀ op ∈ rest, op.located = false) :
    (s.register locator).1.Invariant ((s.register locator).2 ++ rest) := by
  cases hr : s.recovered with
  | none =>
      rw [Shared.register, hr]
      exact h.register_none ho hr
  | some r =>
      rw [Shared.register, hr]
      exact h.register_some ho hr

theorem exec (h : s.Invariant (op :: rest)) (ho : op.Ordered rest k) :
    (s.exec op k).1.Invariant ((s.exec op k).2.1 ++ rest) := by
  cases op with
  | locatorFor path => exact h.locatorFor
  | resolve locator path => exact h.resolve ho
  | setOption locator path => exact h.setOption ho
  | setCtlSocketPath path => exact h.setCtlSocketPath ho
  | notePendingCtlSocketPath path => exact h.notePendingCtlSocketPath ho
  | ensureTabWindow =>
      simp only [Shared.exec]
      split
      · exact h.drop.cons rfl (fun _ hq => by cases hq) fun _ hq => by cases hq
      · exact h.drop
  | register locator => exact h.register ho

/-- どの操作も、書かれた値を古くしない。 -/
theorem advances (h : s.Invariant (op :: rest)) : s.Advances (s.exec op k).1 := by
  cases op with
  | locatorFor path =>
      simp only [Shared.exec]
      split <;> exact .refl s
  | resolve locator path => exact .refl s
  | setOption locator path =>
      simp only [Shared.exec]
      split
      · refine ⟨?_, fun v hv => ⟨v, hv, le_rfl⟩⟩
        intro l v hv
        rw [options_written]
        split
        · exact ⟨path, rfl, h.le_of_holds rfl (Or.inl ⟨l, hv⟩)⟩
        · exact ⟨v, hv, le_rfl⟩
      · exact .refl s
  | setCtlSocketPath path =>
      refine ⟨fun _ v hv => ⟨v, hv, le_rfl⟩, ?_⟩
      intro v hv
      obtain ⟨e, he, -⟩ := Option.bind_eq_some_iff.mp hv
      exact ⟨path, by simp [Shared.exec, Shared.setCtlSocketPath, ctlSocketPathFor, he],
        h.le_of_holds rfl (Or.inr (Or.inl hv))⟩
  | notePendingCtlSocketPath path => exact ⟨fun _ v hv => ⟨v, hv, le_rfl⟩, fun v hv => ⟨v, hv, le_rfl⟩⟩
  | ensureTabWindow => exact .refl s
  | register locator =>
      refine ⟨fun _ v hv => ⟨v, hv, le_rfl⟩, ?_⟩
      intro v hv
      refine ⟨v, ?_, le_rfl⟩
      obtain ⟨e, he, -⟩ := Option.bind_eq_some_iff.mp hv
      have hpending : s.pendingCtlSocketPath = none :=
        Option.eq_none_iff_forall_not_mem.mpr fun r hr => by cases he.symm.trans (h.noted r hr).1
      exact (congrArg (Option.or · s.ctlSocketPathFor) hpending).trans hv

end Invariant

theorem exec_spawns (s : Shared) (op : Op) (k : Choice) : (s.exec op k).2.2 = [] := by
  cases op with
  | locatorFor path =>
      simp only [Shared.exec]
      split <;> rfl
  | resolve locator path => rfl
  | setOption locator path => rfl
  | setCtlSocketPath path => rfl
  | notePendingCtlSocketPath path => rfl
  | ensureTabWindow => rfl
  | register locator => rfl

end Shared

/-! ## 実行の不変条件 -/

namespace State

variable {p p' : State}

theorem invariant_of_run {as : List Action} (h : Run (Guarded Steps Ordered) start as p) :
    p.shared.Invariant p.pending := by
  refine Pool.invariant_of_run (I := Shared.Invariant) ?_ ?_ ?_ h .start
  · exact fun s ops ops' hperm hI => hI.perm hperm
  · intro p c s new _ hcall hI
    cases c with
    | connect =>
        obtain ⟨rfl, rfl⟩ := Prod.mk.inj (Option.some.inj hcall)
        exact hI.connect
    | ensureTmuxTabWindow =>
        obtain ⟨rfl, rfl⟩ := Prod.mk.inj (Option.some.inj hcall)
        exact hI.cons rfl (fun _ hq => by cases hq) fun _ hq => by cases hq
  · intro p i k op rest hC hnext hperm hI
    rw [Shared.exec_spawns, List.flatten_nil, List.append_nil]
    have herase : (p.pending.erase op).Perm rest := by
      have := hperm.erase op
      rwa [List.erase_cons_head] at this
    have hI' : p.shared.Invariant (op :: p.pending.erase op) := hI.perm (herase.symm.cons op)
    exact (hI'.exec (hC op hnext)).perm (herase.append_left _)

theorem advances_of_step {a : Action} (hI : p.shared.Invariant p.pending) (h : p.Steps a p') :
    p.shared.Advances p'.shared := by
  cases a with
  | call c =>
      obtain ⟨ops, hcall, -⟩ := Pool.step_call h
      cases c with
      | connect =>
          obtain ⟨heq, -⟩ := Prod.mk.inj (Option.some.inj hcall)
          rw [← heq]
          exact .refl p.shared
      | ensureTmuxTabWindow =>
          obtain ⟨heq, -⟩ := Prod.mk.inj (Option.some.inj hcall)
          rw [← heq]
          exact .refl p.shared
  | run i k =>
      obtain ⟨op, hnext, hshared, -⟩ := Pool.step_run h
      rw [hshared]
      exact (hI.perm (List.perm_cons_erase (Pool.mem_pending hnext))).advances

end State

end IsekaiTerminal.Tmux
