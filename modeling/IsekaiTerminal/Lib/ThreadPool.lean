import IsekaiTerminal.Lib.Transition

/-!
# スレッドの交互実行

共有の状態と、スレッドごとの残りの操作の列から成る実行。1 つの操作は不可分で、スレッドの間ではどの順にも交互に進む。
`call` は外からの呼び出しの最初の操作とその続きを、`exec` は操作の実行と、その直後に行う操作、起動するスレッドを返す。
-/

namespace IsekaiTerminal.Lib

structure Pool (σ ι : Type*) where
  shared : σ
  threads : List (List ι)

inductive PoolAction (χ κ : Type*)
  | call (c : χ)
  | run (i : Nat) (k : κ)

namespace Pool

variable {σ ι χ κ : Type*} (call : σ → χ → Option (σ × List ι)) (exec : σ → ι → κ → σ × List ι × List (List ι))

def pending (p : Pool σ ι) : List ι := p.threads.flatten

/-- スレッド `i` が次に実行する操作。 -/
def next? (p : Pool σ ι) (i : Nat) : Option ι := (p.threads[i]?).bind List.head?

def step (p : Pool σ ι) : PoolAction χ κ → Option (Pool σ ι)
  | .call c => (call p.shared c).map fun r => ⟨r.1, p.threads ++ [r.2]⟩
  | .run i k =>
      match p.threads[i]? with
      | some (op :: ops) =>
          let r := exec p.shared op k
          some ⟨r.1, p.threads.set i (r.2.1 ++ ops) ++ r.2.2⟩
      | _ => none

abbrev Steps (p : Pool σ ι) (a : PoolAction χ κ) (p' : Pool σ ι) : Prop := p.step call exec a = some p'

variable {call exec} {p p' : Pool σ ι}

theorem mem_pending {p : Pool σ ι} {i : Nat} {op : ι} (h : p.next? i = some op) : op ∈ p.pending := by
  obtain ⟨ops, hi, hop⟩ := Option.bind_eq_some_iff.mp h
  obtain ⟨ops', rfl⟩ := List.head?_eq_some_iff.mp hop
  exact List.mem_flatten.mpr ⟨_, List.mem_of_getElem? hi, List.mem_cons_self⟩

theorem step_call {c : χ} (h : p.Steps call exec (.call c) p') :
    ∃ ops, call p.shared c = some (p'.shared, ops) ∧
      ∀ op, op ∈ p'.pending ↔ op ∈ p.pending ∨ op ∈ ops := by
  obtain ⟨⟨s, ops⟩, hc, rfl⟩ := Option.map_eq_some_iff.mp h
  exact ⟨ops, hc, by simp [pending]⟩

theorem mem_flatten_set {l : List (List ι)} {i : Nat} {ops : List ι} {op : ι}
    (h : op ∈ (l.set i ops).flatten) : op ∈ l.flatten ∨ op ∈ ops := by
  obtain ⟨ops', hm, hop⟩ := List.mem_flatten.mp h
  rcases List.mem_or_eq_of_mem_set hm with hm | rfl
  · exact Or.inl (List.mem_flatten.mpr ⟨ops', hm, hop⟩)
  · exact Or.inr hop

theorem step_run {i : Nat} {k : κ} (h : p.Steps call exec (.run i k) p') :
    ∃ op, p.next? i = some op ∧ p'.shared = (exec p.shared op k).1 ∧
      ∀ op', op' ∈ p'.pending →
        op' ∈ p.pending ∨ op' ∈ (exec p.shared op k).2.1 ∨ op' ∈ (exec p.shared op k).2.2.flatten := by
  simp only [Steps, step] at h
  split at h
  · rename_i op ops hi
    obtain rfl := Option.some.inj h
    have hmem (op' : ι) (hm : op' ∈ op :: ops) : op' ∈ p.pending :=
      List.mem_flatten.mpr ⟨_, List.mem_of_getElem? hi, hm⟩
    refine ⟨op, by simp [next?, hi], rfl, ?_⟩
    intro op' hm
    rw [pending, List.flatten_append, List.mem_append] at hm
    rcases hm with hm | hm
    · rcases mem_flatten_set hm with hm | hm
      · exact Or.inl hm
      · rcases List.mem_append.mp hm with hm | hm
        · exact Or.inr (Or.inl hm)
        · exact Or.inl (hmem op' (List.mem_cons_of_mem _ hm))
    · exact Or.inr (Or.inr hm)
  · cases h

/-- 共有の状態の性質 `I` と、残りの操作ごとの性質 `P`。 -/
structure Holds (I : σ → Prop) (P : σ → ι → Prop) (p : Pool σ ι) : Prop where
  shared : I p.shared
  pending : ∀ op ∈ p.pending, P p.shared op

/-- 呼び出しと操作が `I` と `P` を保つなら、条件 `C` を満たす実行は両方を保つ。 -/
theorem holds_of_run {I : σ → Prop} {P : σ → ι → Prop} {C : Pool σ ι → PoolAction χ κ → Prop}
    (hcall : ∀ (p : Pool σ ι) c s ops, p.Holds I P → C p (.call c) → call p.shared c = some (s, ops) →
      I s ∧ (∀ op ∈ p.pending, P s op) ∧ ∀ op ∈ ops, P s op)
    (hexec : ∀ (p : Pool σ ι) i k op, p.Holds I P → C p (.run i k) → op ∈ p.pending →
        I (exec p.shared op k).1 ∧ (∀ op' ∈ p.pending, P (exec p.shared op k).1 op') ∧
          (∀ op' ∈ (exec p.shared op k).2.1, P (exec p.shared op k).1 op') ∧
          ∀ op' ∈ (exec p.shared op k).2.2.flatten, P (exec p.shared op k).1 op')
    {as : List (PoolAction χ κ)} (h : Run (Guarded (Steps call exec) C) p as p') (hp : p.Holds I P) :
    p'.Holds I P := by
  refine h.invariant_of_guarded ?_ hp
  intro p a p' hp hstep hc
  cases a with
  | call c =>
      obtain ⟨ops, hcalled, hmem⟩ := step_call hstep
      obtain ⟨hI, hold, hnew⟩ := hcall p c _ ops hp hc hcalled
      exact ⟨hI, fun op hm => ((hmem op).mp hm).elim (hold op) (hnew op)⟩
  | run i k =>
      obtain ⟨op, hnext, hshared, hmem⟩ := step_run hstep
      obtain ⟨hI, hold, hnew, hspawn⟩ := hexec p i k op hp hc (mem_pending hnext)
      refine ⟨hshared ▸ hI, fun op' hm => ?_⟩
      rw [hshared]
      rcases hmem op' hm with hm | hm | hm
      · exact hold op' hm
      · exact hnew op' hm
      · exact hspawn op' hm

/-! ## 残りの操作の多重集合 -/

theorem step_call_perm {c : χ} (h : p.Steps call exec (.call c) p') :
    ∃ ops, call p.shared c = some (p'.shared, ops) ∧ p'.pending.Perm (ops ++ p.pending) := by
  obtain ⟨⟨s, ops⟩, hc, rfl⟩ := Option.map_eq_some_iff.mp h
  refine ⟨ops, hc, ?_⟩
  simp only [pending, List.flatten_append, List.flatten_cons, List.flatten_nil, List.append_nil]
  exact List.perm_append_comm

theorem perm_flatten_set {l : List (List ι)} {i : Nat} {op : ι} {ops : List ι} (hi : l[i]? = some (op :: ops)) :
    ∃ rest, l.flatten.Perm (op :: rest) ∧ ∀ new, (l.set i (new ++ ops)).flatten.Perm (new ++ rest) := by
  induction l generalizing i with
  | nil => cases hi
  | cons ops' l ih =>
      cases i with
      | zero =>
          obtain rfl := Option.some.inj hi
          exact ⟨ops ++ l.flatten, by simp, by simp⟩
      | succ i =>
          obtain ⟨rest, hperm, hset⟩ := ih hi
          refine ⟨ops' ++ rest, ?_, ?_⟩
          · rw [List.flatten_cons]
            exact (hperm.append_left ops').trans List.perm_middle
          · intro new
            rw [List.set_cons_succ, List.flatten_cons, ← List.append_assoc]
            refine ((hset new).append_left ops').trans ?_
            rw [← List.append_assoc]
            exact List.perm_append_comm.append_right rest

theorem step_run_perm {i : Nat} {k : κ} (h : p.Steps call exec (.run i k) p') :
    ∃ op rest, p.next? i = some op ∧ p'.shared = (exec p.shared op k).1 ∧ p.pending.Perm (op :: rest) ∧
      p'.pending.Perm ((exec p.shared op k).2.1 ++ (exec p.shared op k).2.2.flatten ++ rest) := by
  simp only [Steps, step] at h
  split at h
  · rename_i op ops hi
    obtain rfl := Option.some.inj h
    obtain ⟨rest, hperm, hset⟩ := perm_flatten_set hi
    refine ⟨op, rest, by simp [next?, hi], rfl, hperm, ?_⟩
    rw [pending, List.flatten_append, List.append_assoc]
    refine ((hset _).append_right _).trans ?_
    rw [List.append_assoc]
    exact List.perm_append_comm.append_left _
  · cases h

/-- 残りの操作の並びによらない不変条件 `I` は、条件 `C` を満たす実行で保たれる。 -/
theorem invariant_of_run {I : σ → List ι → Prop} {C : Pool σ ι → PoolAction χ κ → Prop}
    (hperm : ∀ s ops ops', ops.Perm ops' → I s ops → I s ops')
    (hcall : ∀ (p : Pool σ ι) c s new, C p (.call c) → call p.shared c = some (s, new) → I p.shared p.pending →
      I s (new ++ p.pending))
    (hexec : ∀ (p : Pool σ ι) i k op rest, C p (.run i k) → p.next? i = some op → p.pending.Perm (op :: rest) →
      I p.shared (op :: rest) →
        I (exec p.shared op k).1 ((exec p.shared op k).2.1 ++ (exec p.shared op k).2.2.flatten ++ rest))
    {as : List (PoolAction χ κ)} (h : Run (Guarded (Steps call exec) C) p as p') (hp : I p.shared p.pending) :
    I p'.shared p'.pending := by
  refine h.invariant_of_guarded (I := fun p => I p.shared p.pending) ?_ hp
  intro p a p' hI hstep hc
  cases a with
  | call c =>
      obtain ⟨new, hcalled, hnew⟩ := step_call_perm hstep
      exact hperm _ _ _ hnew.symm (hcall p c _ new hc hcalled hI)
  | run i k =>
      obtain ⟨op, rest, hnext, hshared, hold, hnew⟩ := step_run_perm hstep
      rw [hshared]
      exact hperm _ _ _ hnew.symm (hexec p i k op rest hc hnext hold (hperm _ _ _ hold hI))

end Pool

end IsekaiTerminal.Lib
