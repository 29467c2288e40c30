import Mathlib

/-!
# 列を読みながら送り、報告し、止まる機械

1 つ読むごとに、列を送り、動作を多くても 1 つ報告する機械を定める。報告した動作が止める動作であれば、残りを読まない。
どのように分けて読んでも同じ結果になることと、1 回の読み取りの最後の動作だけを残すと何が失われるかを示す。
-/

namespace IsekaiTerminal.Lib

structure Machine (σ β α : Type) where
  step : σ → β → σ × List β × Option α
  halting : α → Bool

/-- 読み終えた後の状態と、送った列と、報告した動作。 -/
structure Outcome (σ β α : Type) where
  state : σ
  halted : Bool
  sent : List β
  actions : List α
deriving DecidableEq

variable {σ β α : Type}

namespace Outcome

def start (s : σ) : Outcome σ β α := ⟨s, false, [], []⟩

def prepend (o : Outcome σ β α) (sent : List β) (actions : List α) : Outcome σ β α :=
  { o with sent := sent ++ o.sent, actions := actions ++ o.actions }

/-- 止まっていなければ、続きを読む。 -/
def andThen (o : Outcome σ β α) (f : σ → Outcome σ β α) : Outcome σ β α :=
  if o.halted then o else (f o.state).prepend o.sent o.actions

/-- 最後に報告した動作だけを残す。 -/
def lastOnly (o : Outcome σ β α) : Outcome σ β α := { o with actions := o.actions.getLast?.toList }

theorem andThen_prepend (o : Outcome σ β α) (sent : List β) (actions : List α) (f : σ → Outcome σ β α) :
    (o.prepend sent actions).andThen f = (o.andThen f).prepend sent actions := by
  by_cases h : o.halted = true
  · simp only [andThen, prepend, h, ↓reduceIte]
  · simp only [andThen, prepend, h, Bool.false_eq_true, ↓reduceIte, List.append_assoc]

end Outcome

namespace Machine

variable (m : Machine σ β α)

def run (s : σ) : List β → Outcome σ β α
  | [] => .start s
  | b :: rest =>
      let next := m.step s b
      if next.2.2.any m.halting then ⟨next.1, true, next.2.1, next.2.2.toList⟩
      else (run next.1 rest).prepend next.2.1 next.2.2.toList

/-- 分けて読む。 -/
def runReads (s : σ) : List (List β) → Outcome σ β α
  | [] => .start s
  | read :: reads => (m.run s read).andThen fun s => runReads s reads

/-- 1 回の読み取りごとに、最後の動作だけを報告する。 -/
def runSlots (s : σ) : List (List β) → Outcome σ β α
  | [] => .start s
  | read :: reads => (m.run s read).lastOnly.andThen fun s => runSlots s reads

/-- 止まるまでのどの 1 回の読み取りも、動作を多くても 1 つ報告する。 -/
def SingleAction (s : σ) : List (List β) → Prop
  | [] => True
  | read :: reads =>
      (m.run s read).actions.length ≤ 1 ∧ ((m.run s read).halted = false → SingleAction (m.run s read).state reads)

variable {m}

theorem run_cons (s : σ) (b : β) (rest : List β) :
    m.run s (b :: rest) =
      if (m.step s b).2.2.any m.halting then ⟨(m.step s b).1, true, (m.step s b).2.1, (m.step s b).2.2.toList⟩
      else (m.run (m.step s b).1 rest).prepend (m.step s b).2.1 (m.step s b).2.2.toList := rfl

theorem run_append (s : σ) (xs ys : List β) : m.run s (xs ++ ys) = (m.run s xs).andThen fun s => m.run s ys := by
  induction xs generalizing s with
  | nil => rfl
  | cons b xs ih =>
      rw [List.cons_append, run_cons, run_cons]
      by_cases h : (m.step s b).2.2.any m.halting = true
      · simp only [h, ↓reduceIte, Outcome.andThen]
      · simp only [h, Bool.false_eq_true, ↓reduceIte]
        rw [ih, Outcome.andThen_prepend]

/-- 分け方は、結果を変えない。 -/
theorem runReads_eq (s : σ) (reads : List (List β)) : m.runReads s reads = m.run s reads.flatten := by
  induction reads generalizing s with
  | nil => rfl
  | cons read reads ih =>
      rw [List.flatten_cons, run_append, runReads]
      exact congrArg (m.run s read).andThen (funext ih)

theorem length_getLast?_le (l : List α) : l.getLast?.toList.length ≤ l.length := by
  cases l with
  | nil => exact Nat.le_refl _
  | cons a as => simp [List.getLast?_cons]

/-- 最後の動作だけを残しても、送る列と状態は変わらず、動作の数は増えない。 -/
theorem runSlots_spec (s : σ) (reads : List (List β)) :
    (m.runSlots s reads).state = (m.runReads s reads).state ∧
      (m.runSlots s reads).halted = (m.runReads s reads).halted ∧
      (m.runSlots s reads).sent = (m.runReads s reads).sent ∧
      (m.runSlots s reads).actions.length ≤ (m.runReads s reads).actions.length := by
  induction reads generalizing s with
  | nil => exact ⟨rfl, rfl, rfl, Nat.le_refl _⟩
  | cons read reads ih =>
      have hlast := length_getLast?_le (m.run s read).actions
      rw [runSlots, runReads]
      by_cases h : (m.run s read).halted = true
      · simp only [Outcome.andThen, Outcome.lastOnly, h, ↓reduceIte]
        exact ⟨trivial, trivial, trivial, hlast⟩
      · obtain ⟨hstate, hhalted, hsent, hlen⟩ := ih (m.run s read).state
        simp only [Outcome.andThen, Outcome.lastOnly, Outcome.prepend, h, Bool.false_eq_true, ↓reduceIte,
          List.length_append]
        exact ⟨hstate, hhalted, by rw [hsent], Nat.add_le_add hlast hlen⟩

/-- 動作が失われないのは、どの 1 回の読み取りも多くても 1 つしか報告しない場合である。 -/
theorem runSlots_actions_iff (s : σ) (reads : List (List β)) :
    (m.runSlots s reads).actions = (m.runReads s reads).actions ↔ m.SingleAction s reads := by
  induction reads generalizing s with
  | nil => exact iff_of_true rfl trivial
  | cons read reads ih =>
      have hlast : (m.run s read).actions.getLast?.toList = (m.run s read).actions ↔
          (m.run s read).actions.length ≤ 1 := by
        cases h : (m.run s read).actions with
        | nil => simp
        | cons a as => cases as with
          | nil => simp
          | cons a' as => simp [List.getLast?_cons]
      have hlastLen := length_getLast?_le (m.run s read).actions
      rw [runSlots, runReads, SingleAction]
      by_cases h : (m.run s read).halted = true
      · simp only [Outcome.andThen, Outcome.lastOnly, h, ↓reduceIte, hlast, Bool.true_eq_false, false_implies, and_true]
      · have hrest := (runSlots_spec (m := m) (m.run s read).state reads).2.2.2
        simp only [Outcome.andThen, Outcome.lastOnly, Outcome.prepend, h, Bool.false_eq_true, ↓reduceIte, true_implies]
        rw [← ih, ← hlast]
        constructor
        · intro heq
          have hlen := congrArg List.length heq
          rw [List.length_append, List.length_append] at hlen
          exact List.append_inj heq (by omega)
        · rintro ⟨hhead, htail⟩
          rw [hhead, htail]

end Machine

end IsekaiTerminal.Lib
