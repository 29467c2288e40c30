import IsekaiTerminal.Lib.Transition

/-!
# タイマーを持つ状態機械

状態機械は、イベントと時間切れのそれぞれに、作用の列とタイマーへの命令の列を返す。タイマーは 1 回の `set` につき
高々 1 回発火し、`kill` すると発火しない。実行は、発火できる時間切れとイベントを任意の順に受け取る。
-/

namespace IsekaiTerminal.Lib

variable {σ ε α τ : Type*}

inductive TimerCommand (τ : Type*)
  | set (id : τ) (duration : Nat)
  | kill (id : τ)
  deriving DecidableEq

structure Response (α τ : Type*) where
  consumed : Bool
  actions : List α
  timers : List (TimerCommand τ)

namespace Response

def passThrough : Response α τ := ⟨false, [], []⟩

def consume : Response α τ := ⟨true, [], []⟩

def emit (actions : List α) : Response α τ := ⟨true, actions, []⟩

def withTimer (r : Response α τ) (id : τ) (duration : Nat) : Response α τ :=
  { r with timers := r.timers ++ [.set id duration] }

def withKillTimer (r : Response α τ) (id : τ) : Response α τ := { r with timers := r.timers ++ [.kill id] }

section

variable (r : Response α τ) (id : τ) (d : Nat) (as : List α)

@[simp] theorem actions_passThrough : (passThrough : Response α τ).actions = [] := rfl
@[simp] theorem timers_passThrough : (passThrough : Response α τ).timers = [] := rfl
@[simp] theorem actions_consume : (consume : Response α τ).actions = [] := rfl
@[simp] theorem timers_consume : (consume : Response α τ).timers = [] := rfl
@[simp] theorem actions_emit : (emit as : Response α τ).actions = as := rfl
@[simp] theorem timers_emit : (emit as : Response α τ).timers = [] := rfl
@[simp] theorem actions_withTimer : (r.withTimer id d).actions = r.actions := rfl
@[simp] theorem timers_withTimer : (r.withTimer id d).timers = r.timers ++ [.set id d] := rfl
@[simp] theorem actions_withKillTimer : (r.withKillTimer id).actions = r.actions := rfl
@[simp] theorem timers_withKillTimer : (r.withKillTimer id).timers = r.timers ++ [.kill id] := rfl

end

end Response

inductive Input (ε τ : Type*)
  | event (e : ε)
  | timeout (id : τ)
  deriving DecidableEq

structure TimedStateMachine (σ ε α τ : Type*) where
  onEvent : σ → ε → σ × Response α τ
  onTimeout : σ → τ → σ × Response α τ

namespace TimedStateMachine

variable (M : TimedStateMachine σ ε α τ)

def react (s : σ) : Input ε τ → σ × Response α τ
  | .event e => M.onEvent s e
  | .timeout id => M.onTimeout s id

/-- 実行の途中の状態。`armed` は、`set` の後、発火も `kill` もしていないタイマーを示す。 -/
structure Config (σ τ : Type*) where
  machine : σ
  armed : τ → Bool

/-- 実行の中の 1 回の反応。 -/
structure Entry (σ ε α τ : Type*) where
  before : σ
  input : Input ε τ
  response : Response α τ

variable [DecidableEq τ]

def command (armed : τ → Bool) : TimerCommand τ → τ → Bool
  | .set id _ => Function.update armed id true
  | .kill id => Function.update armed id false

@[simp] theorem command_set (armed : τ → Bool) (id i : τ) (d : Nat) :
    command armed (.set id d) i = (decide (i = id) || armed i) := by
  by_cases h : i = id <;> simp [command, h]

@[simp] theorem command_kill (armed : τ → Bool) (id i : τ) :
    command armed (.kill id) i = (!decide (i = id) && armed i) := by
  by_cases h : i = id <;> simp [command, h]

/-- 発火したタイマーは、もう 1 回 `set` するまで発火しない。 -/
def disarm (armed : τ → Bool) : Input ε τ → τ → Bool
  | .event _ => armed
  | .timeout id => Function.update armed id false

@[simp] theorem disarm_event (armed : τ → Bool) (e : ε) : disarm armed (.event e : Input ε τ) = armed := rfl

@[simp] theorem disarm_timeout (armed : τ → Bool) (id i : τ) :
    disarm armed (.timeout id : Input ε τ) i = (!decide (i = id) && armed i) := by
  by_cases h : i = id <;> simp [disarm, h]

theorem disarm_of_ne {armed : τ → Bool} {i : Input ε τ} {id : τ} (h : i ≠ .timeout id) :
    disarm armed i id = armed id := by
  cases i with
  | event e => rfl
  | timeout id' =>
      have hne : id ≠ id' := by
        rintro rfl
        exact h rfl
      simp [hne]

theorem disarm_eq_false {armed : τ → Bool} (i : Input ε τ) {id : τ} (h : armed id = false) :
    disarm armed i id = false := by
  cases i <;> simp [h]

def Accepts (c : Config σ τ) : Input ε τ → Prop
  | .event _ => True
  | .timeout id => c.armed id = true

instance (c : Config σ τ) : (i : Input ε τ) → Decidable (Accepts c i)
  | .event _ => inferInstanceAs (Decidable True)
  | .timeout id => inferInstanceAs (Decidable (c.armed id = true))

def next (c : Config σ τ) (i : Input ε τ) : Config σ τ where
  machine := (M.react c.machine i).1
  armed := (M.react c.machine i).2.timers.foldl command (disarm c.armed i)

def entry (s : σ) (i : Input ε τ) : Entry σ ε α τ := ⟨s, i, (M.react s i).2⟩

inductive Steps : Config σ τ → Entry σ ε α τ → Config σ τ → Prop
  | intro (c : Config σ τ) (i : Input ε τ) : Accepts c i → Steps c (M.entry c.machine i) (M.next c i)

abbrev Reaches (c : Config σ τ) (es : List (Entry σ ε α τ)) (c' : Config σ τ) : Prop := Run M.Steps c es c'

/-- 入力の列に沿った実行。発火できない時間切れがあれば `none` を返す。 -/
def exec (c : Config σ τ) : List (Input ε τ) → Option (List (Entry σ ε α τ) × Config σ τ)
  | [] => some ([], c)
  | i :: is => if Accepts c i then (exec (M.next c i) is).map fun r => (M.entry c.machine i :: r.1, r.2) else none

variable {M}

theorem reaches_of_exec {c c' : Config σ τ} {is : List (Input ε τ)} {es : List (Entry σ ε α τ)}
    (h : M.exec c is = some (es, c')) : M.Reaches c es c' := by
  induction is generalizing c es with
  | nil =>
      obtain ⟨rfl, rfl⟩ := Prod.ext_iff.mp (Option.some.inj h)
      exact .nil _
  | cons i is ih =>
      obtain ⟨hi, h⟩ := Option.ite_none_right_eq_some.mp h
      obtain ⟨⟨es', c₁⟩, hes, heq⟩ := Option.map_eq_some_iff.mp h
      obtain ⟨rfl, rfl⟩ := Prod.ext_iff.mp heq
      exact .cons (.intro c i hi) (ih hes)

theorem reaches_get {c : Config σ τ} {is : List (Input ε τ)} (h : (M.exec c is).isSome = true) :
    M.Reaches c ((M.exec c is).get h).1 ((M.exec c is).get h).2 :=
  reaches_of_exec (Option.some_get h).symm

theorem inputs_of_exec {c c' : Config σ τ} {is : List (Input ε τ)} {es : List (Entry σ ε α τ)}
    (h : M.exec c is = some (es, c')) : es.map (·.input) = is := by
  induction is generalizing c es with
  | nil =>
      obtain ⟨rfl, rfl⟩ := Prod.ext_iff.mp (Option.some.inj h)
      rfl
  | cons i is ih =>
      obtain ⟨hi, h⟩ := Option.ite_none_right_eq_some.mp h
      obtain ⟨⟨es', c₁⟩, hes, heq⟩ := Option.map_eq_some_iff.mp h
      obtain ⟨rfl, rfl⟩ := Prod.ext_iff.mp heq
      exact congrArg (i :: ·) (ih hes)

end TimedStateMachine

end IsekaiTerminal.Lib
