import Mathlib

/-!
# 容量のあるチャネル

送り手は、枠を 1 つ取ってから送る。取られたまま送られていない枠の数を `held` に持つ。受け手が閉じた後は、枠を取れない。
-/

namespace IsekaiTerminal.Lib

structure Mpsc (α : Type) where
  capacity : Nat
  buffer : List α
  held : Nat
  closed : Bool
deriving DecidableEq

namespace Mpsc

variable {α : Type}

def new (capacity : Nat) : Mpsc α := ⟨capacity, [], 0, false⟩

/-- 枠が空いている。 -/
def HasSlot (c : Mpsc α) : Prop := c.closed = false ∧ c.buffer.length + c.held < c.capacity

instance (c : Mpsc α) : Decidable c.HasSlot := inferInstanceAs (Decidable (_ ∧ _))

def tryReserve (c : Mpsc α) : Option (Mpsc α) := if c.HasSlot then some { c with held := c.held + 1 } else none

/-- 取った枠で送る。 -/
def submit (c : Mpsc α) (a : α) : Mpsc α := { c with buffer := c.buffer ++ [a], held := c.held - 1 }

/-- 取った枠を返す。 -/
def release (c : Mpsc α) : Mpsc α := { c with held := c.held - 1 }

def trySend (c : Mpsc α) (a : α) : Option (Mpsc α) := if c.HasSlot then some { c with buffer := c.buffer ++ [a] } else none

def recv (c : Mpsc α) : Option (α × Mpsc α) :=
  match c.buffer with
  | [] => none
  | a :: rest => if c.closed then none else some (a, { c with buffer := rest })

def close (c : Mpsc α) : Mpsc α := { c with closed := true }

@[simp] theorem submit_buffer (c : Mpsc α) (a : α) : (c.submit a).buffer = c.buffer ++ [a] := rfl

@[simp] theorem submit_closed (c : Mpsc α) (a : α) : (c.submit a).closed = c.closed := rfl

@[simp] theorem release_buffer (c : Mpsc α) : c.release.buffer = c.buffer := rfl

@[simp] theorem release_closed (c : Mpsc α) : c.release.closed = c.closed := rfl

theorem tryReserve_of_hasSlot {c : Mpsc α} (h : c.HasSlot) : c.tryReserve = some { c with held := c.held + 1 } := if_pos h

theorem of_tryReserve {c c' : Mpsc α} (h : c.tryReserve = some c') : c'.buffer = c.buffer ∧ c'.closed = c.closed := by
  rw [tryReserve, Option.ite_none_right_eq_some] at h
  obtain ⟨-, heq⟩ := h
  cases heq
  exact ⟨rfl, rfl⟩

/-- 枠が空いているときだけ、列の後ろに加わる。 -/
theorem getD_trySend (c : Mpsc α) (a : α) :
    ((c.trySend a).getD c).buffer = c.buffer ++ (if c.HasSlot then [a] else []) ∧
      ((c.trySend a).getD c).closed = c.closed := by
  rw [trySend]
  split <;> simp

theorem of_recv {c c' : Mpsc α} {a : α} (h : c.recv = some (a, c')) : c.buffer = a :: c'.buffer ∧ c'.closed = c.closed := by
  rw [recv] at h
  split at h
  · cases h
  · next hbuffer =>
      rw [Option.ite_none_left_eq_some] at h
      obtain ⟨-, heq⟩ := h
      cases heq
      exact ⟨hbuffer, rfl⟩

end Mpsc

end IsekaiTerminal.Lib
