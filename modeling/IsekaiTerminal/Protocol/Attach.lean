import Mathlib

/-!
# ATTACH v2 の識別子と拒否の理由

`isekai-protocol` クレートの型のうち、serve の reducer が読むものを定める。
識別子は固定長のバイト列であり、順序は Rust の配列の順序（先頭のバイトからの辞書順）である。
-/

namespace IsekaiTerminal.Protocol

/-- 長さ `n` のバイト列 `[u8; n]`。 -/
structure Bytes (n : Nat) where
  toList : List UInt8
  length_eq : toList.length = n
deriving DecidableEq

namespace Bytes

variable {n : Nat}

/-- すべてのバイトが `b` の列 `[b; n]`。 -/
def fill (n : Nat) (b : UInt8) : Bytes n := ⟨List.replicate n b, List.length_replicate⟩

instance : Inhabited (Bytes n) := ⟨fill n 0⟩

instance : Ord (Bytes n) := ⟨fun a b => compare a.toList b.toList⟩

instance : Std.TransOrd (Bytes n) := by
  have h : Std.TransOrd (List UInt8) := inferInstance
  exact { eq_swap := h.eq_swap, isLE_trans := h.isLE_trans }

instance : Std.LawfulEqOrd (Bytes n) where
  eq_of_compare := by
    rintro ⟨a, ha⟩ ⟨b, hb⟩ h
    have hl : Std.LawfulEqOrd (List UInt8) := inferInstance
    have hab : a = b := hl.eq_of_compare h
    subst hab
    rfl

end Bytes

/-- session の識別子。`SessionId::from_bytes` と `as_bytes` は恒等である。 -/
abbrev SessionId := Bytes 16

instance : Std.TransOrd SessionId := inferInstance

/-- ATTACH の 1 回の試行の識別子。 -/
abbrev AttemptId := Bytes 16

/-- fencing の世代。クライアントが候補の組ごとに割り当てる。 -/
abbrev ConnectionGeneration := UInt64

/-- `AttachReadyV2` が運ぶ nonce。 -/
structure AttachToken where
  bytes : Bytes 16
deriving DecidableEq, Inhabited

/-- 定数時間の比較。値としてはバイト列の等しさである。 -/
def AttachToken.ctEq (a b : AttachToken) : Bool := decide (a.bytes = b.bytes)

@[simp] theorem AttachToken.ctEq_iff {a b : AttachToken} : a.ctEq b = true ↔ a = b := by
  cases a; cases b; simp [ctEq]

/-- 1 つの候補の試行。どの session の、どの世代の、どの試行か。 -/
structure AttachKey where
  sessionId : SessionId
  generation : ConnectionGeneration
  attemptId : AttemptId
deriving DecidableEq, Inhabited

inductive AttachRejectReason
  | auth
  | target
  | unsupported
  | alreadyAttached
  | staleGeneration (currentGeneration : ConnectionGeneration)
  | busyOtherSession
  | attachAlreadyEstablished
deriving DecidableEq

/-- 時刻（ミリ秒）。 -/
abbrev Millis := Nat

/-- 時間の長さ（ナノ秒）。 -/
abbrev Duration := Nat

def Duration.fromMillis (n : Nat) : Duration := n * 1000000

def Duration.fromSecs (n : Nat) : Duration := n * 1000000000

def Duration.asMillis (d : Duration) : Nat := d / 1000000

def Duration.asSecs (d : Duration) : Nat := d / 1000000000

/-- `Duration::MAX`。秒は 64 ビット、端数は 1 秒未満である。 -/
def Duration.max : Duration := (2 ^ 64 - 1) * 1000000000 + 999999999

def Duration.saturatingAdd (a b : Duration) : Duration := min (a + b) Duration.max

def Millis.saturatingSub (now earlier : Millis) : Duration := Duration.fromMillis (now - earlier)

end IsekaiTerminal.Protocol
