import IsekaiTerminal.Lib.Window

/-!
# 再送のバッファ（`quicmux::ReplayBuffer`）

容量を超える追加は拒み、古いバイトを捨てて空きを作ることはしない。offset はバイトの累計で、`u64` の上限には
届かないものとして `Nat` で数える。
-/

namespace IsekaiTerminal.Pipe

open Lib

structure ReplayBuffer where
  data : List UInt8
  startOffset : Nat
  capacity : Nat
deriving DecidableEq

namespace ReplayBuffer

def new (capacity : Nat) : ReplayBuffer := ⟨[], 0, capacity⟩

def remainingCapacity (buffer : ReplayBuffer) : Nat := buffer.capacity - buffer.data.length

def isFull (buffer : ReplayBuffer) : Bool := buffer.remainingCapacity == 0

def endOffset (buffer : ReplayBuffer) : Nat := buffer.startOffset + buffer.data.length

/-- 空きに収まらない追加は、何も書かずに `none` を返す。 -/
def append (buffer : ReplayBuffer) (bytes : List UInt8) : Option ReplayBuffer :=
  if bytes.length > buffer.remainingCapacity then none
  else some { buffer with data := buffer.data ++ bytes }

/-- 相手が受け取った位置まで捨てる。末尾を超える位置は、末尾に揃える。 -/
def advanceStart (buffer : ReplayBuffer) (confirmedOffset : Nat) : ReplayBuffer :=
  let discard := min (confirmedOffset - buffer.startOffset) buffer.data.length
  { buffer with data := buffer.data.drop discard, startOffset := buffer.startOffset + discard }

def replayFrom (buffer : ReplayBuffer) (from' : Nat) : Option (List UInt8) :=
  if from' < buffer.startOffset ∨ from' > buffer.endOffset then none
  else some (buffer.data.drop (from' - buffer.startOffset))

variable {buffer buffer' : ReplayBuffer} {stream bytes : List UInt8}

/-- バッファは、送った列 `stream` の末尾を保持している。 -/
abbrev Holds (buffer : ReplayBuffer) (stream : List UInt8) : Prop :=
  Window stream buffer.data buffer.startOffset

theorem holds_new (capacity : Nat) : (new capacity).Holds [] := Window.nil

theorem append_of_le (h : bytes.length ≤ buffer.remainingCapacity) :
    buffer.append bytes = some { buffer with data := buffer.data ++ bytes } := by
  rw [append, if_neg (not_lt.mpr h)]

theorem Holds.append (h : buffer.Holds stream) (ha : buffer.append bytes = some buffer') :
    buffer'.Holds (stream ++ bytes) := by
  unfold ReplayBuffer.append at ha
  split at ha
  · cases ha
  · obtain rfl := Option.some.inj ha
    exact Window.append h bytes

theorem Holds.advanceStart (h : buffer.Holds stream) (confirmedOffset : Nat) :
    (buffer.advanceStart confirmedOffset).Holds stream :=
  Window.drop h (min_le_right _ _)

theorem Holds.replayFrom_eq_some (h : buffer.Holds stream) {offset : Nat} :
    buffer.replayFrom offset = some bytes ↔
      buffer.startOffset ≤ offset ∧ offset ≤ buffer.endOffset ∧ bytes = stream.drop offset := by
  unfold replayFrom
  split
  · rename_i hout
    constructor
    · intro hn; cases hn
    · rintro ⟨hs, he, -⟩; omega
  · rename_i hin
    push Not at hin
    rw [Window.drop_sub h hin.1, Option.some.injEq]
    constructor
    · rintro rfl; exact ⟨hin.1, hin.2, rfl⟩
    · rintro ⟨-, -, rfl⟩; rfl

theorem replayFrom_eq_none {offset : Nat} :
    buffer.replayFrom offset = none ↔ offset < buffer.startOffset ∨ buffer.endOffset < offset := by
  unfold replayFrom
  split
  · rename_i hout; exact ⟨fun _ => hout, fun _ => rfl⟩
  · rename_i hin
    constructor
    · intro hn; cases hn
    · intro hout; exact absurd hout hin

end ReplayBuffer

end IsekaiTerminal.Pipe
