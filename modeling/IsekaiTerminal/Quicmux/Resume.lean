import IsekaiTerminal.Lib.Transition
import IsekaiTerminal.Lib.Saturating
import IsekaiTerminal.Pipe.ReplayBuffer
import IsekaiTerminal.Lib.Reader
import IsekaiTerminal.Lib.Wire

/-!
# `u64` の offset を持つ再送のバッファ

`quicmux/src/resume.rs` の `ReplayBuffer` を、offset の型 `u64` と飽和演算のまま定める。受け入れたバイトの総数が
2^64 に届かない間は、自然数の offset を持つ `Pipe.ReplayBuffer` と同じに振る舞う。
-/

namespace IsekaiTerminal.Quicmux

open Lib

structure ReplayBuffer where
  data : List UInt8
  startOffset : UInt64
  capacity : Nat
deriving DecidableEq

namespace ReplayBuffer

def new (capacity : Nat) : ReplayBuffer := ⟨[], 0, capacity⟩

def len (b : ReplayBuffer) : Nat := b.data.length

def remainingCapacity (b : ReplayBuffer) : Nat := b.capacity - b.len

def endOffset (b : ReplayBuffer) : UInt64 := saturatingAdd b.startOffset (UInt64.ofNat b.len)

def append (b : ReplayBuffer) (bytes : List UInt8) : Bool × ReplayBuffer :=
  if bytes.length > b.remainingCapacity then (false, b)
  else (true, { b with data := b.data ++ bytes })

def advanceStart (b : ReplayBuffer) (confirmedOffset : UInt64) : ReplayBuffer :=
  let discard := min (saturatingSub confirmedOffset b.startOffset) (UInt64.ofNat b.len)
  { b with data := b.data.drop discard.toNat, startOffset := b.startOffset + discard }

def replayFrom (b : ReplayBuffer) (from' : UInt64) : Option (List UInt8) :=
  if from' < b.startOffset ∨ from' > b.endOffset then none
  else some (b.data.drop (from' - b.startOffset).toNat)

end ReplayBuffer

/-! ## 操作の列 -/

inductive BufferOp
  | append (bytes : List UInt8)
  | advanceStart (confirmedOffset : UInt64)

/-- 1 回の操作。`append` は、受け入れたかどうかを返す。 -/
def ReplayBuffer.apply (b : ReplayBuffer) : BufferOp → ReplayBuffer × List Bool
  | .append bytes => ((b.append bytes).2, [(b.append bytes).1])
  | .advanceStart confirmedOffset => (b.advanceStart confirmedOffset, [])

def gather (stream : List UInt8) : BufferOp → List Bool → List UInt8
  | .append bytes, [true] => stream ++ bytes
  | _, _ => stream

abbrev after (capacity : Nat) (ops : List BufferOp) : ReplayBuffer :=
  Reducer.run ReplayBuffer.apply (.new capacity) ops

abbrev accepted (capacity : Nat) (ops : List BufferOp) : List UInt8 :=
  Reducer.watch ReplayBuffer.apply gather (.new capacity) [] ops

/-! ## 自然数の offset を持つバッファへの対応 -/

namespace ReplayBuffer

variable {b : ReplayBuffer} {stream : List UInt8}

def toPipe (b : ReplayBuffer) : Pipe.ReplayBuffer := ⟨b.data, b.startOffset.toNat, b.capacity⟩

/-- 列 `stream` の末尾を、容量を超えずに保持する。 -/
structure Holds (b : ReplayBuffer) (stream : List UInt8) : Prop where
  window : b.toPipe.Holds stream
  len_le : b.len ≤ b.capacity
  fits : stream.length < 2 ^ 64

theorem Holds.toNat_len (h : b.Holds stream) : (UInt64.ofNat b.len).toNat = b.len := by
  have hend := h.window.end_eq
  have hfits := h.fits
  rw [UInt64.toNat_ofNat']
  exact Nat.mod_eq_of_lt (Nat.lt_of_le_of_lt (Nat.le_of_add_left_le hend.le) hfits)

theorem Holds.toNat_endOffset (h : b.Holds stream) : b.endOffset.toNat = stream.length := by
  have hend : b.startOffset.toNat + b.len = stream.length := h.window.end_eq
  have hfits := h.fits
  have hmax : maxOf 64 = 2 ^ 64 - 1 := rfl
  rw [endOffset, toNat_saturatingAdd, h.toNat_len, satAdd_eq_add (by omega), hend]

theorem toPipe_append (bytes : List UInt8) :
    b.toPipe.append bytes = if (b.append bytes).1 then some (b.append bytes).2.toPipe else none := by
  unfold Pipe.ReplayBuffer.append append
  by_cases h : bytes.length > b.remainingCapacity
  · rw [if_pos h]
    exact if_pos h
  · rw [if_neg h]
    exact if_neg h

theorem Holds.toPipe_advanceStart (h : b.Holds stream) (confirmedOffset : UInt64) :
    (b.advanceStart confirmedOffset).toPipe = b.toPipe.advanceStart confirmedOffset.toNat := by
  have hend : b.startOffset.toNat + b.len = stream.length := h.window.end_eq
  have hfits := h.fits
  have hdiscard : (min (saturatingSub confirmedOffset b.startOffset) (UInt64.ofNat b.len)).toNat =
      min (confirmedOffset.toNat - b.startOffset.toNat) b.len := by
    rw [toNat_min, toNat_saturatingSub, h.toNat_len]
  simp only [toPipe, advanceStart, Pipe.ReplayBuffer.advanceStart, UInt64.toNat_add, hdiscard]
  rw [Nat.mod_eq_of_lt]
  · rfl
  · omega

theorem Holds.startOffset_advanceStart (h : b.Holds stream) (confirmedOffset : UInt64) :
    (b.advanceStart confirmedOffset).startOffset = max b.startOffset (min confirmedOffset b.endOffset) := by
  have hend : b.startOffset.toNat + b.len = stream.length := h.window.end_eq
  have hstart : (b.advanceStart confirmedOffset).startOffset.toNat =
      b.startOffset.toNat + min (confirmedOffset.toNat - b.startOffset.toNat) b.len :=
    congrArg Pipe.ReplayBuffer.startOffset (h.toPipe_advanceStart confirmedOffset)
  rw [← UInt64.toNat_inj, hstart, toNat_max, toNat_min, h.toNat_endOffset]
  omega

theorem Holds.replayFrom_eq (h : b.Holds stream) (offset : UInt64) :
    b.replayFrom offset =
      if b.startOffset ≤ offset ∧ offset ≤ b.endOffset then some (stream.drop offset.toNat) else none := by
  unfold replayFrom
  by_cases hin : b.startOffset ≤ offset ∧ offset ≤ b.endOffset
  · have hout : ¬ (offset < b.startOffset ∨ offset > b.endOffset) := by
      rw [not_or]
      exact ⟨UInt64.not_lt.mpr hin.1, UInt64.not_lt.mpr hin.2⟩
    rw [if_neg hout, if_pos hin, UInt64.toNat_sub_of_le _ _ hin.1]
    exact congrArg some (h.window.drop_sub (UInt64.le_iff_toNat_le.mp hin.1))
  · have hout : offset < b.startOffset ∨ offset > b.endOffset := by
      rw [not_and_or] at hin
      exact hin.imp UInt64.not_le.mp UInt64.not_le.mp
    rw [if_pos hout, if_neg hin]

/-! ## 1 回の操作 -/

theorem Holds.append (h : b.Holds stream) {bytes : List UInt8} (ha : (b.append bytes).1 = true)
    (hfits : (stream ++ bytes).length < 2 ^ 64) : (b.append bytes).2.Holds (stream ++ bytes) := by
  have hpipe := toPipe_append (b := b) bytes
  rw [if_pos ha] at hpipe
  refine ⟨h.window.append hpipe, ?_, hfits⟩
  unfold ReplayBuffer.append at ha ⊢
  split at ha
  · cases ha
  · rename_i hle
    have hlen := h.len_le
    simp only [remainingCapacity, len] at hle hlen
    rw [if_neg (by simpa [remainingCapacity, len] using hle)]
    simp only [len, List.length_append]
    omega

theorem append_true_iff {bytes : List UInt8} : (b.append bytes).1 = true ↔ bytes.length ≤ b.remainingCapacity := by
  unfold append
  by_cases h : bytes.length > b.remainingCapacity
  · simp [if_pos h, not_le.mpr h]
  · simp [if_neg h, not_lt.mp h]

theorem append_false {bytes : List UInt8} (ha : (b.append bytes).1 = false) : (b.append bytes).2 = b := by
  unfold append at ha ⊢
  split at ha
  · rename_i h
    rw [if_pos h]
  · cases ha

theorem Holds.advanceStart (h : b.Holds stream) (confirmedOffset : UInt64) :
    (b.advanceStart confirmedOffset).Holds stream := by
  refine ⟨?_, ?_, h.fits⟩
  · rw [h.toPipe_advanceStart]
    exact h.window.advanceStart _
  · change (b.data.drop _).length ≤ b.capacity
    rw [List.length_drop]
    exact (Nat.sub_le _ _).trans h.len_le

theorem capacity_apply (b : ReplayBuffer) (op : BufferOp) : (b.apply op).1.capacity = b.capacity := by
  cases op with
  | append bytes =>
      simp only [apply, append]
      split <;> rfl
  | advanceStart => rfl

theorem length_le_gather (stream : List UInt8) (op : BufferOp) (answers : List Bool) :
    stream.length ≤ (gather stream op answers).length := by
  unfold gather
  split <;> simp

theorem Holds.apply (h : b.Holds stream) (op : BufferOp)
    (hfits : (gather stream op (b.apply op).2).length < 2 ^ 64) :
    (b.apply op).1.Holds (gather stream op (b.apply op).2) := by
  cases op with
  | append bytes =>
      cases ha : (b.append bytes).1 with
      | true =>
          simp only [ReplayBuffer.apply, ha, gather] at hfits ⊢
          exact h.append ha hfits
      | false =>
          simp only [ReplayBuffer.apply, ha, gather, append_false ha]
          exact h
  | advanceStart confirmedOffset => exact h.advanceStart confirmedOffset

/-! ## 操作の列 -/

theorem capacity_after (capacity : Nat) (ops : List BufferOp) : (after capacity ops).capacity = capacity :=
  Reducer.run_invariant (I := fun b => b.capacity = capacity)
    (fun b op h => (capacity_apply b op).trans h) rfl ops

theorem Holds.after (capacity : Nat) (ops : List BufferOp) (hfits : (accepted capacity ops).length < 2 ^ 64) :
    (after capacity ops).Holds (accepted capacity ops) := by
  induction ops using List.reverseRecOn with
  | nil => exact ⟨Pipe.ReplayBuffer.holds_new capacity, Nat.zero_le _, hfits⟩
  | append_singleton ops op ih =>
      simp only [Quicmux.after, accepted, Reducer.run_concat, Reducer.watch_concat] at hfits ih ⊢
      exact (ih (Nat.lt_of_le_of_lt (length_le_gather _ _ _) hfits)).apply op hfits

/-! ## 主結果 -/

/-- どの操作の列の後でも、バッファは受け入れた列の `startOffset` から先をそのまま保持する。追加は空きに収まるときだけ
受け入れ、確認は範囲の外の位置を揃え、再送できるのは範囲の中の位置からだけである。 -/
theorem refines_stream (capacity : Nat) (ops : List BufferOp)
    (hfits : (accepted capacity ops).length < 2 ^ 64) :
    (Quicmux.after capacity ops).endOffset.toNat = (accepted capacity ops).length ∧
    (Quicmux.after capacity ops).startOffset ≤ (Quicmux.after capacity ops).endOffset ∧
    (Quicmux.after capacity ops).data =
      (accepted capacity ops).drop (Quicmux.after capacity ops).startOffset.toNat ∧
    (Quicmux.after capacity ops).len ≤ capacity ∧
    (∀ bytes, (((Quicmux.after capacity ops).append bytes).1 = true ↔
        bytes.length ≤ capacity - (Quicmux.after capacity ops).len) ∧
      (((Quicmux.after capacity ops).append bytes).1 = false →
        ((Quicmux.after capacity ops).append bytes).2 = Quicmux.after capacity ops)) ∧
    (∀ confirmedOffset, ((Quicmux.after capacity ops).advanceStart confirmedOffset).startOffset =
      max (Quicmux.after capacity ops).startOffset
        (min confirmedOffset (Quicmux.after capacity ops).endOffset)) ∧
    (∀ offset, (Quicmux.after capacity ops).replayFrom offset =
      if (Quicmux.after capacity ops).startOffset ≤ offset ∧ offset ≤ (Quicmux.after capacity ops).endOffset then
        some ((accepted capacity ops).drop offset.toNat)
      else none) := by
  have h := Holds.after capacity ops hfits
  have hcap := capacity_after capacity ops
  refine ⟨h.toNat_endOffset, ?_, h.window.eq_drop, h.len_le.trans_eq hcap, ?_, h.startOffset_advanceStart,
    h.replayFrom_eq⟩
  · rw [UInt64.le_iff_toNat_le, h.toNat_endOffset]
    exact h.window.le_length
  · intro bytes
    refine ⟨?_, append_false⟩
    rw [append_true_iff, remainingCapacity, hcap]

/-- 途中で一部が確認され、末尾を超える確認が届いても、続きは正しい位置に付く。 -/
theorem refines_stream_ack : (Quicmux.after 4 [.append [1, 2, 3], .advanceStart 2, .advanceStart 9,
    .append [4]]).data = [4] :=
  (refines_stream 4 [.append [1, 2, 3], .advanceStart 2, .advanceStart 9, .append [4]] (by decide)).2.2.1.trans
    (by decide)

end ReplayBuffer

/-!
## RESUME の要求の符号

`quicmux/src/resume.rs` の `encode_resume_request` と `decode_resume_request` を定める。復号は、認証の前に、
届いた分ずつ読む列から欄を順に読む。
-/

/-- `MuxError` のうち、列の読み取りと RESUME の符号が返すもの。 -/
inductive MuxError
  | streamIo (text : String)
  | locallyClosed
  | peerClosed (code : UInt64) (reason : String)
  | streamReset (code : UInt64)
  | transportLost (reason : String) (retryable : Bool)
  | protocolViolation (text : String)
deriving DecidableEq

def frameResume : UInt8 := 0x01

def maxResumeFieldLen : Nat := 1024

structure ResumeRequestToSend where
  token : List UInt8
  authBlob : List UInt8
  clientSentOffset : UInt64
  clientDeliveredOffset : UInt64
deriving DecidableEq

structure ResumeRequest where
  token : List UInt8
  authBlob : List UInt8
  connExporter : Vector UInt8 32
  clientSentOffset : UInt64
  clientDeliveredOffset : UInt64
deriving DecidableEq

/-- 種別のバイトより後の部分。長さは `as u16` で下位 16 ビットになる。 -/
def resumeRequestBody (req : ResumeRequestToSend) : List UInt8 :=
  beEncode 2 (req.token.length % 2 ^ 16) ++ (req.token ++
    (beEncode 2 (req.authBlob.length % 2 ^ 16) ++ (req.authBlob ++
      (beEncode 8 req.clientSentOffset.toNat ++ beEncode 8 req.clientDeliveredOffset.toNat))))

def encodeResumeRequest (req : ResumeRequestToSend) : Except MuxError (List UInt8) :=
  if req.token.length > maxResumeFieldLen then
    .error (.protocolViolation s!"resume token too large to encode (max {maxResumeFieldLen} bytes)")
  else if req.authBlob.length > maxResumeFieldLen then
    .error (.protocolViolation s!"resume auth_blob too large to encode (max {maxResumeFieldLen} bytes)")
  else .ok (frameResume :: resumeRequestBody req)

/-- 列が途中で終わったときの誤り。 -/
def endedEarly (size filled : Nat) : MuxError :=
  .streamIo s!"stream ended before {size} bytes were read (got {filled})"

def readExact (size : Nat) : ReadM UInt8 MuxError (List UInt8) := ReadM.readExact endedEarly size

/-- 欄を確保する前に、長さを調べる。 -/
def boundedFieldLen (lenBytes : List UInt8) (field : String) : Except MuxError Nat :=
  let len := beDecode lenBytes
  if len > maxResumeFieldLen then
    .error (.protocolViolation s!"resume {field} length {len} exceeds the maximum of {maxResumeFieldLen} bytes")
  else .ok len

/-- `vec![0u8; len]` を確保して、ちょうど読む。 -/
def readField (len : Nat) : ReadM UInt8 MuxError (List UInt8) := do
  ReadM.alloc len
  readExact len

def decodeResumeRequest (connExporter : Vector UInt8 32) : ReadM UInt8 MuxError ResumeRequest := do
  let tokenLen ← readExact 2
  let tokenLen ← ReadM.lift (boundedFieldLen tokenLen "token")
  let token ← readField tokenLen
  let authLen ← readExact 2
  let authLen ← ReadM.lift (boundedFieldLen authLen "auth_blob")
  let authBlob ← readField authLen
  let sent ← readExact 8
  let delivered ← readExact 8
  pure ⟨token, authBlob, connExporter, UInt64.ofNat (beDecode sent), UInt64.ofNat (beDecode delivered)⟩

end IsekaiTerminal.Quicmux
