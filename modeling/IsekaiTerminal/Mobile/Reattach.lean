import IsekaiTerminal.Protocol.Attach

/-!
# モバイル側の再接続（`ReattachableStream`）

`resume_client.rs` の `run_pump` と、そこから呼ばれる `write_with_reattach`、`attempt_reattach` を、
1 つの待ちごとに進む状態機械として定める。待ちの結果はイベントで与える。

`write_all` は、成功すれば引数の全体を、失敗すればその先頭の一部を helper に向けて送り出す。helper は送り出された
バイトを届いた順に確定し、`reattach_fn` は確定したバイトの数を返す。古い接続で確定していなかったバイトは、
再接続とともに失われる。時刻はバックオフの長さにだけ関わるので扱わない。
-/

namespace IsekaiTerminal.Mobile

open Protocol

def reattachMaxRetries : Nat := 5

def networkWakeBonusRetries : Nat := 3

/-! ## 再送のバッファ -/

/-- client から helper へ送ったバイト列の末尾を保持する有界のバッファ。 -/
structure ReplayBuffer where
  data : List UInt8
  startOffset : Nat
  capacity : Nat
deriving DecidableEq

namespace ReplayBuffer

def new (capacity : Nat) : ReplayBuffer := ⟨[], 0, capacity⟩

def evict (capacity : Nat) : List UInt8 → Nat → List UInt8 × Nat
  | [], start => ([], start)
  | b :: data, start =>
      if (b :: data).length > capacity then evict capacity data (start + 1) else (b :: data, start)

def append (buffer : ReplayBuffer) (bytes : List UInt8) : ReplayBuffer :=
  let (data, startOffset) := evict buffer.capacity (buffer.data ++ bytes) buffer.startOffset
  { buffer with data, startOffset }

def discard (confirmedOffset : Nat) : List UInt8 → Nat → List UInt8 × Nat
  | [], start => ([], start)
  | b :: data, start =>
      if start < confirmedOffset then discard confirmedOffset data (start + 1) else (b :: data, start)

def advanceStart (buffer : ReplayBuffer) (confirmedOffset : Nat) : ReplayBuffer :=
  let (data, startOffset) := discard confirmedOffset buffer.data buffer.startOffset
  { buffer with data, startOffset }

def endOffset (buffer : ReplayBuffer) : Nat := buffer.startOffset + buffer.data.length

def replayFrom (buffer : ReplayBuffer) (from' : Nat) : Option (List UInt8) :=
  if from' < buffer.startOffset ∨ from' > buffer.endOffset then none
  else some (buffer.data.drop (from' - buffer.startOffset))

end ReplayBuffer

/-! ## 状態 -/

structure ClientResumeState where
  replayBuffer : ReplayBuffer
  clientDeliveredOffset : Nat
  sessionId : Option SessionId
deriving DecidableEq

/-- pump が待っている場所。`pending` は、再接続の後に書き直す chunk である。 -/
inductive Pump
  /-- `next_pump_event` を待っている。 -/
  | idle
  /-- `write_with_reattach` の `write_all` を待っている。 -/
  | writing (chunk : List UInt8)
  /-- `reattach_fn` の結果を待っている。 -/
  | reattaching (attempt bonus : Nat) (pending : Option (List UInt8))
  /-- 再送の `write_all` を待っている。 -/
  | replaying (bytes : List UInt8) (attempt bonus : Nat) (pending : Option (List UInt8))
  /-- バックオフの終わりか、network の復帰を待っている。 -/
  | backoff (attempt bonus : Nat) (pending : Option (List UInt8))
  /-- `terminal_error` を立てて終わった。 -/
  | failed (message : String)
  | closed
deriving DecidableEq

/-- helper が確定したバイト列と、送り出されたがまだ確定していないバイト列。 -/
structure Helper where
  committed : List UInt8
  inflight : List UInt8
deriving DecidableEq

/-- `accepted` は、呼び出し元から受け取った chunk をつないだ列である。 -/
structure State where
  resume : ClientResumeState
  helperReadDone : Bool
  pump : Pump
  helper : Helper
  accepted : List UInt8
deriving DecidableEq

inductive Event
  | fromCaller (chunk : List UInt8)
  | fromCallerClosed
  | fromHelper (chunk : List UInt8) (deliveredOk : Bool)
  | fromHelperClosed
  | readFailed (message : String)
  | writeOk
  | writeErr (delivered : Nat) (message : String)
  | reattachOk
  | reattachErr (message : String)
  | replayOk
  | replayErr (delivered : Nat) (message : String)
  | backoffEnded (networkWake : Bool)
  /-- helper が、届いたバイトのうち先頭の `n` バイトを確定する。 -/
  | commit (n : Nat)
deriving DecidableEq

namespace State

def init (capacity : Nat) (sessionId : Option SessionId) : State where
  resume := ⟨.new capacity, 0, sessionId⟩
  helperReadDone := false
  pump := .idle
  helper := ⟨[], []⟩
  accepted := []

def send (s : State) (bytes : List UInt8) : State :=
  { s with helper := { s.helper with inflight := s.helper.inflight ++ bytes } }

/-- `attempt_reattach` のループの先頭。`attempt` は加える前の回数である。 -/
def startAttempt (s : State) (attempt bonus : Nat) (pending : Option (List UInt8)) : State :=
  match s.resume.sessionId with
  | none => { s with pump := .failed "no session_id, resume not supported for this connection" }
  | some _ => { s with pump := .reattaching (attempt + 1) bonus pending }

/-- 1 回の試行の失敗。回数を使い切っていれば `terminal_error` を立てる。 -/
def attemptFailed (s : State) (message : String) (attempt bonus : Nat) (pending : Option (List UInt8)) :
    State :=
  if attempt ≥ reattachMaxRetries then { s with pump := .failed message }
  else { s with pump := .backoff attempt bonus pending }

/-- 再接続に成功した後の続き。書きかけの chunk があれば書き直す。 -/
def resumed (s : State) (pending : Option (List UInt8)) : State :=
  match pending with
  | none => { s with helperReadDone := false, pump := .idle }
  | some chunk => { s with helperReadDone := false, pump := .writing chunk }

/-- `reattach_fn` の成功。確定したバイトの数までバッファを捨て、その先を再送する。 -/
def reattached (s : State) (attempt bonus : Nat) (pending : Option (List UInt8)) : State :=
  let helperCommittedOffset := s.helper.committed.length
  let buffer := s.resume.replayBuffer.advanceStart helperCommittedOffset
  let s := { s with
    resume := { s.resume with replayBuffer := buffer }
    helper := { s.helper with inflight := [] } }
  match buffer.replayFrom helperCommittedOffset with
  | some (b :: bytes) => { s with pump := .replaying (b :: bytes) attempt bonus pending }
  | _ => s.resumed pending

/-- 待ちの結果を受けて進む。待っていない結果は `none` である。 -/
def step (s : State) (e : Event) : Option State :=
  match e, s.pump with
  | .fromCaller chunk, .idle => some { s with pump := .writing chunk, accepted := s.accepted ++ chunk }
  | .fromCallerClosed, .idle => some { s with pump := .closed }
  | .fromHelper chunk deliveredOk, .idle =>
      if s.helperReadDone then none
      else if deliveredOk then
        some { s with resume := { s.resume with
          clientDeliveredOffset := s.resume.clientDeliveredOffset + chunk.length } }
      else some { s with pump := .closed }
  | .fromHelperClosed, .idle => if s.helperReadDone then none else some { s with helperReadDone := true }
  | .readFailed _, .idle => if s.helperReadDone then none else some (s.startAttempt 0 0 none)
  | .writeOk, .writing chunk =>
      some { s.send chunk with
        resume := { s.resume with replayBuffer := s.resume.replayBuffer.append chunk }
        pump := .idle }
  | .writeErr delivered _, .writing chunk =>
      some ((s.send (chunk.take delivered)).startAttempt 0 0 (some chunk))
  | .reattachOk, .reattaching attempt bonus pending => some (s.reattached attempt bonus pending)
  | .reattachErr message, .reattaching attempt bonus pending =>
      some (s.attemptFailed message attempt bonus pending)
  | .replayOk, .replaying bytes _ _ pending => some ((s.send bytes).resumed pending)
  | .replayErr delivered message, .replaying bytes attempt bonus pending =>
      some ((s.send (bytes.take delivered)).attemptFailed ("failed to replay C->S bytes: " ++ message)
        attempt bonus pending)
  | .backoffEnded networkWake, .backoff attempt bonus pending =>
      if networkWake ∧ bonus < networkWakeBonusRetries then
        some (s.startAttempt (attempt - 1) (bonus + 1) pending)
      else some (s.startAttempt attempt bonus pending)
  | .commit n, _ =>
      some { s with helper :=
        ⟨s.helper.committed ++ s.helper.inflight.take n, s.helper.inflight.drop n⟩ }
  | _, _ => none

def exec (capacity : Nat) (sessionId : Option SessionId) (es : List Event) : Option State :=
  es.foldlM step (init capacity sessionId)

end State

end IsekaiTerminal.Mobile
