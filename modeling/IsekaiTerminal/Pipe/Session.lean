import IsekaiTerminal.Pipe.ReplayBuffer
import IsekaiTerminal.Protocol.Attach

/-!
# 再開できる中継（`isekai-pipe`）

client の `run_resume_loop` と、server の `handle_resume_stream`、`relay_buffered` を、1 つの待ちごとに進む
1 つの遷移として定める。接続は番号で区別し、どちらの向きのバイト列も、送られた列と、そのうち読まれた数で表す。
接続とともに失われるバイトは、二度と読まれないバイトである。

client は接続を 1 本ずつ使うが、server には古い接続のタスクが残る。target の TCP を持つのは、そのうちの高々 1 つで
ある。どのタスクも、待ちのどこで中断されてもよい。`client_sent_offset` と `helper_sent_offset` は記録にしか
使われないので省く。
-/

namespace IsekaiTerminal.Pipe

/-- `run_data_pump` と `relay_buffered` の読み込みバッファの長さ。 -/
def readBufferLen : Nat := 16 * 1024

/-! ## 接続 -/

abbrev ConnId := Nat

/-- 1 方向のバイト列。`fin` は、送る側が終わりを告げたことを表す。 -/
structure Stream where
  sent : List UInt8
  read : Nat
  fin : Bool
deriving DecidableEq

namespace Stream

def empty : Stream := ⟨[], 0, false⟩

def push (stream : Stream) (bytes : List UInt8) : Stream := { stream with sent := stream.sent ++ bytes }

def unread (stream : Stream) : List UInt8 := stream.sent.drop stream.read

def advance (stream : Stream) (n : Nat) : Stream := { stream with read := stream.read + n }

def finish (stream : Stream) : Stream := { stream with fin := true }

/-- 1 回の `read` が返しうる長さ。 -/
def CanRead (stream : Stream) (n : Nat) : Prop := 0 < n ∧ n ≤ readBufferLen ∧ n ≤ stream.unread.length

instance (stream : Stream) (n : Nat) : Decidable (stream.CanRead n) := inferInstanceAs (Decidable (_ ∧ _))

def atEof (stream : Stream) : Bool := stream.fin && stream.unread.isEmpty

end Stream

/-- server に届いた RESUME の処理。`again` は、明け渡しを求めて 1 回待った後である。 -/
inductive Request
  | absent
  | first
  | again
deriving DecidableEq

/-! ## client のタスク -/

/-- `pump_c2h` が待っている場所。 -/
inductive C2hPump
  /-- ループの先頭。確認済みのバイトを捨て、空きを確かめる。 -/
  | checking
  | readingStdin
  | sending (rest : List UInt8)
  | done
deriving DecidableEq

/-- `pump_h2c` が待っている場所。`len` は読み込んだ chunk の長さである。 -/
inductive H2cPump
  | readingRemote
  | writing (len : Nat) (rest : List UInt8)
  | flushing (len : Nat)
  | done
deriving DecidableEq

inductive Phase
  /-- `run_data_pump`。 -/
  | pumping (conn : ConnId) (c2h : C2hPump) (h2c : H2cPump)
  | disconnected
  /-- `dial_and_replay` または `promote` が、RESUME の応答を待っている。 -/
  | dialing (conn : ConnId) (warmStandby : Bool)
  /-- `replay_and_advance` の `write_all` を待っている。 -/
  | replaying (conn : ConnId) (committedOffset : Nat) (rest : List UInt8)
  /-- `reestablish_control_stream` を待っている。 -/
  | reestablishing (conn : ConnId)
  | ended
deriving DecidableEq

structure AppAckCounters where
  h2cClientDeliveredOffset : Nat
  c2hHelperCommittedOffset : Nat
deriving DecidableEq

/-! ## server のタスク -/

/-- `relay_buffered` が待っている場所。 -/
inductive Relay
  | waiting
  /-- `tcp_write.write` を待っている。`rest` は `c2s_buf[written..n]` である。 -/
  | writing (rest : List UInt8)
  /-- `k` バイトを書き終え、数えるために `session` のロックを待っている。 -/
  | counting (k : Nat) (rest : List UInt8)
  /-- 読み込んだ列をバッファに加えるために `session` のロックを待っている。 -/
  | appending (bytes : List UInt8)
  | sending (rest : List UInt8)
deriving DecidableEq

/-- target の TCP を持つもの。 -/
inductive Owner
  | parked
  /-- `ResumeGranted` を受け取った直後。 -/
  | granted (conn : ConnId)
  /-- `RESUME_ACK` を書いている。 -/
  | acking (conn : ConnId) (committedOffset : Nat) (replay : List UInt8)
  /-- `RESUME_ACK` に続けて、再送の列を書いている。 -/
  | replaying (conn : ConnId) (rest : List UInt8)
  | relaying (conn : ConnId) (relay : Relay)
  /-- target との接続が終わったか、session が捨てられた。 -/
  | closed
deriving DecidableEq

structure Session where
  outputBuffer : ReplayBuffer
  helperCommittedOffset : Nat
deriving DecidableEq

/-! ## 状態 -/

/-- client と server とその間の接続。`stdin` と `targetSent` は、それぞれ client が標準入力から、server が target から
読み終えた列であり、`stdout` と `target` は、それぞれ標準出力と target に書き終えた列である。 -/
structure State where
  stdin : List UInt8
  stdout : List UInt8
  replay : ReplayBuffer
  counters : AppAckCounters
  phase : Phase
  nextConn : ConnId
  request : ConnId → Request
  /-- RESUME が運ぶ `client_delivered_offset`。 -/
  deliveredOffset : ConnId → Nat
  /-- `RESUME_ACK` が運ぶ `helper_committed_offset`。 -/
  ack : ConnId → Option Nat
  c2s : ConnId → Stream
  s2c : ConnId → Stream
  acksToClient : List Nat
  acksToServer : List Nat
  target : List UInt8
  targetSent : List UInt8
  session : Session
  owner : Owner
  c2sDone : Bool
  /-- この中継がバッファに加えるのをやめ、session が unresumable になった。 -/
  replayDisabled : Bool
  preempted : Bool

inductive ClientAct
  | checkSpace
  | readStdin (bytes : List UInt8)
  | stdinEof
  | sendC2h (n : Nat)
  | readRemote (n : Nat)
  | remoteEof
  | writeStdout (n : Nat)
  | flushStdout
  /-- どちらかの向きが失敗するか、network の変化で pump を捨てる。 -/
  | pumpFailed (localSide : Bool)
  | dial (warmStandby : Bool)
  | dialFailed
  | resumeAcked
  | sendReplay (n : Nat)
  | replayFailed
  | controlReestablished
  | giveUp
  | sendAppAck
  | recvAppAck (offset : Nat)
deriving DecidableEq

inductive ServerAct
  | resumeRequested (conn : ConnId)
  | snapshot
  | sendAck
  | sendReplay (n : Nat)
  | resumeFailed
  | readClient (n : Nat)
  | clientEof
  | writeTarget (n : Nat)
  | count
  | readTarget (bytes : List UInt8)
  | append
  | sendS2c (n : Nat)
  | giveUpReplay
  | dataStreamDied
  | preempt
  | targetEof
  | targetFailed
  /-- タスクが中断され、`EstablishedLease` の `Drop` が session を捨てる。 -/
  | aborted
  | expired
  | sendAppAck
  | recvAppAck (offset : Nat)
deriving DecidableEq

inductive Act
  | client (act : ClientAct)
  | server (act : ServerAct)
deriving DecidableEq

namespace State

/-- 最初の接続の中継が始まったところ。 -/
def init (replayCapacity outputCapacity : Nat) : State where
  stdin := []
  stdout := []
  replay := .new replayCapacity
  counters := ⟨0, 0⟩
  phase := .pumping 0 .checking .readingRemote
  nextConn := 1
  request := fun _ => .absent
  deliveredOffset := fun _ => 0
  ack := Function.update (fun _ => none) 0 (some 0)
  c2s := fun _ => .empty
  s2c := fun _ => .empty
  acksToClient := []
  acksToServer := []
  target := []
  targetSent := []
  session := ⟨.new outputCapacity, 0⟩
  owner := .relaying 0 .waiting
  c2sDone := false
  replayDisabled := false
  preempted := false

def setRequest (s : State) (conn : ConnId) (request : Request) : State :=
  { s with request := Function.update s.request conn request }

def setC2s (s : State) (conn : ConnId) (stream : Stream) : State :=
  { s with c2s := Function.update s.c2s conn stream }

def setS2c (s : State) (conn : ConnId) (stream : Stream) : State :=
  { s with s2c := Function.update s.s2c conn stream }

/-- client が送る側を閉じるか手放す。`reset` で捨てた接続では、server は終わりを読まない。 -/
def finishC2s (s : State) (conn : ConnId) : State := s.setC2s conn (s.c2s conn).finish

/-- server が送る側を閉じるか手放す。 -/
def finishS2c (s : State) (conn : ConnId) : State := s.setS2c conn (s.s2c conn).finish

/-! ## client の遷移 -/

/-- 両方の向きが終われば、`run_data_pump` は `Ok` で終わる。 -/
def pumped (s : State) (conn : ConnId) (c2h : C2hPump) (h2c : H2cPump) : State :=
  { s with phase := if c2h = .done ∧ h2c = .done then .ended else .pumping conn c2h h2c }

def shouldGiveUpWithoutResuming (localSide : Bool) (c2h : C2hPump) : Bool := localSide || c2h = .done

def committedOffsetOutOfReplayRange (replay : ReplayBuffer) (committedOffset : Nat) : Bool :=
  committedOffset < replay.startOffset || committedOffset > replay.endOffset

/-- RESUME の応答を受け取った後。範囲の外の offset では新しい接続を手放し、warm standby では次の試行に回し、ほかでは
諦める。 -/
def resumeAccepted (s : State) (conn : ConnId) (warmStandby : Bool) (committedOffset : Nat) : State :=
  if !warmStandby && committedOffsetOutOfReplayRange s.replay committedOffset then
    { s.finishC2s conn with phase := .ended }
  else
    match s.replay.replayFrom committedOffset with
    | none => { s.finishC2s conn with phase := .disconnected }
    | some bytes => { s with phase := .replaying conn committedOffset bytes }

def clientStep (s : State) : ClientAct → Option State
  | .checkSpace =>
      match s.phase with
      | .pumping conn .checking h2c =>
          let replay := s.replay.advanceStart s.counters.c2hHelperCommittedOffset
          some { s with
            replay
            phase := .pumping conn (if replay.isFull then .checking else .readingStdin) h2c }
      | _ => none
  | .readStdin bytes =>
      match s.phase with
      | .pumping conn .readingStdin h2c =>
          if bytes = [] ∨ bytes.length > min readBufferLen s.replay.remainingCapacity then none
          else
            let s := { s with stdin := s.stdin ++ bytes }
            -- 送る前にバッファに加える。
            match s.replay.append bytes with
            | none => some { s with phase := .disconnected }
            | some replay => some { s with replay, phase := .pumping conn (.sending bytes) h2c }
      | _ => none
  | .stdinEof =>
      match s.phase with
      -- `shutdown` は FIN を積むだけで、待たずに返る。
      | .pumping conn .readingStdin h2c => some ((s.finishC2s conn).pumped conn .done h2c)
      | _ => none
  | .sendC2h n =>
      match s.phase with
      | .pumping conn (.sending rest) h2c =>
          let s := s.setC2s conn ((s.c2s conn).push (rest.take n))
          let c2h := if rest.drop n = [] then .checking else .sending (rest.drop n)
          some { s with phase := .pumping conn c2h h2c }
      | _ => none
  | .readRemote n =>
      match s.phase with
      | .pumping conn c2h .readingRemote =>
          if (s.s2c conn).CanRead n then
            let chunk := (s.s2c conn).unread.take n
            some { s.setS2c conn ((s.s2c conn).advance n) with phase := .pumping conn c2h (.writing n chunk) }
          else none
      | _ => none
  | .remoteEof =>
      match s.phase with
      | .pumping conn c2h .readingRemote => if (s.s2c conn).atEof then some (s.pumped conn c2h .done) else none
      | _ => none
  | .writeStdout n =>
      match s.phase with
      | .pumping conn c2h (.writing len rest) =>
          some { s with
            stdout := s.stdout ++ rest.take n
            phase := .pumping conn c2h
              (if rest.drop n = [] then .flushing len else .writing len (rest.drop n)) }
      | _ => none
  | .flushStdout =>
      match s.phase with
      | .pumping conn c2h (.flushing len) =>
          some { s with
            counters := { s.counters with
              h2cClientDeliveredOffset := s.counters.h2cClientDeliveredOffset + len }
            phase := .pumping conn c2h .readingRemote }
      | _ => none
  | .pumpFailed localSide =>
      match s.phase with
      | .pumping conn c2h _ =>
          -- 再開しないときは `shutdown`、再開するときは `reset` で接続を捨てる。
          if shouldGiveUpWithoutResuming localSide c2h then
            some { s.finishC2s conn with phase := .ended }
          else some { s with phase := .disconnected }
      | _ => none
  | .dial warmStandby =>
      match s.phase with
      | .disconnected =>
          some { s.setRequest s.nextConn .first with
            deliveredOffset :=
              Function.update s.deliveredOffset s.nextConn s.counters.h2cClientDeliveredOffset
            nextConn := s.nextConn + 1
            phase := .dialing s.nextConn warmStandby }
      | _ => none
  | .dialFailed =>
      match s.phase with
      | .dialing conn _ => some { s.finishC2s conn with phase := .disconnected }
      | _ => none
  | .resumeAcked =>
      match s.phase with
      | .dialing conn warmStandby => (s.ack conn).map (s.resumeAccepted conn warmStandby)
      | _ => none
  | .sendReplay n =>
      match s.phase with
      | .replaying conn committedOffset rest =>
          let s := s.setC2s conn ((s.c2s conn).push (rest.take n))
          if rest.drop n = [] then
            some { s with replay := s.replay.advanceStart committedOffset, phase := .reestablishing conn }
          else some { s with phase := .replaying conn committedOffset (rest.drop n) }
      | _ => none
  | .replayFailed =>
      match s.phase with
      | .replaying conn _ _ => some { s.finishC2s conn with phase := .disconnected }
      | _ => none
  | .controlReestablished =>
      match s.phase with
      -- control stream を作り直せなくても、中継を始める。
      | .reestablishing conn => some { s with phase := .pumping conn .checking .readingRemote }
      | _ => none
  | .giveUp =>
      match s.phase with
      | .disconnected => some { s with phase := .ended }
      | _ => none
  | .sendAppAck => some { s with acksToServer := s.counters.h2cClientDeliveredOffset :: s.acksToServer }
  | .recvAppAck offset =>
      if offset ∈ s.acksToClient then
        if offset ≥ s.counters.c2hHelperCommittedOffset then
          some { s with counters := { s.counters with c2hHelperCommittedOffset := offset } }
        else some s
      else none

/-! ## server の遷移 -/

/-- 接続を手放して TCP を park する。replay を諦めた session は、park されずに捨てられる。 -/
def park (s : State) (conn : ConnId) : State :=
  { s.finishS2c conn with owner := if s.replayDisabled then .closed else .parked }

def discard (s : State) (conn : ConnId) : State := { s.finishS2c conn with owner := .closed }

def startRelay (s : State) (conn : ConnId) : State :=
  { s with owner := .relaying conn .waiting, c2sDone := false, preempted := false }

/-- target から 1 回に読み込む長さの上限。 -/
def s2cReadLen (s : State) : Nat :=
  if s.replayDisabled then readBufferLen else min s.session.outputBuffer.remainingCapacity readBufferLen

def serverStep (s : State) : ServerAct → Option State
  | .resumeRequested conn =>
      match s.request conn, s.owner with
      | .absent, _ => none
      | .first, .parked => some { s.setRequest conn .absent with owner := .granted conn }
      | .first, .closed => some (s.setRequest conn .absent)
      | .first, .relaying _ _ => some { s.setRequest conn .again with preempted := true }
      -- まだ中継を始めていない持ち主には、明け渡しの求めが届かない。
      | .first, _ => some (s.setRequest conn .again)
      | .again, .parked => some { s.setRequest conn .absent with owner := .granted conn }
      | .again, _ => some (s.setRequest conn .absent)
  | .snapshot =>
      match s.owner with
      | .granted conn =>
          match s.session.outputBuffer.replayFrom (s.deliveredOffset conn) with
          | none => some (s.park conn)
          | some bytes => some { s with owner := .acking conn s.session.helperCommittedOffset bytes }
      | _ => none
  | .sendAck =>
      match s.owner with
      | .acking conn committedOffset bytes =>
          some { s with
            ack := Function.update s.ack conn (some committedOffset)
            owner := .replaying conn bytes }
      | _ => none
  | .sendReplay n =>
      match s.owner with
      | .replaying conn rest =>
          let s := s.setS2c conn ((s.s2c conn).push (rest.take n))
          if rest.drop n = [] then some (s.startRelay conn)
          else some { s with owner := .replaying conn (rest.drop n) }
      | _ => none
  | .resumeFailed =>
      match s.owner with
      | .acking conn _ _ | .replaying conn _ => some (s.park conn)
      | _ => none
  | .readClient n =>
      match s.owner with
      | .relaying conn .waiting =>
          if s.c2sDone = false ∧ (s.c2s conn).CanRead n then
            let chunk := (s.c2s conn).unread.take n
            some { s.setC2s conn ((s.c2s conn).advance n) with owner := .relaying conn (.writing chunk) }
          else none
      | _ => none
  | .clientEof =>
      match s.owner with
      | .relaying conn .waiting =>
          if s.c2sDone = false ∧ (s.c2s conn).atEof then some { s with c2sDone := true } else none
      | _ => none
  | .writeTarget n =>
      match s.owner with
      | .relaying conn (.writing rest) =>
          if 0 < n ∧ n ≤ rest.length then
            some { s with
              target := s.target ++ rest.take n
              owner := .relaying conn (.counting n (rest.drop n)) }
          else none
      | _ => none
  | .count =>
      match s.owner with
      | .relaying conn (.counting k rest) =>
          some { s with
            session := { s.session with helperCommittedOffset := s.session.helperCommittedOffset + k }
            owner := .relaying conn (if rest = [] then .waiting else .writing rest) }
      | _ => none
  | .readTarget bytes =>
      match s.owner with
      | .relaying conn .waiting =>
          if bytes = [] ∨ bytes.length > s.s2cReadLen then none
          else some { s with
            targetSent := s.targetSent ++ bytes
            owner := .relaying conn (if s.replayDisabled then .sending bytes else .appending bytes) }
      | _ => none
  | .append =>
      match s.owner with
      | .relaying conn (.appending bytes) =>
          match s.session.outputBuffer.append bytes with
          | none => some (s.park conn)
          | some outputBuffer =>
              some { s with
                session := { s.session with outputBuffer }
                owner := .relaying conn (.sending bytes) }
      | _ => none
  | .sendS2c n =>
      match s.owner with
      | .relaying conn (.sending rest) =>
          let s := s.setS2c conn ((s.s2c conn).push (rest.take n))
          some { s with owner := .relaying conn (if rest.drop n = [] then .waiting else .sending (rest.drop n)) }
      | _ => none
  | .giveUpReplay =>
      match s.owner with
      | .relaying _ .waiting =>
          if s.session.outputBuffer.isFull then some { s with replayDisabled := true } else none
      | _ => none
  | .dataStreamDied =>
      match s.owner with
      | .relaying conn .waiting | .relaying conn (.sending _) => some (s.park conn)
      | _ => none
  | .preempt =>
      match s.owner with
      | .relaying conn .waiting | .relaying conn (.writing _) | .relaying conn (.sending _) =>
          if s.preempted then some (s.park conn) else none
      | _ => none
  | .targetEof =>
      match s.owner with
      | .relaying conn .waiting => some (s.discard conn)
      | _ => none
  | .targetFailed =>
      match s.owner with
      | .relaying conn .waiting | .relaying conn (.writing _) => some (s.discard conn)
      | _ => none
  | .aborted =>
      match s.owner with
      | .parked | .closed => none
      | .granted conn | .acking conn _ _ | .replaying conn _ | .relaying conn _ => some (s.discard conn)
  | .expired =>
      match s.owner with
      | .parked => some { s with owner := .closed }
      | _ => none
  | .sendAppAck => some { s with acksToClient := s.session.helperCommittedOffset :: s.acksToClient }
  | .recvAppAck offset =>
      if offset ∈ s.acksToServer then
        some { s with session := { s.session with
          outputBuffer := s.session.outputBuffer.advanceStart offset } }
      else none

def step (s : State) : Act → Option State
  | .client act => s.clientStep act
  | .server act => s.serverStep act

/-- `step` を遷移の関係として見たもの。 -/
def Step (s : State) (act : Act) (s' : State) : Prop := s.step act = some s'

end State

/-! ## 数え終えた再開 -/

/-- 読んだ chunk のうち、まだ標準出力に渡していない列。 -/
def H2cPump.unhanded : H2cPump → List UInt8
  | .writing _ rest => rest
  | .readingRemote | .flushing _ | .done => []

/-- 読んだが、まだ数えていない chunk の長さ。 -/
def H2cPump.chunkLen : H2cPump → Nat
  | .writing len _ | .flushing len => len
  | .readingRemote | .done => 0

namespace State

def countedBeforeResume (s : State) : Act → Bool
  | .client (.pumpFailed localSide) =>
      match s.phase with
      | .pumping _ c2h h2c =>
          shouldGiveUpWithoutResuming localSide c2h || h2c.unhanded.length == h2c.chunkLen
      | _ => true
  | _ => true

/-- 標準出力に渡した列を数え終えないうちに、再開のために pump を捨てることがない。 -/
def CountedBeforeResume (s : State) (act : Act) : Prop := s.countedBeforeResume act = true

end State

/-- target に書いたが、まだ数えていないバイトの数。 -/
def Owner.uncounted : Owner → Nat
  | .relaying _ (.counting k _) => k
  | _ => 0

end IsekaiTerminal.Pipe
