import IsekaiTerminal.Lib.Transition

/-!
# mux の 1 つのセッション

`isekai-ssh/src/native/mux/owner.rs` の `relay_loop` と、`client.rs` の `run_inner` を、1 つの接続でつないだ遷移系にする。
フレームは、どちらの向きも送った順に届く。リモートの報告は、`relay_loop` が受け取った時点で報告されたとみなす。
ctl のビルドの中継は、フレームを書くことだけを載せる。時刻の単位はミリ秒である。
-/

namespace IsekaiTerminal.Mux

open Lib

/-! ## フレームとメッセージ -/

inductive ClientFrame
  | stdin (data : List UInt8)
  | resize (cols rows : UInt16)
  | shutdown
  | ctl (bytes : List UInt8)
deriving DecidableEq

inductive OwnerFrame
  | stdout (data : List UInt8)
  | stderr (data : List UInt8)
  | ctl (bytes : List UInt8)
  | exit (code : UInt8)
deriving DecidableEq

/-- `channel.wait()` の結果。`ended` は `None` である。 -/
inductive ChannelMsg
  | data (data : List UInt8)
  | extendedData (data : List UInt8)
  | exitStatus (exitStatus : UInt32)
  | exitSignal
  | eof
  | close
  | ended
  | other
deriving DecidableEq

/-- ctl の中継の出来事。`other` は、フレームを書かない出来事である。 -/
inductive RelayEvent
  | write (bytes : List UInt8)
  | other
deriving DecidableEq

inductive BreakReason
  | remoteExitReported
  | clientGone
  | transportDead
  | closeDeadline
deriving DecidableEq

inductive ClientOutcome
  | exited (code : UInt8)
  | ownerLost
deriving DecidableEq

inductive DispatchOutcome
  | done (code : UInt8)
  | ownerLost
deriving DecidableEq

/-- `run_with_reconnect` は、`done` ならその値で終わり、`ownerLost` なら再接続に進む。 -/
def ClientOutcome.dispatched : ClientOutcome → DispatchOutcome
  | .exited code => .done code
  | .ownerLost => .ownerLost

def shutdownCloseGrace : Nat := 5000

def noExitStatus : UInt8 := 255

/-! ## 状態 -/

/-- `relay_loop` の中断点。`checking` は、共有の接続が閉じたかを調べる前である。 -/
inductive RelayPhase
  | relaying
  | broken (reason : BreakReason)
  | checking
  | done
deriving DecidableEq

/-- `connLost` は、このクライアントの接続の失敗である。`remoteEnded` はリモートがチャネルを閉じたか、`writeFailed` は
チャネルへの書き込みが失敗したか、`closes` は owner がチャネルを閉じた回数、`reason` はループを抜けた理由の履歴である。 -/
structure Session where
  now : Nat
  phase : RelayPhase
  exitCode : Option UInt8
  stdinDone : Bool
  stdinDoneAt : Option Nat
  ownerClosed : Bool
  toOwner : List ClientFrame
  toClient : List OwnerFrame
  stdinOpen : Bool
  outcome : Option ClientOutcome
  connLost : Bool
  handleClosed : Bool
  remoteEnded : Bool
  writeFailed : Bool
  woken : Bool
  closes : Nat
  reason : Option BreakReason
deriving DecidableEq

/-- `written` は、その 1 歩の書き込みが成功したかである。 -/
inductive SessionAction
  | elapse (duration : Nat)
  | closeHandle
  | loseConnection
  | typed (data : List UInt8)
  | localEof
  | resized (cols rows : UInt16)
  | buildOutput (bytes : List UInt8)
  | clientWriteFailed
  | clientReceive
  | clientEof
  | ownerReceive (written : Bool)
  | ownerReadEnded
  | remote (msg : ChannelMsg) (written : Bool)
  | ctl (event : RelayEvent) (written : Bool)
  | closeDeadline
  | teardown (written : Bool)
  | checkShared
deriving DecidableEq

namespace Session

def start : Session :=
  { now := 0, phase := .relaying, exitCode := none, stdinDone := false, stdinDoneAt := none, ownerClosed := false,
    toOwner := [], toClient := [], stdinOpen := true, outcome := none, connLost := false, handleClosed := false,
    remoteEnded := false, writeFailed := false, woken := false, closes := 0, reason := none }

/-! ## owner -/

def breakWith (s : Session) (reason : BreakReason) : Session :=
  { s with phase := .broken reason, reason := some reason }

/-- クライアントへの書き込み。失敗すれば、クライアントは去ったとみなす。 -/
def relay (s : Session) (frame : OwnerFrame) (written : Bool) : Session :=
  if written then { s with toClient := s.toClient ++ [frame] } else s.breakWith .clientGone

/-- `frame_rx` の腕。 -/
def onClientFrame (s : Session) (written : Bool) : ClientFrame → Session
  | .stdin _ =>
      if s.stdinDone then s
      else if written then s
      else { s.breakWith .transportDead with writeFailed := true }
  | .resize _ _ => s
  | .shutdown => if s.stdinDone then s else { s with stdinDone := true, stdinDoneAt := some s.now }
  | .ctl _ => s

/-- `channel.wait()` の腕。 -/
def onChannelMsg (s : Session) (written : Bool) : ChannelMsg → Session
  | .data data => s.relay (.stdout data) written
  | .extendedData data => s.relay (.stderr data) written
  | .exitStatus exitStatus => { s with exitCode := some exitStatus.toUInt8 }
  | .exitSignal => { s with exitCode := some noExitStatus }
  | .close | .ended =>
      { s.breakWith (if s.exitCode.isSome then .remoteExitReported else .transportDead) with remoteEnded := true }
  | .eof | .other => s

def onCtlEvent (s : Session) (written : Bool) : RelayEvent → Session
  | .write bytes => s.relay (.ctl bytes) written
  | .other => s

def closeChannel (s : Session) : Session := { s with closes := s.closes + 1 }

def finalCode (s : Session) : UInt8 := s.exitCode.getD noExitStatus

/-- `Frame::Exit` を書いて、接続を手放す。 -/
def reportExit (s : Session) (written : Bool) : Session :=
  { s with
    phase := .done
    ownerClosed := true
    toClient := if written then s.toClient ++ [.exit s.finalCode] else s.toClient }

/-- ループの後の始末。`TransportDead` では `Frame::Exit` を書かない。 -/
def tearDown (s : Session) (written : Bool) : BreakReason → Session
  | .clientGone => s.closeChannel.reportExit written
  | .remoteExitReported | .closeDeadline => s.reportExit written
  | .transportDead => { s with phase := .checking, ownerClosed := true }

/-! ## client -/

def onOwnerFrame (s : Session) : OwnerFrame → Session
  | .exit code => { s with outcome := some (.exited code) }
  | .stdout _ | .stderr _ | .ctl _ => s

/-- クライアントの送り出し。 -/
def send (s : Session) (frame : ClientFrame) : Session := { s with toOwner := s.toOwner ++ [frame] }

/-! ## 遷移 -/

/-- クライアントの 1 歩。 -/
def clientStep (s : Session) : SessionAction → Option Session
  | .typed data => if s.stdinOpen then some (s.send (.stdin data)) else none
  | .localEof => if s.stdinOpen then some { s.send .shutdown with stdinOpen := false } else none
  | .resized cols rows => some (s.send (.resize cols rows))
  | .buildOutput bytes => some (s.send (.ctl bytes))
  | .clientWriteFailed => if s.connLost ∨ s.ownerClosed then some { s with stdinOpen := false } else none
  | .clientReceive =>
      match s.toClient with
      | [] => none
      | frame :: rest => some ({ s with toClient := rest }.onOwnerFrame frame)
  | .clientEof =>
      if s.connLost ∨ s.toClient = [] ∧ s.ownerClosed then some { s with outcome := some .ownerLost } else none
  | _ => none

/-- `relay_loop` の `select!` の 1 つの腕。 -/
def relayStep (s : Session) : SessionAction → Option Session
  | .ownerReceive written =>
      match s.toOwner with
      | [] => none
      | frame :: rest => some ({ s with toOwner := rest }.onClientFrame written frame)
  | .ownerReadEnded => some (s.breakWith .clientGone)
  | .remote msg written => some (s.onChannelMsg written msg)
  | .ctl event written => some (s.onCtlEvent written event)
  | .closeDeadline =>
      match s.stdinDoneAt with
      | some t => if t + shutdownCloseGrace ≤ s.now then some (s.closeChannel.breakWith .closeDeadline) else none
      | none => none
  | _ => none

/-- ループの後の 1 歩。接続が失われていなければ、`Frame::Exit` は書ける。 -/
def endStep (s : Session) : SessionAction → Option Session
  | .teardown written =>
      match s.phase with
      | .broken reason => if written ∨ s.connLost then some (s.tearDown written reason) else none
      | .relaying | .checking | .done => none
  | .checkShared =>
      if s.phase = .checking then some { s with phase := .done, woken := s.woken || s.handleClosed } else none
  | _ => none

def step (s : Session) (a : SessionAction) : Option Session :=
  match a with
  | .elapse duration => some { s with now := s.now + duration }
  | .closeHandle => some { s with handleClosed := true }
  | .loseConnection => some { s with connLost := true }
  | .typed _ | .localEof | .resized _ _ | .buildOutput _ | .clientWriteFailed | .clientReceive | .clientEof =>
      if s.outcome = none then s.clientStep a else none
  | .ownerReceive _ | .ownerReadEnded | .remote _ _ | .ctl _ _ | .closeDeadline =>
      if s.phase = .relaying then s.relayStep a else none
  | .teardown _ | .checkShared => s.endStep a

abbrev Steps (s : Session) (a : SessionAction) (s' : Session) : Prop := s.step a = some s'

/-! ## チャネルへの書き込み -/

/-- 標準入力のチャネルへの書き込みは失敗しない。 -/
def Written (s : Session) (a : SessionAction) : Prop :=
  (match a, s.toOwner with
    | .ownerReceive written, .stdin _ :: _ => written
    | _, _ => true) = true

instance (s : Session) (a : SessionAction) : Decidable (s.Written a) := inferInstanceAs (Decidable (_ = true))

end Session

/-- ループを抜けた後の、外からの入力の無い 1 歩。 -/
def SessionAction.isDraining : SessionAction → Bool
  | .clientReceive | .clientEof | .teardown _ | .checkShared => true
  | _ => false

namespace Session

abbrev Drain : Session → SessionAction → Session → Prop := Guarded Steps fun _ a => a.isDraining = true

end Session

end IsekaiTerminal.Mux
