import IsekaiTerminal.Lib.Mpsc
import IsekaiTerminal.Lib.Transition

/-!
# transport への入力の送出

`rust-core/src/session.rs` の `SessionCore::send` と `PendingStdin` と、event loop のうち transport へ送る部分を定める。
チャネルに触れる 1 回の操作を 1 つの遷移とし、UI と transport とほかの送り手は、その間のどこにでも入る。
-/

namespace IsekaiTerminal.SessionLoop

open Lib

/-- `WriteStdin` のほかの命令は、区別しない。 -/
inductive TransportCommand
  | writeStdin (bytes : List UInt8)
  | control
deriving DecidableEq

/-- 命令を送った側。transport には見えない。`other` は、端末の大きさの変更や clipboard の応答などを送る。 -/
inductive Sender
  | ui
  | eventLoop
  | other
deriving DecidableEq

/-! ## 待ち行列 -/

structure PendingStdin where
  queue : List (List UInt8)
  bytes : Nat
deriving DecidableEq

def pendingStdinHighWater : Nat := 1024 * 1024

namespace PendingStdin

def empty : PendingStdin := ⟨[], 0⟩

def push (p : PendingStdin) (bytes : List UInt8) : PendingStdin := ⟨p.queue ++ [bytes], p.bytes + bytes.length⟩

def isEmpty (p : PendingStdin) : Bool := p.queue.isEmpty

def acceptsMoreUpstream (p : PendingStdin) : Bool := p.bytes < pendingStdinHighWater

def pop (p : PendingStdin) : Option (List UInt8 × PendingStdin) :=
  match p.queue with
  | [] => none
  | bytes :: rest => some (bytes, ⟨rest, p.bytes - bytes.length⟩)

/-- 行列にあるバイト数。 -/
def total (p : PendingStdin) : Nat := (p.queue.map List.length).sum

end PendingStdin

/-! ## event loop の位置 -/

/-- `select` の `permit` は、待っている `reserve` が枠を得たことを表す。ほかは、これから処理する `SendStdin` の列を持つ。 -/
inductive Phase
  | select (permit : Bool)
  | dispatch (effects : List (List UInt8))
  | flush (effects : List (List UInt8))
  | permit (effects : List (List UInt8))
deriving DecidableEq

def Phase.effects : Phase → List (List UInt8)
  | select _ => []
  | dispatch effects => effects
  | flush effects => effects
  | permit effects => effects

/-- `others` は、ほかの送り手が取った枠の数である。`received` は、transport が受け取った命令の全体である。 -/
structure StdinState where
  channel : Mpsc (Sender × TransportCommand)
  others : Nat
  pending : PendingStdin
  phase : Phase
  sessionCmdClosed : Bool
  received : List (Sender × TransportCommand)
deriving DecidableEq

inductive StdinAction
  /-- `SessionCore::send`。 -/
  | send (bytes : List UInt8)
  | receive
  | close
  | otherReserve
  | otherSubmit (cmd : TransportCommand)
  | otherRelease
  /-- `session_cmd` と `reserve` のほかの腕。その結果の `SendStdin` の列を持つ。 -/
  | event (effects : List (List UInt8))
  | sessionCmd (cmd : Option (List (List UInt8)))
  /-- 待っている `reserve` が枠を得る。 -/
  | acquire
  | reserve
  /-- event loop が、チャネルか行列への操作を 1 つ進める。 -/
  | advance
deriving DecidableEq

namespace StdinState

def start (capacity : Nat) : StdinState := ⟨Mpsc.new capacity, 0, .empty, .select false, false, []⟩

/-- 選ばれなかった `reserve` は捨てられ、得ていた枠を返す。 -/
def leaveSelect (s : StdinState) (permit : Bool) (effects : List (List UInt8)) : StdinState :=
  { s with channel := if permit then s.channel.release else s.channel, phase := .dispatch effects }

/-- 枠で行列の先頭を送り、`flush` の繰り返しに移る。空の行列では、枠を返す。 -/
def submitHead (s : StdinState) (effects : List (List UInt8)) : StdinState :=
  match s.pending.pop with
  | some (bytes, pending) =>
      { s with channel := s.channel.submit (.eventLoop, .writeStdin bytes), pending := pending, phase := .flush effects }
  | none => { s with channel := s.channel.release, phase := .flush effects }

/-- `flush` の繰り返しの 1 回のうち、枠を取るまで。 -/
def flushHead (s : StdinState) (effects : List (List UInt8)) : StdinState :=
  if s.pending.isEmpty then { s with phase := .dispatch effects }
  else if s.channel.closed then { s with pending := .empty, phase := .dispatch effects }
  else
    match s.channel.tryReserve with
    | some channel => { s with channel := channel, phase := .permit effects }
    | none => { s with phase := .dispatch effects }

def advance (s : StdinState) : Option StdinState :=
  match s.phase with
  | .select _ => none
  | .dispatch [] => some { s with phase := .select false }
  | .dispatch (bytes :: effects) => some { s with pending := s.pending.push bytes, phase := .flush effects }
  | .flush effects => some (s.flushHead effects)
  | .permit effects => some (s.submitHead effects)

/-- `select!` で待っているとき、`reserve` の腕が選ばれる。枠を得ているか、チャネルが閉じたときである。 -/
def reserve (s : StdinState) (permit : Bool) : Option StdinState :=
  if permit then some (s.submitHead [])
  else if s.channel.closed && !s.pending.isEmpty then some { s with phase := .flush [] }
  else none

def sessionCmd (s : StdinState) (permit : Bool) (cmd : Option (List (List UInt8))) : Option StdinState :=
  if !s.sessionCmdClosed && s.pending.acceptsMoreUpstream then
    match cmd with
    | some effects => some (s.leaveSelect permit effects)
    | none => some { s.leaveSelect permit [] with sessionCmdClosed := true }
  else none

def acquire (s : StdinState) (permit : Bool) : Option StdinState :=
  if permit || s.pending.isEmpty then none
  else s.channel.tryReserve.map fun channel => { s with channel := channel, phase := .select true }

/-- `select!` の腕。 -/
def arm (s : StdinState) (permit : Bool) : StdinAction → Option StdinState
  | .event effects => some (s.leaveSelect permit effects)
  | .sessionCmd cmd => s.sessionCmd permit cmd
  | .acquire => s.acquire permit
  | .reserve => s.reserve permit
  | _ => none

def step (s : StdinState) : StdinAction → Option StdinState
  | .send bytes => some { s with channel := (s.channel.trySend (.ui, .writeStdin bytes)).getD s.channel }
  | .receive => s.channel.recv.map fun (cmd, channel) => { s with channel := channel, received := s.received ++ [cmd] }
  | .close => some { s with channel := s.channel.close }
  | .otherReserve => s.channel.tryReserve.map fun channel => { s with channel := channel, others := s.others + 1 }
  | .otherSubmit cmd =>
      if 0 < s.others then some { s with channel := s.channel.submit (.other, cmd), others := s.others - 1 } else none
  | .otherRelease => if 0 < s.others then some { s with channel := s.channel.release, others := s.others - 1 } else none
  | .advance => s.advance
  | a =>
      match s.phase with
      | .select permit => s.arm permit a
      | _ => none

def Steps (s : StdinState) (a : StdinAction) (s' : StdinState) : Prop := s.step a = some s'

end StdinState

/-! ## 送り手ごとの列 -/

namespace StdinAction

def sends : StdinAction → List (List UInt8)
  | send bytes => [bytes]
  | _ => []

def effects : StdinAction → List (List UInt8)
  | event effects => effects
  | sessionCmd (some effects) => effects
  | _ => []

end StdinAction

/-- ある送り手の `WriteStdin` の列。 -/
def stdinFrom (who : Sender) (cmds : List (Sender × TransportCommand)) : List (List UInt8) :=
  cmds.filterMap fun
    | (sender, .writeStdin bytes) => if sender = who then some bytes else none
    | (_, .control) => none

namespace StdinState

/-- チャネルに入った命令の全体。transport が受け取った分が先頭である。 -/
def commands (s : StdinState) : List (Sender × TransportCommand) := s.received ++ s.channel.buffer

/-- まだチャネルに入れていない `SendStdin` の列。 -/
def waiting (s : StdinState) : List (List UInt8) := s.pending.queue ++ s.phase.effects

/-- `send` に渡した列のうち、枠が空いていたものの列。 -/
def accepted : StdinState → List StdinAction → List (List UInt8)
  | _, [] => []
  | s, a :: as =>
      (if s.channel.HasSlot then a.sends else []) ++
        match s.step a with
        | some s' => s'.accepted as
        | none => []

end StdinState

namespace StdinState

/-- event loop が、外からの入力無しに進められる操作。 -/
def Internal (s : StdinState) (a : StdinAction) (s' : StdinState) : Prop :=
  (a = .acquire ∨ a = .reserve ∨ a = .advance) ∧ Steps s a s'

end StdinState

end IsekaiTerminal.SessionLoop
