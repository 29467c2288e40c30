import Mathlib
import IsekaiTerminal.Lib.Transition

/-!
# tty デーモン

`isekai-pipe/src/tty/daemon.rs` の `handle_client` を、クライアントごとの writer task と reader loop の
状態機械として定める。`await` をまたぐ処理は別の遷移であり、その間に他の処理が割り込める。
-/

namespace IsekaiTerminal.Tty

/-!
## 接続先の占有者と再生バッファ

`isekai-pipe/src/tty` の `ring_buffer.rs` と `attach_slot.rs` を定める。
1 つのロックの下で行われる操作を、`SlotState` 上の 1 つの関数とする。
-/

/-! ## 再生バッファ -/

/-- `ESC c`。 -/
def softReset : List UInt8 := [0x1b, 0x63]

structure RingBuffer where
  buf : List UInt8
  capacity : Nat
deriving DecidableEq

namespace RingBuffer

def new (capacity : Nat) : RingBuffer := { buf := [], capacity }

/-- 古いバイトを捨ててから加える。受け入れを拒むことはない。 -/
def append (rb : RingBuffer) (data : List UInt8) : RingBuffer :=
  if data.length ≥ rb.capacity then { rb with buf := data.drop (data.length - rb.capacity) }
  else
    let overflow := (rb.buf.length + data.length) - rb.capacity
    { rb with buf := rb.buf.drop overflow ++ data }

def replay (rb : RingBuffer) : List UInt8 := if rb.buf = [] then [] else softReset ++ rb.buf

end RingBuffer

/-! ## 占有者 -/

inductive RelayMsg
  | data (bytes : List UInt8)
  | exit (code : UInt8)
deriving DecidableEq

/-- デーモンとクライアントの間のフレーム。 -/
inductive Frame
  | hello (cols rows : UInt16)
  | helloAck
  | stdin (bytes : List UInt8)
  | resize (cols rows : UInt16)
  | stdout (bytes : List UInt8)
  | exit (code : UInt8)
  | preempted
deriving DecidableEq

/-- `occupant` は送信端であり、その受信端を持つクライアントの世代で表す。 -/
structure SlotState where
  generation : Nat
  occupant : Option Nat
  ring : RingBuffer
  missed : Bool
deriving DecidableEq

namespace SlotState

def new (ringCapacity : Nat) : SlotState :=
  { generation := 0, occupant := none, ring := .new ringCapacity, missed := false }

/-- `delivered` は、占有者への `try_send` が成功したかどうかである。 -/
def broadcast (slot : SlotState) (data : List UInt8) (delivered : Bool) : SlotState :=
  { slot with
    ring := slot.ring.append data
    missed := slot.missed || (slot.occupant.isSome && !delivered) }

def takeMissed (slot : SlotState) (generation : Nat) : Bool × SlotState :=
  if slot.generation ≠ generation then (false, slot) else (slot.missed, { slot with missed := false })

def currentReplay (slot : SlotState) : List UInt8 := slot.ring.replay

/-- 新しい世代と再生の内容は、`generation` と `currentReplay` で読む。 -/
def install (slot : SlotState) : SlotState :=
  { slot with generation := slot.generation + 1, occupant := some (slot.generation + 1), missed := false }

def isCurrent (slot : SlotState) (generation : Nat) : Bool := slot.generation = generation

def vacate (slot : SlotState) (generation : Nat) : SlotState :=
  if slot.generation = generation then { slot with occupant := none } else slot

end SlotState

/-! ## クライアント -/

/-- 書き込みの側の位置。`greeting` までは writer task を起こす前の `handle_client` である。 -/
inductive Writer
  | helloAck (replay : List UInt8)
  | greeting (replay : List UInt8)
  /-- ループの先頭。`take_missed` を呼ぶ。 -/
  | checking
  /-- `take_missed` が真を返した。 -/
  | resyncing
  | replaying (snapshot : List UInt8)
  /-- `rx.recv().await`。 -/
  | waiting
  | forwarding (bytes : List UInt8)
  /-- `Exit` を取り出した。 -/
  | exitSnapshot (code : UInt8)
  | exitReplaying (snapshot : List UInt8) (code : UInt8)
  | exiting (code : UInt8)
  | preempted
  | stopped
deriving DecidableEq

/-- 読み取りの側の位置。 -/
inductive Reader
  /-- 挨拶を書き終えるまで、ループは始まらない。 -/
  | starting
  | reading
  | checking (frame : Frame)
  /-- `write_all` の途中。引数は残りである。 -/
  | writing (rest : List UInt8)
  | resizing (cols rows : UInt16)
  | leaving
  | aborting
  | closed
deriving DecidableEq

/-- `written` は、このクライアントの socket へ書いたフレームの列である。 -/
structure Client where
  queue : List RelayMsg
  writer : Writer
  written : List Frame
  reader : Reader
deriving DecidableEq

/-- まだ割り当てられていない世代。 -/
def Client.absent : Client := { queue := [], writer := .stopped, written := [], reader := .closed }

/-- 受信端は writer task が持ち、その終わりに閉じる。 -/
def Client.canReceive (c : Client) (channelCapacity : Nat) : Bool :=
  c.writer ≠ .stopped && c.queue.length < channelCapacity

/-- pty への作用。`current` は、そのときの `slot` の世代である。 -/
structure PtyEffect where
  generation : Option Nat
  current : Nat
  frame : Frame
deriving DecidableEq

/-- `output` は、これまでに broadcast された出力の列である。
`dropped` は、占有者のチャネルに入らなかった最後の出力までの個数である。 -/
structure Daemon where
  slot : SlotState
  channelCapacity : Nat
  clients : Nat → Client
  pty : List PtyEffect
  output : List (List UInt8)
  dropped : Nat

def Daemon.init (ringCapacity channelCapacity : Nat) : Daemon :=
  { slot := .new ringCapacity, channelCapacity, clients := fun _ => .absent, pty := [], output := [], dropped := 0 }

namespace Daemon

def setClient (s : Daemon) (g : Nat) (c : Client) : Daemon := { s with clients := Function.update s.clients g c }

def ptyEffect (s : Daemon) (generation : Option Nat) (frame : Frame) : Daemon :=
  { s with pty := s.pty ++ [⟨generation, s.slot.generation, frame⟩] }

/-! ## pty の側 -/

def trySend (s : Daemon) (g : Nat) (msg : RelayMsg) : Daemon :=
  s.setClient g { s.clients g with queue := (s.clients g).queue ++ [msg] }

/-- 読み出した出力を配る。チャネルが満ちていれば捨て、`missed` を立てる。 -/
def broadcast (s : Daemon) (data : List UInt8) : Daemon :=
  let s' := { s with output := s.output ++ [data] }
  match s.slot.occupant with
  | none => { s' with slot := s.slot.broadcast data false }
  | some g =>
    if (s.clients g).canReceive s.channelCapacity then
      { s'.trySend g (.data data) with slot := s.slot.broadcast data true }
    else { s' with slot := s.slot.broadcast data false, dropped := s.output.length + 1 }

/-- `notify_exit` の 1 回の試み。再試行は、もう一度行うことで表す。 -/
def notifyExit (s : Daemon) (code : UInt8) : Daemon :=
  match s.slot.occupant with
  | none => s
  | some g => if (s.clients g).canReceive s.channelCapacity then s.trySend g (.exit code) else s

/-! ## `handle_client` -/

/-- 占有者を入れ替え、同じロックの下で再生の内容を読む。 -/
def install (s : Daemon) : Daemon :=
  let slot := s.slot.install
  { s with
    slot
    dropped := 0
    clients := Function.update s.clients slot.generation
      { queue := [], writer := .helloAck slot.currentReplay, written := [], reader := .starting } }

/-- writer task（と、それを起こす前の挨拶）の 1 段。`recv` が待つところでは進めない。 -/
def writerStep (s : Daemon) (g : Nat) : Option Daemon :=
  let c := s.clients g
  match c.writer with
  | .helloAck replay => some (s.setClient g { c with writer := .greeting replay, written := c.written ++ [.helloAck] })
  | .greeting replay =>
    some (s.setClient g
      { c with
        writer := .checking
        reader := .reading
        written := if replay = [] then c.written else c.written ++ [.stdout replay] })
  | .checking =>
    let taken := s.slot.takeMissed g
    some ({ s with slot := taken.2 }.setClient g { c with writer := if taken.1 then .resyncing else .waiting })
  | .resyncing => some (s.setClient g { c with writer := .replaying s.slot.currentReplay })
  | .replaying snapshot => some (s.setClient g { c with writer := .waiting, written := c.written ++ [.stdout snapshot] })
  | .waiting =>
    match c.queue with
    | .data bytes :: queue => some (s.setClient g { c with queue, writer := .forwarding bytes })
    | .exit code :: queue => some (s.setClient g { c with queue, writer := .exitSnapshot code })
    | [] => if s.slot.occupant = some g then none else some (s.setClient g { c with writer := .preempted })
  | .forwarding bytes => some (s.setClient g { c with writer := .checking, written := c.written ++ [.stdout bytes] })
  | .exitSnapshot code => some (s.setClient g { c with writer := .exitReplaying s.slot.currentReplay code })
  | .exitReplaying snapshot code =>
    some (s.setClient g { c with writer := .exiting code, written := c.written ++ [.stdout snapshot] })
  | .exiting code => some (s.setClient g { c with writer := .stopped, written := c.written ++ [.exit code] })
  | .preempted => some (s.setClient g { c with writer := .stopped, written := c.written ++ [.preempted] })
  | .stopped => none

def setReader (s : Daemon) (g : Nat) (reader : Reader) : Daemon := s.setClient g { s.clients g with reader }

/-- `is_current` の検査と、その直後の分岐。 -/
def checkCurrent (s : Daemon) (g : Nat) (frame : Frame) : Daemon :=
  if s.slot.isCurrent g then
    match frame with
    | .stdin bytes => s.setReader g (.writing bytes)
    | .resize cols rows => s.setReader g (.resizing cols rows)
    | _ => s.setReader g .reading
  else s.setReader g .leaving

end Daemon

/-! ## 遷移 -/

inductive Label
  | broadcast (data : List UInt8)
  | notifyExit (code : UInt8)
  /-- `Hello` による最初の `resize`。 -/
  | hello (cols rows : UInt16)
  | install
  | writer (g : Nat)
  /-- `none` は、読み取りの終わりか失敗である。 -/
  | readFrame (g : Nat) (frame : Option Frame)
  | isCurrent (g : Nat)
  /-- `write(2)` が `n` バイトを受け取る。0 バイトの書き込みは、状態を変えないので含めない。 -/
  | ptyWrite (g n : Nat)
  | ptyWriteFailed (g : Nat)
  | resize (g : Nat)
  | vacate (g : Nat)
  | abort (g : Nat)
deriving DecidableEq

def Daemon.step (s : Daemon) : Label → Option Daemon
  | .broadcast data => some (s.broadcast data)
  | .notifyExit code => some (s.notifyExit code)
  | .hello cols rows => some (s.ptyEffect none (.resize cols rows))
  | .install => some s.install
  | .writer g => s.writerStep g
  | .readFrame g frame =>
    match (s.clients g).reader with
    | .reading =>
      match frame with
      | some frame => some (s.setReader g (.checking frame))
      | none => some (s.setReader g .leaving)
    | _ => none
  | .isCurrent g =>
    match (s.clients g).reader with
    | .checking frame => some (s.checkCurrent g frame)
    | _ => none
  | .ptyWrite g n =>
    match (s.clients g).reader with
    | .writing [] => some (s.setReader g .reading)
    | .writing rest =>
      if n = 0 then none
      else some ((s.ptyEffect (some g) (.stdin (rest.take n))).setReader g (.writing (rest.drop n)))
    | _ => none
  | .ptyWriteFailed g =>
    match (s.clients g).reader with
    | .writing _ => some (s.setReader g .leaving)
    | _ => none
  | .resize g =>
    match (s.clients g).reader with
    | .resizing cols rows => some ((s.ptyEffect (some g) (.resize cols rows)).setReader g .reading)
    | _ => none
  | .vacate g =>
    match (s.clients g).reader with
    | .leaving => some ({ s with slot := s.slot.vacate g }.setReader g .aborting)
    | _ => none
  | .abort g =>
    match (s.clients g).reader with
    | .aborting => some (s.setClient g { s.clients g with writer := .stopped, reader := .closed })
    | _ => none

def Step (s : Daemon) (a : Label) (s' : Daemon) : Prop := s.step a = some s'

/-! ## 割り込まれない終了と入れ替え -/

/-- pty へ作用する権利を検査で得て、まだ作用し終えていない。 -/
def Reader.active : Reader → Bool
  | .writing rest => !rest.isEmpty
  | .resizing _ _ => true
  | _ => false

/-- `Exit` の直前の再生を読んでから、`Exit` を書くまでの位置。 -/
def Writer.closing : Writer → Bool
  | .exitReplaying _ _ | .exiting _ => true
  | _ => false

/-- 作用したときの世代は、作用したクライアントの世代である。 -/
def PtyEffect.Fresh (e : PtyEffect) : Prop := ∀ g, e.generation = some g → e.current = g

/-- 検査を終えて作用し終えていないクライアントがいるあいだは、新しいクライアントを入れない。 -/
def SettledInstall (s : Daemon) (a : Label) : Prop := a = .install → ∀ g, (s.clients g).reader.active = false

/-- `Exit` の前の再生を読んでから `Exit` を書くまで、新しい出力が来ない。 -/
def UndisturbedExit (s : Daemon) (a : Label) : Prop :=
  ∀ data, a = .broadcast data → data ≠ [] → ∀ g, (s.clients g).writer.closing = false

/-! ## 出力の届き方 -/

/-- 出力の全体を持つ再生バッファが送る内容。 -/
def replayBytes (output : List (List UInt8)) : List UInt8 :=
  if output.flatten = [] then [] else softReset ++ output.flatten

/-- 出力 `seen` の再生で終わる列。再生するものがなければ、挨拶だけの列でもよい。 -/
def EndsWithReplay (frames : List Frame) (seen : List (List UInt8)) : Prop :=
  (frames = [.helloAck] ∧ seen.flatten = []) ∨ ∃ before, frames = before ++ [.stdout (replayBytes seen)]

/-- フレームの列は、出力の先頭の `n` 個の再生で始め、その後のすべてを順に運ぶ。
再生の後に、再生に含まれる出力が重ねて現れることはある。捨てられた出力は再生に含まれる。 -/
def Covers (dropped : Nat) (frames : List Frame) (output : List (List UInt8)) : Prop :=
  ∃ n ≤ output.length, dropped ≤ n ∧ ∃ head dup, EndsWithReplay head (output.take n) ∧
    List.Sublist dup (output.take n) ∧ frames = head ++ (dup ++ output.drop n).map .stdout

end IsekaiTerminal.Tty
