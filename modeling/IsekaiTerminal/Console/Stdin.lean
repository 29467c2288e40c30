import IsekaiTerminal.Lib.Transition
import IsekaiTerminal.Lib.Utf16
import IsekaiTerminal.Lib.Wire

/-!
# Windows のコンソールの入力

`isekai-ssh/src/native/console_stdin.rs` の `try_open_console` のスレッドと `ConsoleStdin` を定める。
スレッドとチャネルは 1 つのプロセスに 1 つで、読み残しは `ConsoleStdin` ごとに持つ。
-/

namespace IsekaiTerminal.Console

open Lib

structure ConsoleStdin where
  buf : List UInt8
  pos : Nat
deriving DecidableEq

/-- 開いたばかりの `ConsoleStdin`。 -/
def ConsoleStdin.opened : ConsoleStdin := ⟨[], 0⟩

/-- まだ渡していない読み残し。 -/
def ConsoleStdin.leftover (r : ConsoleStdin) : List UInt8 := r.buf.drop r.pos

/-- `poll_read` の結果。空の `ready` は列の終わりか、長さ 0 の領域への読み取りである。 -/
inductive Poll
  | ready (bytes : List UInt8)
  | pending
deriving DecidableEq

/-- `queue` は `STDIN_READER` のチャネルに、`delivered` はこれまでに渡した列の全体である。 -/
structure Process where
  queue : List (List UInt8)
  ended : Bool
  reader : ConsoleStdin
  delivered : List UInt8
deriving DecidableEq

namespace Process

def start : Process := ⟨[], false, .opened, []⟩

/-- 読み残しから渡す。 -/
def drain (s : Process) (remaining : Nat) : Poll × Process :=
  let toWrite := min (s.reader.buf.length - s.reader.pos) remaining
  let bytes := slice s.reader.buf s.reader.pos toWrite
  let pos := s.reader.pos + toWrite
  let reader := if s.reader.buf.length ≤ pos then ⟨[], 0⟩ else { s.reader with pos := pos }
  (.ready bytes, { s with reader := reader, delivered := s.delivered ++ bytes })

/-- `remaining` は、呼び出し側の領域の空きである。 -/
def pollRead (s : Process) (remaining : Nat) : Poll × Process :=
  if s.reader.pos < s.reader.buf.length then s.drain remaining
  else
    match s.queue with
    | data :: queue =>
        let toWrite := min data.length remaining
        let reader := if toWrite < data.length then ⟨data, toWrite⟩ else s.reader
        (.ready (data.take toWrite),
          { s with queue := queue, reader := reader, delivered := s.delivered ++ data.take toWrite })
    | [] => (if s.ended then .ready [] else .pending, s)

end Process

/-- `ReadConsoleW` が一度に返す単位の数の上限。 -/
def wbufLen : Nat := 256

inductive Action
  | readConsole (units : List UInt16)
  /-- `ReadConsoleW` が失敗するか 0 を返し、スレッドが終わる。 -/
  | endConsole
  | poll (remaining : Nat)
  /-- `ConsoleStdin` を捨て、新しく開く。 -/
  | reopen
deriving DecidableEq

namespace Process

def step (s : Process) : Action → Option Process
  | .readConsole units =>
      if s.ended = false ∧ 0 < units.length ∧ units.length ≤ wbufLen then
        some { s with queue := s.queue ++ [encodeUtf8 (fromUtf16Lossy units)] }
      else none
  | .endConsole => some { s with ended := true }
  | .poll remaining => some (s.pollRead remaining).2
  | .reopen => some { s with reader := .opened }

def Steps (s : Process) (a : Action) (s' : Process) : Prop := s.step a = some s'

/-- 読み取りがサロゲートの対を分けず、読み残しのある `ConsoleStdin` を捨てない。 -/
def Kept (s : Process) : Action → Prop
  | .readConsole units => WellFormedUtf16 units
  | .reopen => s.reader.leftover = []
  | _ => True

instance (s : Process) (a : Action) : Decidable (s.Kept a) :=
  match a with
  | .readConsole units => inferInstanceAs (Decidable (WellFormedUtf16 units))
  | .reopen => inferInstanceAs (Decidable (s.reader.leftover = []))
  | .endConsole => inferInstanceAs (Decidable True)
  | .poll _ => inferInstanceAs (Decidable True)

/-- 渡した列と、これから渡す列。 -/
def bytes (s : Process) : List UInt8 := s.delivered ++ (s.reader.leftover ++ s.queue.flatten)

end Process

/-- コンソールが返した単位の列の列。 -/
def consoleReads (as : List Action) : List (List UInt16) :=
  as.filterMap fun
    | .readConsole units => some units
    | _ => none

end IsekaiTerminal.Console
