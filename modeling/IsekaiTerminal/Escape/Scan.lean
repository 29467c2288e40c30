import IsekaiTerminal.Lib.Machine

/-!
# 標準入力のエスケープの走査

`isekai-ssh/src/native/escape.rs` の `process_stdin_bytes` と、読み取りごとにそれを呼ぶ側を定める。
ssh(1) の `process_escapes` を、比べる相手として並べる。
-/

namespace IsekaiTerminal.Escape

open Lib

def tilde : UInt8 := 0x7E
def dot : UInt8 := 0x2E
def question : UInt8 := 0x3F
def ctrlZ : UInt8 := 0x1A
def carriageReturn : UInt8 := 0x0D
def lineFeed : UInt8 := 0x0A

def isNewline (b : UInt8) : Bool := b = carriageReturn ∨ b = lineFeed

/-- `EscapeAction::None` は、動作が無いこと(`none`)で表す。 -/
inductive EscapeAction
  | disconnect
  | suspend
  | help
deriving DecidableEq

/-- 呼び出しの間に持ち越す 2 つのフラグ。 -/
structure Flags where
  atLineStart : Bool
  pendingEscape : Bool
deriving DecidableEq

/-- 行の先頭で、待っているエスケープは無い。 -/
def Flags.start : Flags := ⟨true, false⟩

/-! ## 走査 -/

/-- ループの 1 回が、次のバイトへ進むか、その場で返るか。 -/
inductive Step
  | proceed (flags : Flags) (sent : List UInt8) (action : Option EscapeAction)
  | disconnect (flags : Flags)

/-- 待っているエスケープの無いバイト。 -/
def plainByte (flags : Flags) (b : UInt8) (sent : List UInt8) : Step :=
  if flags.atLineStart ∧ b = tilde then .proceed { flags with pendingEscape := true } sent none
  else .proceed { flags with atLineStart := isNewline b } (sent ++ [b]) none

def onByte (flags : Flags) (b : UInt8) : Step :=
  if flags.pendingEscape then
    let flags := { flags with pendingEscape := false }
    if b = dot then .disconnect flags
    else if b = tilde then .proceed flags [tilde] none
    else if b = question then .proceed flags [] (some .help)
    else if b = ctrlZ then .proceed flags [] (some .suspend)
    else if b = carriageReturn ∨ b = lineFeed then .proceed { flags with atLineStart := true } [tilde, b] none
    -- 認められない命令では、`~` を送って、通常のバイトとして続ける
    else plainByte { flags with atLineStart := false } b [tilde]
  else plainByte flags b []

/-- `while` のループ。`action` は 1 つの欄であり、後の動作が前の動作を上書きする。 -/
def scanLoop (flags : Flags) (toSend : List UInt8) (action : Option EscapeAction) :
    List UInt8 → List UInt8 × Option EscapeAction × Flags
  | [] => (toSend, action, flags)
  | b :: rest =>
      match onByte flags b with
      | .disconnect flags => (toSend, some .disconnect, flags)
      | .proceed flags sent found => scanLoop flags (toSend ++ sent) (found.or action) rest

def processStdinBytes (data : List UInt8) (flags : Flags) : List UInt8 × Option EscapeAction × Flags :=
  scanLoop flags [] none data

/-- 読み取りごとに走査し、送ったバイトと報告された動作を集める。`Disconnect` で終わる。 -/
def observe (flags : Flags) : List (List UInt8) → Outcome Flags UInt8 EscapeAction
  | [] => .start flags
  | read :: reads =>
      let (toSend, action, flags) := processStdinBytes read flags
      if action = some .disconnect then ⟨flags, true, toSend, [.disconnect]⟩
      else (observe flags reads).prepend toSend action.toList

/-! ## ssh(1) -/

/-- `process_escapes` の 1 バイト。`~~` で送った `~` も、行の先頭を終わらせる。 -/
def sshByte (flags : Flags) (b : UInt8) : Flags × List UInt8 × Option EscapeAction :=
  if flags.pendingEscape then
    if b = dot then ({ flags with pendingEscape := false }, [], some .disconnect)
    else if b = question then ({ flags with pendingEscape := false }, [], some .help)
    else if b = ctrlZ then ({ flags with pendingEscape := false }, [], some .suspend)
    else (⟨isNewline b, false⟩, if b = tilde then [b] else [tilde, b], none)
  else if flags.atLineStart ∧ b = tilde then ({ flags with pendingEscape := true }, [], none)
  else ({ flags with atLineStart := isNewline b }, [b], none)

def ssh : Machine Flags UInt8 EscapeAction := ⟨sshByte, (· = .disconnect)⟩

/-! ## 入力の条件 -/

def IsCommand (b : UInt8) : Prop := b = dot ∨ b = tilde ∨ b = question ∨ b = ctrlZ

instance (b : UInt8) : Decidable (IsCommand b) := inferInstanceAs (Decidable (_ ∨ _))

/-- `~` の後が、入力の終わりか命令である。 -/
def Spoils (post : List UInt8) : Prop := post = [] ∨ ∃ b rest, post = b :: rest ∧ IsCommand b

/-- 行の先頭の `~~` の直後に `~` があり、その後が、入力の終わりか命令である。 -/
def FalseStart (flags : Flags) (bytes : List UInt8) : Prop :=
  ∃ pre post, bytes = pre ++ tilde :: tilde :: tilde :: post ∧ (ssh.run flags pre).halted = false ∧
    (ssh.run flags pre).state = .start ∧ Spoils post

end IsekaiTerminal.Escape
