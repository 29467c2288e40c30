import IsekaiTerminal.Lib.Reader
import IsekaiTerminal.Lib.Wire
import IsekaiTerminal.Trzsz.Codec

/-!
# mux のフレームの符号

`isekai-ssh/src/native/mux/protocol.rs` の `Frame` と、`write_frame`、`read_frame` を定める。
フレームは、本体の長さを表す 4 バイトと、種別のバイトと、欄の列である。書き込みは、本体の全体が書けた場合だけを載せる。
-/

namespace IsekaiTerminal.Mux

open Lib
open Trzsz (utf8 fromUtf8? fromUtf8Lossy)

/-! ## 誤り -/

inductive IoErrorKind
  | invalidData
  | unexpectedEof
  | other
deriving DecidableEq

structure IoError where
  kind : IoErrorKind
  message : String
deriving DecidableEq

def malformed (msg : String) : IoError := ⟨.invalidData, s!"isekai-ssh mux frame: {msg}"⟩

/-- `AsyncReadExt::read_exact` が、列の途中の終わりに返す誤り。 -/
def earlyEof (_size _filled : Nat) : IoError := ⟨.unexpectedEof, "early eof"⟩

/-! ## フレーム -/

def maxFramePayload : Nat := 1024 * 1024

def maxFrameLen : Nat := 1 + maxFramePayload

def maxTermLen : Nat := 256

def maxRemoteCommandLen : Nat := 4096

def maxTtyExecLen : Nat := 4096

def tagHello : UInt8 := 0x01
def tagHelloAck : UInt8 := 0x02
def tagRejected : UInt8 := 0x03
def tagStdin : UInt8 := 0x10
def tagResize : UInt8 := 0x11
def tagShutdown : UInt8 := 0x12
def tagStdout : UInt8 := 0x20
def tagStderr : UInt8 := 0x21
def tagExit : UInt8 := 0x22
def tagCtl : UInt8 := 0x23

structure Hello where
  version : UInt16
  token : List UInt8
  term : String
  cols : UInt16
  rows : UInt16
  wantPty : Bool
  remoteCommand : Option String
  ttyExec : Option String
deriving DecidableEq

inductive Frame
  | hello (hello : Hello)
  | helloAck (version : UInt16)
  | rejected (reason : String)
  | stdin (data : List UInt8)
  | resize (cols rows : UInt16)
  | shutdown
  | stdout (data : List UInt8)
  | stderr (data : List UInt8)
  | exit (code : UInt8)
  | ctl (bytes : List UInt8)
deriving DecidableEq

/-! ## 符号化 -/

/-- `u16::to_be_bytes`。 -/
def beBytes (x : UInt16) : List UInt8 := beEncode 2 x.toNat

/-- `as u16` で下位 16 ビットにした長さと、文字列のバイト列。 -/
def encodeString (s : String) : List UInt8 := beEncode 2 ((utf8 s).length % 2 ^ 16) ++ utf8 s

def encodeOptionalString : Option String → List UInt8
  | none => [0]
  | some s => 1 :: encodeString s

def encodeHello (h : Hello) : List UInt8 :=
  beBytes h.version ++ (beBytes h.cols ++ (beBytes h.rows ++ (encodeString h.term ++
    ((if h.wantPty then 1 else 0) :: (encodeOptionalString h.remoteCommand ++
      (encodeOptionalString h.ttyExec ++ h.token))))))

def Frame.encode : Frame → List UInt8
  | .hello h => tagHello :: encodeHello h
  | .helloAck version => tagHelloAck :: beBytes version
  | .rejected reason => tagRejected :: utf8 reason
  | .stdin data => tagStdin :: data
  | .resize cols rows => tagResize :: (beBytes cols ++ beBytes rows)
  | .shutdown => [tagShutdown]
  | .stdout data => tagStdout :: data
  | .stderr data => tagStderr :: data
  | .exit code => [tagExit, code]
  | .ctl bytes => tagCtl :: bytes

/-! ## 復号 -/

def readU16 (payload : List UInt8) (offset : Nat) : Except IoError UInt16 :=
  if offset + 2 ≤ payload.length then .ok (UInt16.ofNat (beDecode (slice payload offset 2)))
  else .error (malformed "frame truncated before a u16 field")

/-- `cap` を超えない文字列を復号し、その直後の位置とともに返す。 -/
def decodeOptionalString (payload : List UInt8) (offset cap : Nat) (fieldName : String) :
    Except IoError (Option String × Nat) :=
  match payload[offset]? with
  | none => .error (malformed s!"Hello frame truncated before {fieldName} tag")
  | some hasValue =>
      if hasValue = 0 then .ok (none, offset + 1)
      else do
        let lenOffset := offset + 1
        let len := (← readU16 payload lenOffset).toNat
        if len > cap then .error (malformed s!"Hello {fieldName} exceeds the cap")
        else
          let start := lenOffset + 2
          let stop := start + len
          if payload.length < stop then .error (malformed s!"Hello frame truncated before end of {fieldName}")
          else
            match fromUtf8? (slice payload start len) with
            | none => .error (malformed s!"Hello {fieldName} is not valid UTF-8")
            | some s => .ok (some s, stop)

/-- `term` の欄。その直後の位置とともに返す。 -/
def decodeTerm (payload : List UInt8) : Except IoError (String × Nat) := do
  let termLen := (← readU16 payload 6).toNat
  if termLen > maxTermLen then .error (malformed "Hello term string exceeds the cap")
  else
    let termEnd := 8 + termLen
    if payload.length < termEnd then .error (malformed "Hello frame truncated before end of term string")
    else
      match fromUtf8? (slice payload 8 termLen) with
      | none => .error (malformed "Hello term string is not valid UTF-8")
      | some term => .ok (term, termEnd)

def decodeHello (payload : List UInt8) : Except IoError Hello := do
  let version ← readU16 payload 0
  let cols ← readU16 payload 2
  let rows ← readU16 payload 4
  let (term, termEnd) ← decodeTerm payload
  match payload[termEnd]? with
  | none => .error (malformed "Hello frame truncated before want_pty")
  | some wantPty =>
      let (remoteCommand, offset) ← decodeOptionalString payload (termEnd + 1) maxRemoteCommandLen "remote_command"
      let (ttyExec, offset) ← decodeOptionalString payload offset maxTtyExecLen "tty_exec"
      .ok ⟨version, payload.drop offset, term, cols, rows, wantPty ≠ 0, remoteCommand, ttyExec⟩

/-- `{:#04x}`。 -/
def hexByte (b : UInt8) : String := String.ofList ['0', 'x', Nat.digitChar (b.toNat / 16), Nat.digitChar (b.toNat % 16)]

def Frame.decode (tag : UInt8) (payload : List UInt8) : Except IoError Frame :=
  if tag = tagHello then (decodeHello payload).map .hello
  else if tag = tagHelloAck then (readU16 payload 0).map .helloAck
  else if tag = tagRejected then .ok (.rejected (fromUtf8Lossy payload))
  else if tag = tagStdin then .ok (.stdin payload)
  else if tag = tagResize then do
    let cols ← readU16 payload 0
    let rows ← readU16 payload 2
    .ok (.resize cols rows)
  else if tag = tagShutdown then .ok .shutdown
  else if tag = tagStdout then .ok (.stdout payload)
  else if tag = tagStderr then .ok (.stderr payload)
  else if tag = tagExit then
    match payload.head? with
    | none => .error (malformed "Exit frame missing its status byte")
    | some code => .ok (.exit code)
  else if tag = tagCtl then .ok (.ctl payload)
  else .error (malformed s!"unknown frame tag {hexByte tag}")

/-! ## 書き込みと読み取り -/

def exceeds (cap : Nat) (s : Option String) : Bool := s.any fun s => cap < (utf8 s).length

/-- 送る前の検査。`term` の長さは調べない。 -/
def checkOutgoing : Frame → Except IoError Unit
  | .hello hello =>
      if exceeds maxRemoteCommandLen hello.remoteCommand then
        .error (malformed "outgoing Hello remote_command exceeds the cap")
      else if exceeds maxTtyExecLen hello.ttyExec then
        .error (malformed "outgoing Hello tty_exec exceeds the cap")
      else .ok ()
  | _ => .ok ()

/-- 書いたバイト列。 -/
def writeFrame (frame : Frame) : Except IoError (List UInt8) := do
  checkOutgoing frame
  let body := frame.encode
  if body.length > maxFrameLen then .error (malformed "outgoing frame exceeds the size cap")
  else .ok (beEncode 4 (body.length % 2 ^ 32) ++ body)

/-- 続けて書いたバイト列。 -/
def writeFrames : List Frame → Except IoError (List UInt8)
  | [] => .ok []
  | frame :: frames => do
      let first ← writeFrame frame
      let rest ← writeFrames frames
      .ok (first ++ rest)

def readExact (size : Nat) : ReadM UInt8 IoError (List UInt8) := ReadM.readExact earlyEof size

/-- 宣言された長さの本体を読む。`body[0]` は種別のバイトである。 -/
def readBody (frameLen : Nat) : ReadM UInt8 IoError (Option Frame) :=
  if 1 ≤ frameLen ∧ frameLen ≤ maxFrameLen then do
    ReadM.alloc frameLen
    let body ← readExact frameLen
    ReadM.lift ((Frame.decode (body.headD 0) body.tail).map some)
  else ReadM.lift (.error (malformed
    s!"declared frame length {frameLen} is out of range (1..={maxFrameLen})"))

/-- 先頭の 1 バイトだけを先に読み、フレームの間の終わりを `none` とする。 -/
def readFrame : ReadM UInt8 IoError (Option Frame) := do
  let first ← ReadM.read 1
  if first.length = 0 then pure none
  else do
    let rest ← readExact 3
    readBody (beDecode (first ++ rest))

/-- 受け手が受け入れる `term` の長さ。 -/
def Frame.TermFits : Frame → Prop
  | .hello h => (utf8 h.term).length ≤ maxTermLen
  | _ => True

end IsekaiTerminal.Mux
