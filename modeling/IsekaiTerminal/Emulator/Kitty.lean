import IsekaiTerminal.Emulator.Cell

/-!
# Kitty graphics と Sixel の画像

`kitty_graphics.rs` の `KittyGraphics` と `sixel.rs` の `SixelDecoder` を定める。
端末はこれらが返す画像を画面に置く。
-/

namespace IsekaiTerminal.Emulator

def maxSixelDim : Nat := 4096
def maxSixelArea : Nat := 4000000
def maxApcPayload : Nat := 32 * 1024 * 1024

/-! ## Kitty graphics -/

structure KittyImage where
  kittyId : Option Nat
  width : Nat
  height : Nat
  rgba : List UInt8
deriving DecidableEq

inductive KittyCommand
  | place (img : KittyImage)
  | deleteAll
  | deleteId (id : Nat)
  | none
deriving DecidableEq

structure Pending where
  format : Nat
  width : Nat
  height : Nat
  kittyId : Option Nat
  display : Bool
  payloadB64 : List UInt8
deriving DecidableEq

structure KittyGraphics where
  pending : Option Pending
deriving DecidableEq

def KittyGraphics.new : KittyGraphics := { pending := none }

def semicolon : UInt8 := 0x3b
def comma : UInt8 := 0x2c
def equalsSign : UInt8 := 0x3d

def splitPayload (payload : List UInt8) : List UInt8 × List UInt8 :=
  (payload.takeWhile (· ≠ semicolon), (payload.dropWhile (· ≠ semicolon)).drop 1)

def parseControlPart (part : List UInt8) : Option (UInt8 × List UInt8) :=
  if equalsSign ∈ part then part.head?.map fun key => (key, (part.dropWhile (· ≠ equalsSign)).drop 1) else none

def parseControl (control : List UInt8) : List (UInt8 × List UInt8) :=
  let body := match control with
    | 0x47 :: rest => rest
    | _ => control
  (splitOn comma body).filterMap parseControlPart

section

variable (keys : List (UInt8 × List UInt8))

def kittyValue (k : Char) : Option (List UInt8) := (keys.find? (·.1 = k.toNat.toUInt8)).map (·.2)

def kittyNum (k : Char) : Option Nat := do
  let v ← kittyValue keys k
  let s ← fromUtf8? v
  parseUnsigned? (2 ^ 64 - 1) s

def kittyChr (k : Char) : Option Char := ((kittyValue keys k).bind List.head?).map fun b => Char.ofNat b.toNat

def kittyAction : Char := (kittyChr keys 'a').getD 't'

def deleteCommand : KittyCommand :=
  match (kittyChr keys 'd').getD 'a' with
  | 'a' | 'A' => .deleteAll
  | 'i' | 'I' =>
    match kittyNum keys 'i' with
    | some id => .deleteId id
    | none => .none
  | _ => .none

end

def dimsOk (width height : Nat) : Bool :=
  width ≠ 0 && height ≠ 0 && width ≤ maxSixelDim && height ≤ maxSixelDim && width * height ≤ maxSixelArea

/-- `channels` バイトの画素を RGBA に広げる。 -/
def expandPixel (channels : Nat) (px : List UInt8) : List UInt8 :=
  match channels, px with
  | 4, px => px
  | 3, [r, g, b] => [r, g, b, 255]
  | 2, [v, a] => [v, v, v, a]
  | _, px => [px.headD 0, px.headD 0, px.headD 0, 255]

def expandPixels (channels count : Nat) (bytes : List UInt8) : List UInt8 :=
  (List.range count).flatMap fun i => expandPixel channels ((bytes.drop (i * channels)).take channels)

def rgbaFromRaw (bytes : List UInt8) (width height bpp : Nat) : Option (Nat × Nat × List UInt8) :=
  if dimsOk width height && bytes.length = width * height * bpp then some (width, height, expandPixels bpp (width * height) bytes)
  else none

def pngToRgba (env : Env) (bytes : List UInt8) : Option (Nat × Nat × List UInt8) := do
  let (width, height, channels, buf) ← env.pngDecode bytes
  if dimsOk width height && 1 ≤ channels && channels ≤ 4 && buf.length = width * height * channels then
    some (width, height, expandPixels channels (width * height) buf)
  else none

namespace KittyGraphics

variable (env : Env)

def decode (pending : Pending) : Option (Nat × Nat × List UInt8) := do
  let bytes ← env.base64Decode pending.payloadB64
  match pending.format with
  | 32 => rgbaFromRaw bytes pending.width pending.height 4
  | 24 => rgbaFromRaw bytes pending.width pending.height 3
  | 100 => pngToRgba env bytes
  | _ => none

def finalize (pending : Pending) : KittyCommand :=
  if !pending.display then .none
  else match decode env pending with
    | some (width, height, rgba) => .place { kittyId := pending.kittyId, width, height, rgba }
    | none => .none

/-- 続きがあれば保留し、なければ画像にする。 -/
def proceed (keys : List (UInt8 × List UInt8)) (pending : Pending) : KittyCommand × KittyGraphics :=
  if (kittyNum keys 'm').getD 0 = 1 then (.none, { pending := some pending })
  else (finalize env pending, { pending := none })

def startTransmit (keys : List (UInt8 × List UInt8)) (data : List UInt8) (k : KittyGraphics) :
    KittyCommand × KittyGraphics :=
  if (kittyChr keys 't').any (· ≠ 'd') then (.none, k)
  else
    proceed env keys
      { format := (kittyNum keys 'f').getD 32 % 2 ^ 32
        width := (kittyNum keys 's').getD 0 % 2 ^ 32
        height := (kittyNum keys 'v').getD 0 % 2 ^ 32
        kittyId := kittyNum keys 'i'
        display := kittyAction keys = 'T'
        payloadB64 := data }

/-- 上限を超える続きは、長さを変えずに捨てる。 -/
def continueTransmit (keys : List (UInt8 × List UInt8)) (data : List UInt8) (pending : Pending) :
    KittyCommand × KittyGraphics :=
  if pending.payloadB64.length + data.length ≤ maxApcPayload then
    proceed env keys { pending with payloadB64 := pending.payloadB64 ++ data }
  else proceed env keys pending

def dispatch (k : KittyGraphics) (payload : List UInt8) : KittyCommand × KittyGraphics :=
  let (control, data) := splitPayload payload
  let keys := parseControl control
  match k.pending with
  | some pending => continueTransmit env keys data pending
  | none =>
    if payload.head? ≠ some 0x47 then (.none, k)
    else
      match kittyAction keys with
      | 'T' | 't' => startTransmit env keys data k
      | 'd' => (deleteCommand keys, k)
      | _ => (.none, k)

end KittyGraphics

/-!
## APC の切り出し

`kitty_graphics.rs` の `ApcInterceptor` を定める。あわせて、バイト列を、素通しするバイトと APC 文字列に分ける文法を述べる。
-/

def escByte : UInt8 := 0x1b
def underscore : UInt8 := 0x5f
def backslash : UInt8 := 0x5c
def stByte : UInt8 := 0x9c

/-! ## 切り出し -/

inductive ApcStep
  | pass (byte : UInt8)
  | passTwo (first second : UInt8)
  | consume
  | apc (payload : List UInt8)
deriving DecidableEq

inductive ApcState
  | ground
  | escSeen
  | collecting
  | collectingEsc
deriving DecidableEq

structure ApcInterceptor where
  state : ApcState
  buf : List UInt8
  truncated : Bool
deriving DecidableEq

namespace ApcInterceptor

def new : ApcInterceptor := { state := .ground, buf := [], truncated := false }

/-- `ApcState::EscSeen` の分岐。 -/
def feedEscSeen (ic : ApcInterceptor) (byte : UInt8) : ApcStep × ApcInterceptor :=
  if byte = underscore then (.consume, { state := .collecting, buf := [], truncated := false })
  else if byte = escByte then (.pass escByte, ic)
  else (.passTwo escByte byte, { ic with state := .ground })

/-- ST を読んだ。上限を超えた本体は、空として返す。 -/
def finish (ic : ApcInterceptor) : ApcStep × ApcInterceptor :=
  (.apc (if ic.truncated then [] else ic.buf), { ic with state := .ground, buf := [] })

def feed (ic : ApcInterceptor) (byte : UInt8) : ApcStep × ApcInterceptor :=
  match ic.state with
  | .ground => if byte = escByte then (.consume, { ic with state := .escSeen }) else (.pass byte, ic)
  | .escSeen => ic.feedEscSeen byte
  | .collecting =>
      if byte = escByte then (.consume, { ic with state := .collectingEsc })
      else if byte = stByte then ic.finish
      else if ic.buf.length < maxApcPayload then (.consume, { ic with buf := ic.buf ++ [byte] })
      else (.consume, { ic with truncated := true })
  | .collectingEsc =>
      if byte = backslash then ic.finish
      else feedEscSeen { state := .escSeen, buf := [], truncated := false } byte

end ApcInterceptor

/-- vte に渡るバイト、または `dispatch_kitty_apc` に渡る本体。 -/
inductive Emission
  | byte (b : UInt8)
  | apc (payload : List UInt8)
deriving DecidableEq

def ApcStep.emissions : ApcStep → List Emission
  | .pass b => [.byte b]
  | .passTwo a b => [.byte a, .byte b]
  | .consume => []
  | .apc payload => [.apc payload]

namespace ApcInterceptor

/-- `on_stdout` のループ。 -/
def feedAll (ic : ApcInterceptor) : List UInt8 → List Emission × ApcInterceptor
  | [] => ([], ic)
  | byte :: rest =>
      let (step, next) := ic.feed byte
      let (emissions, last) := feedAll next rest
      (step.emissions ++ emissions, last)

/-- 分けて届いたバイト列を、順に読む。 -/
def feedChunks (ic : ApcInterceptor) : List (List UInt8) → List Emission × ApcInterceptor
  | [] => ([], ic)
  | chunk :: rest =>
      let (emissions, next) := ic.feedAll chunk
      let (later, last) := feedChunks next rest
      (emissions ++ later, last)

end ApcInterceptor

/-! ## 文法 -/

/-- 入力を分けた 1 片。 -/
inductive Piece
  | passed (byte : UInt8)
  /-- `ESC _ body ST`。 -/
  | apc (body st : List UInt8)
  /-- `\` の続かない ESC が中断した `ESC _ body`。その ESC は、次の片に属する。 -/
  | aborted (body : List UInt8)

/-- 入力の終わりに残るもの。 -/
inductive Rest
  | clean
  | heldEsc
  | unfinished (body : List UInt8)
  | unfinishedEsc (body : List UInt8)

def Piece.bytes : Piece → List UInt8
  | .passed byte => [byte]
  | .apc body st => escByte :: underscore :: (body ++ st)
  | .aborted body => escByte :: underscore :: body

def Rest.bytes : Rest → List UInt8
  | .clean => []
  | .heldEsc => [escByte]
  | .unfinished body => escByte :: underscore :: body
  | .unfinishedEsc body => escByte :: underscore :: (body ++ [escByte])

/-- 上限を超えた本体は、空になる。 -/
def limited (body : List UInt8) : List UInt8 := if body.length ≤ maxApcPayload then body else []

def Piece.emission? : Piece → Option Emission
  | .passed byte => some (.byte byte)
  | .apc body _ => some (.apc (limited body))
  | .aborted _ => none

def Rest.state : Rest → ApcState
  | .clean => .ground
  | .heldEsc => .escSeen
  | .unfinished _ => .collecting
  | .unfinishedEsc _ => .collectingEsc

/-- ESC も 1 バイトの ST も含まない本体。 -/
def PlainBody (body : List UInt8) : Prop := ∀ b ∈ body, b ≠ escByte ∧ b ≠ stByte

def IsSt (st : List UInt8) : Prop := st = [escByte, backslash] ∨ st = [stByte]

/-- 入力 `input` を、片の並びと残りに分ける。`_` の続かない ESC と、APC の外のほかのバイトは、そのまま通す。 -/
inductive Partition : List UInt8 → List Piece → Rest → Prop
  | clean : Partition [] [] .clean
  | heldEsc : Partition [escByte] [] .heldEsc
  | unfinished {body} (h : PlainBody body) : Partition (escByte :: underscore :: body) [] (.unfinished body)
  | unfinishedEsc {body} (h : PlainBody body) :
      Partition (escByte :: underscore :: (body ++ [escByte])) [] (.unfinishedEsc body)
  | passed {b input pieces rest} (hb : b ≠ escByte) (h : Partition input pieces rest) :
      Partition (b :: input) (.passed b :: pieces) rest
  | passedEsc {c input pieces rest} (hc : c ≠ underscore) (h : Partition (c :: input) pieces rest) :
      Partition (escByte :: c :: input) (.passed escByte :: pieces) rest
  | apc {body st input pieces rest} (hbody : PlainBody body) (hst : IsSt st) (h : Partition input pieces rest) :
      Partition (escByte :: underscore :: (body ++ (st ++ input))) (.apc body st :: pieces) rest
  | aborted {body c input pieces rest} (hbody : PlainBody body) (hc : c ≠ backslash)
      (h : Partition (escByte :: c :: input) pieces rest) :
      Partition (escByte :: underscore :: (body ++ escByte :: c :: input)) (.aborted body :: pieces) rest

/-! ## 分割した転送 -/

def gByte : UInt8 := 0x47

/-- `G control ; data` の本体。 -/
def transmission (control data : List UInt8) : List UInt8 := gByte :: (control ++ semicolon :: data)

/-- `m=1` または `m=0`。 -/
def moreKey (more : Bool) : List UInt8 := [0x6d, equalsSign, if more then 0x31 else 0x30]

/-- 直接転送して表示する制御の文字列。`m` を含まない。 -/
structure IsTransmit (control : List UInt8) : Prop where
  noSemicolon : semicolon ∉ control
  display : kittyAction (parseControl (gByte :: control)) = 'T'
  direct : kittyValue (parseControl (gByte :: control)) 't' = none
  unchunked : kittyValue (parseControl (gByte :: control)) 'm' = none

/-- `(control,m=1; first)`、`(m=1; …)`、`(m=0; last)`。 -/
def chunkPayloads (control first : List UInt8) (middle : List (List UInt8)) (last : List UInt8) : List (List UInt8) :=
  transmission (control ++ comma :: moreKey true) first ::
    (middle.map (transmission (moreKey true)) ++ [transmission (moreKey false) last])

namespace KittyGraphics

/-- 本体を順に処理する。 -/
def dispatchAll (env : Env) (k : KittyGraphics) : List (List UInt8) → List KittyCommand × KittyGraphics
  | [] => ([], k)
  | payload :: rest =>
      let (command, next) := k.dispatch env payload
      let (commands, last) := dispatchAll env next rest
      (command :: commands, last)

end KittyGraphics

end IsekaiTerminal.Emulator
