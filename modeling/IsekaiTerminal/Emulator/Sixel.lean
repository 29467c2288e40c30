import IsekaiTerminal.Emulator.Kitty

/-!
# Sixel

`sixel.rs` の `SixelDecoder` を定める。1 バイトごとに状態を進め、最後に画像を返す。
-/

namespace IsekaiTerminal.Emulator

structure SixelImage where
  width : Nat
  height : Nat
  rgba : List UInt8
deriving DecidableEq

/-- パラメータの読み取りの途中。 -/
inductive SixelMode
  | normal
  | repeat (count : UInt32)
  | colorNum (num : UInt32)
  | colorSpec (pc : UInt32) (params : List UInt32) (cur : UInt32) (hasDigit : Bool)
  | raster (cur : UInt32)
deriving DecidableEq

structure SixelDecoder where
  palette : UInt16 → Option (UInt8 × UInt8 × UInt8)
  currentColor : UInt16
  x : Nat
  y : Nat
  rows : List (List UInt32)
  maxX : Nat
  maxY : Nat
  mode : SixelMode
  aborted : Bool

def pctToU8 (p : UInt32) : UInt8 := UInt8.ofNat ((min p.toNat 100 * 255 + 50) / 100)

def pct (r g b : UInt32) : UInt8 × UInt8 × UInt8 := (pctToU8 r, pctToU8 g, pctToU8 b)

def defaultPalette (n : UInt16) : Option (UInt8 × UInt8 × UInt8) :=
  [pct 0 0 0, pct 20 20 80, pct 80 13 13, pct 20 80 20, pct 80 20 80, pct 20 80 80, pct 80 80 20, pct 53 53 53,
    pct 26 26 26, pct 33 33 60, pct 60 26 26, pct 33 60 33, pct 60 33 60, pct 33 60 60, pct 60 60 33,
    pct 80 80 80][n.toNat]?

/-- `cur.saturating_mul(10).saturating_add(digit)`。 -/
def pushDigit (cur : UInt32) (byte : UInt8) : UInt32 :=
  UInt32.ofNat (min (min (cur.toNat * 10) (2 ^ 32 - 1) + (byte.toNat - 0x30)) (2 ^ 32 - 1))

def isDigit (byte : UInt8) : Bool := 0x30 ≤ byte && byte ≤ 0x39

def isSixel (byte : UInt8) : Bool := 0x3f ≤ byte && byte ≤ 0x7e

namespace SixelDecoder

def new : SixelDecoder :=
  { palette := defaultPalette, currentColor := 0, x := 0, y := 0, rows := [], maxX := 0, maxY := 0, mode := .normal,
    aborted := false }

/-- `rows[y]` と `row[x]` を、足りなければ伸ばしてから書く。 -/
def setAt {α : Type} (default : α) (l : List α) (i : Nat) (f : α → α) : List α :=
  (l ++ List.replicate (i + 1 - l.length) default).modify i f

def setPixel (d : SixelDecoder) (x y : Nat) (argb : UInt32) : SixelDecoder :=
  if x ≥ maxSixelDim ∨ y ≥ maxSixelDim then { d with aborted := true }
  else
    let newMaxX := max d.maxX x
    let newMaxY := max d.maxY y
    if (newMaxX + 1) * (newMaxY + 1) > maxSixelArea then { d with aborted := true }
    else
      { d with
        maxX := newMaxX
        maxY := newMaxY
        rows := setAt [] d.rows y fun row => setAt 0 row x fun _ => argb }

def currentArgb (d : SixelDecoder) : UInt32 := argbOfRgb ((d.palette d.currentColor).getD (255, 255, 255))

/-- 上から 6 つの点。中断した後は、何もしない。 -/
def drawBits (argb : UInt32) (bits : Nat) : List Nat → SixelDecoder → SixelDecoder
  | [], d => d
  | i :: is, d =>
    if bits.testBit i then
      let d' := d.setPixel d.x (d.y + i) argb
      if d'.aborted then d' else drawBits argb bits is d'
    else drawBits argb bits is d

def drawSixelChar (d : SixelDecoder) (byte : UInt8) : SixelDecoder :=
  let d' := drawBits d.currentArgb (byte.toNat - 0x3f) (List.range 6) d
  if d'.aborted then d' else { d' with x := d'.x + 1, aborted := d'.x + 1 ≥ maxSixelDim }

def drawRepeated (byte : UInt8) : Nat → SixelDecoder → SixelDecoder
  | 0, d => d
  | n + 1, d =>
    let d' := d.drawSixelChar byte
    if d'.aborted then d' else drawRepeated byte n d'

def stepNormal (d : SixelDecoder) (byte : UInt8) : SixelDecoder :=
  let d := { d with mode := .normal }
  if byte = 0x23 then { d with mode := .colorNum 0 }
  else if byte = 0x21 then { d with mode := .repeat 0 }
  else if byte = 0x22 then { d with mode := .raster 0 }
  else if byte = 0x2d then { d with y := d.y + 6, x := 0 }
  else if byte = 0x24 then { d with x := 0 }
  else if isSixel byte then d.drawSixelChar byte
  else d

def stepRepeat (d : SixelDecoder) (byte : UInt8) (count : UInt32) : SixelDecoder :=
  if isDigit byte then { d with mode := .repeat (pushDigit count byte) }
  else
    let times := min (if count = 0 then 1 else count.toNat) maxSixelDim
    if isSixel byte then drawRepeated byte times { d with mode := .normal } else d.stepNormal byte

def stepColorNum (d : SixelDecoder) (byte : UInt8) (num : UInt32) : SixelDecoder :=
  if isDigit byte then { d with mode := .colorNum (pushDigit num byte) }
  else if byte = semicolon then { d with mode := .colorSpec num [] 0 false }
  else { d with currentColor := num.toUInt16 }.stepNormal byte

def defineAndSelectColor (env : Env) (d : SixelDecoder) (pc : UInt16) (params : List UInt32) : SixelDecoder :=
  let d := { d with currentColor := pc }
  match params with
  | pu :: a :: b :: c :: _ =>
    if pu = 2 then { d with palette := Function.update d.palette pc (some (pct a b c)) }
    else if pu = 1 then { d with palette := Function.update d.palette pc (some (env.hlsToRgb a.toNat b.toNat c.toNat)) }
    else d
  | _ => d

def stepColorSpec (env : Env) (d : SixelDecoder) (byte : UInt8) (pc : UInt32) (params : List UInt32) (cur : UInt32)
    (hasDigit : Bool) : SixelDecoder :=
  if isDigit byte then { d with mode := .colorSpec pc params (pushDigit cur byte) true }
  else
    let params := params ++ [if hasDigit then cur else 0]
    if byte = semicolon then { d with mode := .colorSpec pc params 0 false }
    else (d.defineAndSelectColor env pc.toUInt16 params).stepNormal byte

def stepRaster (d : SixelDecoder) (byte : UInt8) (cur : UInt32) : SixelDecoder :=
  if isDigit byte then { d with mode := .raster (pushDigit cur byte) }
  else if byte = semicolon then { d with mode := .raster 0 }
  else d.stepNormal byte

def feed (env : Env) (d : SixelDecoder) (byte : UInt8) : SixelDecoder :=
  if d.aborted then d
  else
    match d.mode with
    | .normal => d.stepNormal byte
    | .repeat count => d.stepRepeat byte count
    | .colorNum num => d.stepColorNum byte num
    | .colorSpec pc params cur hasDigit => d.stepColorSpec env byte pc params cur hasDigit
    | .raster cur => d.stepRaster byte cur

/-- 画素の RGBA。値のない画素は透明である。 -/
def pixelRgba (argb : UInt32) : List UInt8 :=
  [(argb >>> 16).toUInt8, (argb >>> 8).toUInt8, argb.toUInt8, (argb >>> 24).toUInt8]

def finish (d : SixelDecoder) : Option SixelImage :=
  if d.aborted then none
  else
    let height := d.rows.length
    let width := (d.rows.map List.length).foldr max 0
    if width = 0 ∨ height = 0 then none
    else if width * height > maxSixelArea then none
    else
      some
        { width
          height
          rgba := d.rows.flatMap fun row => (List.range width).flatMap fun x => pixelRgba (row[x]?.getD 0) }

def feedAll (env : Env) (d : SixelDecoder) (input : List UInt8) : SixelDecoder := input.foldl (feed env) d

end SixelDecoder

/-!
## Sixel の文法と、それが述べる図

バイト列を命令に読む文法と、命令が順に行う描画を述べる。描画には、大きさの上限がない。
-/

namespace Sixel

open SixelDecoder

/-! ## 文法 -/

inductive Command
  | draw (times : Nat) (byte : UInt8)
  | select (num : UInt32)
  | define (num : UInt32) (params : List UInt32)
  | newline
  | carriage

def Digits (digits : List UInt8) : Prop := ∀ b ∈ digits, isDigit b = true

/-- 10 進数。`u32` の上限で飽和する。 -/
def number (digits : List UInt8) : UInt32 := digits.foldl pushDigit 0

/-- 繰り返しの回数。0 は 1 とし、`MAX_SIXEL_DIM` で抑える。 -/
def times (digits : List UInt8) : Nat :=
  min (if number digits = 0 then 1 else (number digits).toNat) maxSixelDim

/-- `;` に続く引数の並び。 -/
def paramsText (params : List (List UInt8)) : List UInt8 := params.flatMap (semicolon :: ·)

/-- 入力の先頭が、条件 `p` を満たすバイトではない。 -/
def StopsAt (p : UInt8 → Prop) (input : List UInt8) : Prop := ∀ b ∈ input.head?, ¬p b

/-- ほかの意味のないバイト。 -/
def IsOther (b : UInt8) : Prop :=
  b ≠ 0x23 ∧ b ≠ 0x21 ∧ b ≠ 0x22 ∧ b ≠ 0x2d ∧ b ≠ 0x24 ∧ isSixel b = false

/-- 入力を命令の並びに読む。 -/
inductive Reads : List UInt8 → List Command → Prop
  | nil : Reads [] []
  | newline {input cs} (h : Reads input cs) : Reads (0x2d :: input) (.newline :: cs)
  | carriage {input cs} (h : Reads input cs) : Reads (0x24 :: input) (.carriage :: cs)
  | sixel {b input cs} (hb : isSixel b = true) (h : Reads input cs) : Reads (b :: input) (.draw 1 b :: cs)
  | other {b input cs} (hb : IsOther b) (h : Reads input cs) : Reads (b :: input) cs
  | repeated {digits b input cs} (hd : Digits digits) (hb : isSixel b = true) (h : Reads input cs) :
      Reads (0x21 :: (digits ++ b :: input)) (.draw (times digits) b :: cs)
  | stray {digits input cs} (hd : Digits digits)
      (hstop : StopsAt (fun b => isDigit b = true ∨ isSixel b = true) input) (h : Reads input cs) :
      Reads (0x21 :: (digits ++ input)) cs
  | select {digits input cs} (hd : Digits digits)
      (hstop : StopsAt (fun b => isDigit b = true ∨ b = semicolon) input) (h : Reads input cs) :
      Reads (0x23 :: (digits ++ input)) (.select (number digits) :: cs)
  | define {digits params input cs} (hd : Digits digits) (hne : params ≠ []) (hp : ∀ param ∈ params, Digits param)
      (hstop : StopsAt (fun b => isDigit b = true ∨ b = semicolon) input) (h : Reads input cs) :
      Reads (0x23 :: (digits ++ (paramsText params ++ input))) (.define (number digits) (params.map number) :: cs)
  | raster {text input cs} (htext : ∀ b ∈ text, isDigit b = true ∨ b = semicolon)
      (hstop : StopsAt (fun b => isDigit b = true ∨ b = semicolon) input) (h : Reads input cs) :
      Reads (0x22 :: (text ++ input)) cs

/-! ## 描画 -/

structure Pen where
  palette : UInt16 → Option (UInt8 × UInt8 × UInt8)
  color : UInt16
  x : Nat
  y : Nat

def Pen.start : Pen := { palette := defaultPalette, color := 0, x := 0, y := 0 }

def Pen.argb (p : Pen) : UInt32 := argbOfRgb ((p.palette p.color).getD (255, 255, 255))

/-- 点を打つか、ペンを進める。`advance x` は、進めた後の列である。 -/
inductive Stroke
  | dot (x y : Nat) (argb : UInt32)
  | advance (x : Nat)
deriving DecidableEq

/-- 1 つの sixel 文字。立っているビットの点を上から打ち、ペンを進める。 -/
def charStrokes (p : Pen) (x : Nat) (byte : UInt8) : List Stroke :=
  (List.range 6).filterMap (fun i => if (byte.toNat - 0x3f).testBit i then some (.dot x (p.y + i) p.argb) else none) ++
    [.advance (x + 1)]

def strokes (p : Pen) : Command → List Stroke
  | .draw times byte => (List.range times).flatMap fun j => charStrokes p (p.x + j) byte
  | _ => []

def Pen.define (env : Env) (p : Pen) (num : UInt16) : List UInt32 → Pen
  | pu :: a :: b :: c :: _ =>
      if pu = 2 then { p with color := num, palette := Function.update p.palette num (some (pct a b c)) }
      else if pu = 1 then
        { p with color := num, palette := Function.update p.palette num (some (env.hlsToRgb a.toNat b.toNat c.toNat)) }
      else { p with color := num }
  | _ => { p with color := num }

def Pen.after (env : Env) (p : Pen) : Command → Pen
  | .draw times _ => { p with x := p.x + times }
  | .select num => { p with color := num.toUInt16 }
  | .define num params => p.define env num.toUInt16 params
  | .newline => { p with y := p.y + 6, x := 0 }
  | .carriage => { p with x := 0 }

/-- 命令の並びが行う描画。 -/
def drawing (env : Env) (p : Pen) : List Command → List Stroke
  | [] => []
  | c :: cs => strokes p c ++ drawing env (p.after env c) cs

/-! ## 図 -/

/-- 打った点の座標。 -/
def dots (strokes : List Stroke) : List (Nat × Nat) :=
  strokes.filterMap fun | .dot x y _ => some (x, y) | .advance _ => none

def maxX (strokes : List Stroke) : Nat := ((dots strokes).map Prod.fst).foldr max 0

def maxY (strokes : List Stroke) : Nat := ((dots strokes).map Prod.snd).foldr max 0

/-- 最後に打った点の値。 -/
def colorAt (strokes : List Stroke) (x y : Nat) : Option UInt32 :=
  strokes.reverse.findSome? fun | .dot x' y' argb => if x' = x ∧ y' = y then some argb else none | .advance _ => none

/-- 原点から打った点までを囲む図。打たない点は透明である。 -/
def picture (strokes : List Stroke) : SixelImage :=
  { width := maxX strokes + 1
    height := maxY strokes + 1
    rgba := (List.range (maxY strokes + 1)).flatMap fun y =>
      (List.range (maxX strokes + 1)).flatMap fun x => pixelRgba ((colorAt strokes x y).getD 0) }

/-- 受け付ける描画。点があり、どの点も上限の内にあり、ペンは上限の列を超えず、囲む面積は上限に収まる。 -/
structure Accepted (strokes : List Stroke) : Prop where
  drawn : dots strokes ≠ []
  inside : ∀ p ∈ dots strokes, p.1 < maxSixelDim ∧ p.2 < maxSixelDim
  pen : ∀ x, .advance x ∈ strokes → x ≤ maxSixelDim
  area : (maxX strokes + 1) * (maxY strokes + 1) ≤ maxSixelArea

end Sixel

end IsekaiTerminal.Emulator
