import Mathlib

/-!
# 端末のセル

`rust-core/src/terminal.rs` のセル、SGR 属性、文字集合、全角文字の後始末を定める。
セルの文字列は、文字の列で表す。
-/

namespace IsekaiTerminal.Emulator

/-! ## 外部のクレート -/

/-- パネルの内容。`parse_ai_panel_apc` の結果である。 -/
structure ParsedPanel where
  title : String
  markdown : String
deriving DecidableEq

/-- リポジトリの外の計算。`width` は `UnicodeWidthChar::width`、`base64Decode` は標準の base64 の復号、
`pngDecode` は PNG の幅、高さ、チャネル数、展開したバイト列、`hlsToRgb` は浮動小数点数による色の変換である。 -/
structure Env where
  width : Char → Option Nat
  base64Decode : List UInt8 → Option (List UInt8)
  pngDecode : List UInt8 → Option (Nat × Nat × Nat × List UInt8)
  hlsToRgb : Nat → Nat → Nat → UInt8 × UInt8 × UInt8
  parseAiPanelApc : List UInt8 → Option ParsedPanel

/-! ## 配色 -/

structure Theme where
  ansi16 : Fin 16 → UInt32
  defaultFg : UInt32
  defaultBg : UInt32

def argb (r g b : UInt32) : UInt32 := (0xFF000000 : UInt32) ||| (r <<< 16) ||| (g <<< 8) ||| b

def ansi256ToArgb (theme : Theme) (n : UInt8) : UInt32 :=
  if h : n.toNat < 16 then theme.ansi16 ⟨n.toNat, h⟩
  else if n.toNat < 232 then
    let m := n.toUInt32 - 16
    argb (m / 36 * 51) (m % 36 / 6 * 51) (m % 6 * 51)
  else
    let v := 8 + (n.toUInt32 - 232) * 10
    argb v v v

/-! ## セル -/

structure TermCell where
  ch : List Char
  fg : UInt32
  bg : UInt32
  bold : Bool
  dim : Bool
  italic : Bool
  underline : Bool
  strikethrough : Bool
  blink : Bool
  invisible : Bool
  isWidePlaceholder : Bool
  linkId : Option Nat
deriving DecidableEq

structure TermAttrs where
  fg : UInt32
  bg : UInt32
  bold : Bool
  dim : Bool
  italic : Bool
  underline : Bool
  strikethrough : Bool
  blink : Bool
  invisible : Bool
  reverse : Bool
deriving DecidableEq

namespace TermAttrs

def defaultFor (theme : Theme) : TermAttrs :=
  { fg := theme.defaultFg, bg := theme.defaultBg, bold := false, dim := false, italic := false, underline := false,
    strikethrough := false, blink := false, invisible := false, reverse := false }

def effectiveColors (a : TermAttrs) : UInt32 × UInt32 := if a.reverse then (a.bg, a.fg) else (a.fg, a.bg)

def toCell (a : TermAttrs) (ch : List Char) : TermCell :=
  { ch
    fg := a.effectiveColors.1
    bg := a.effectiveColors.2
    bold := a.bold
    dim := a.dim
    italic := a.italic
    underline := a.underline
    strikethrough := a.strikethrough
    blink := a.blink
    invisible := a.invisible
    isWidePlaceholder := false
    linkId := none }

end TermAttrs

def blankCellForTheme (theme : Theme) : TermCell :=
  { ch := [' '], fg := theme.defaultFg, bg := theme.defaultBg, bold := false, dim := false, italic := false,
    underline := false, strikethrough := false, blink := false, invisible := false, isWidePlaceholder := false,
    linkId := none }

abbrev Row := List TermCell

/-- 画面。`grid[row][col]` が `cells[row * cols + col]` である。 -/
abbrev Grid := List Row

/-! ## 全角文字 -/

def cellDisplayWidth (env : Env) (cell : TermCell) : Nat := (cell.ch.head?.bind env.width).getD 1

/-- 列 `c` のセルの後始末。左のセルはすでに後始末を終えている。 -/
def sanitizeCell (env : Env) (left : Option TermCell) (cell : TermCell) (right : Option TermCell) : TermCell :=
  if cell.isWidePlaceholder then
    let leftIsWideHead := left.any fun l => cellDisplayWidth env l = 2
    if leftIsWideHead then cell else { cell with isWidePlaceholder := false }
  else if cellDisplayWidth env cell = 2 then
    let rightIsPlaceholder := right.any (·.isWidePlaceholder)
    if rightIsPlaceholder then cell else { cell with ch := [' '] }
  else cell

/-- `sanitize_wide_cells` のループ。 -/
def sanitizeFrom (env : Env) (left : Option TermCell) : Row → Row
  | [] => []
  | cell :: rest =>
    let cell' := sanitizeCell env left cell rest.head?
    cell' :: sanitizeFrom env (some cell') rest

/-- 片割れになった全角文字を空白にする。 -/
def sanitizeWideCells (env : Env) (row : Row) : Row := sanitizeFrom env none row

/-! ## 文字集合 -/

inductive Charset
  | ascii
  | decSpecialGraphics
deriving DecidableEq

def decSpecialGraphics : Char → Char
  | '_' => ' '
  | '\x60' => '◆'
  | 'a' => '▒'
  | 'b' => '␉'
  | 'c' => '␌'
  | 'd' => '␍'
  | 'e' => '␊'
  | 'f' => '°'
  | 'g' => '±'
  | 'h' => '␤'
  | 'i' => '␋'
  | 'j' => '┘'
  | 'k' => '┐'
  | 'l' => '┌'
  | 'm' => '└'
  | 'n' => '┼'
  | 'o' => '⎺'
  | 'p' => '⎻'
  | 'q' => '─'
  | 'r' => '⎼'
  | 's' => '⎽'
  | 't' => '├'
  | 'u' => '┤'
  | 'v' => '┴'
  | 'w' => '┬'
  | 'x' => '│'
  | 'y' => '≤'
  | 'z' => '≥'
  | '\x7b' => 'π'
  | '\x7c' => '≠'
  | '\x7d' => '£'
  | '~' => '·'
  | other => other

/-!
## 文字列の読み取り

標準ライブラリの `from_utf8`、`parse`、`trim` と、OSC の色の指定の読み取りを定める。
-/

/-! ## 標準ライブラリ -/

/-- `std::str::from_utf8`。 -/
def fromUtf8? (bytes : List UInt8) : Option (List Char) :=
  (String.fromUTF8? ⟨bytes.toArray⟩).map String.toList

/-- ASCII のバイト列リテラル。 -/
def bytesOf (s : String) : List UInt8 := s.toList.map fun c => UInt8.ofNat c.toNat

def digit? (c : Char) : Option Nat := if c.isDigit then some (c.toNat - '0'.toNat) else none

def digits? : List Char → Option Nat
  | [] => none
  | cs => cs.foldl (fun acc c => acc.bind fun n => (digit? c).map (n * 10 + ·)) (some 0)

/-- 符号なし整数の `parse`。先頭の `+` は 1 つまで許される。 -/
def parseUnsigned? (max : Nat) (s : List Char) : Option Nat :=
  let body := match s with
    | '+' :: rest => rest
    | _ => s
  (digits? body).filter (· ≤ max)

/-- `str::parse::<i32>`。 -/
def parseI32? : List Char → Option Int
  | '-' :: rest => ((digits? rest).filter (· ≤ 2 ^ 31)).map fun n => -(n : Int)
  | s => (parseUnsigned? (2 ^ 31 - 1) s).map fun n => (n : Int)

/-- Unicode の `White_Space`。 -/
def isWhiteSpace (c : Char) : Bool :=
  let n := c.toNat
  (0x9 ≤ n && n ≤ 0xD) || n = 0x20 || n = 0x85 || n = 0xA0 || n = 0x1680 || (0x2000 ≤ n && n ≤ 0x200A) ||
    n = 0x2028 || n = 0x2029 || n = 0x202F || n = 0x205F || n = 0x3000

def trim (s : List Char) : List Char := ((s.dropWhile isWhiteSpace).reverse.dropWhile isWhiteSpace).reverse

/-! ## 色の指定 -/

def hexDigit? (c : Char) : Option Nat :=
  if c.isDigit then some (c.toNat - '0'.toNat)
  else if 'a' ≤ c ∧ c ≤ 'f' then some (c.toNat - 'a'.toNat + 10)
  else if 'A' ≤ c ∧ c ≤ 'F' then some (c.toNat - 'A'.toNat + 10)
  else none

def hex? (cs : List Char) : Option Nat :=
  cs.foldl (fun acc c => acc.bind fun n => (hexDigit? c).map (n * 16 + ·)) (some 0)

/-- 1 桁から 4 桁の 16 進の値を、8 ビットに縮める。 -/
def scaleHex? (cs : List Char) : Option UInt8 :=
  if cs.isEmpty || cs.length > 4 then none
  else
    let max := 16 ^ cs.length - 1
    (hex? cs).map fun v => UInt8.ofNat ((v * 255 + max / 2) / max)

def splitOn {α : Type} [DecidableEq α] (sep : α) : List α → List (List α)
  | [] => [[]]
  | x :: xs =>
    if x = sep then [] :: splitOn sep xs
    else match splitOn sep xs with
      | [] => [[x]]
      | part :: parts => (x :: part) :: parts

def argbOfRgb (rgb : UInt8 × UInt8 × UInt8) : UInt32 := argb rgb.1.toUInt32 rgb.2.1.toUInt32 rgb.2.2.toUInt32

def argbToRgb888 (argb : UInt32) : UInt8 × UInt8 × UInt8 :=
  ((argb >>> 16).toUInt8, (argb >>> 8).toUInt8, argb.toUInt8)

/-- `rgb:R/G/B` と `#RGB` の形だけを受け入れる。 -/
def parseOscColorSpec (spec : List UInt8) : Option UInt32 := do
  let s ← fromUtf8? spec
  let components : List (List Char) := match s with
    | 'r' :: 'g' :: 'b' :: ':' :: rest => splitOn '/' rest
    | '#' :: rest =>
      let n := rest.length
      if n = 0 ∨ n % 3 ≠ 0 ∨ n > 12 then [] else rest.toChunks (n / 3)
    | _ => []
  match components with
  | [r, g, b] => return argbOfRgb (← scaleHex? r, ← scaleHex? g, ← scaleHex? b)
  | _ => none

end IsekaiTerminal.Emulator
