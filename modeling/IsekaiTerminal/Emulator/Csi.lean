import IsekaiTerminal.Emulator.Screen

/-!
# CSI

`csi_dispatch` を、Kitty keyboard、DEC モード、応答、カーソルと画面の操作の順に定める。
-/

namespace IsekaiTerminal.Emulator

open Lib (sub? clamp?)

/-- `vte::Params` の 1 つのパラメータ。`:` で区切られた続きは、個数にだけ数える。 -/
structure Param where
  head : UInt16
  subparams : List UInt16
deriving DecidableEq

abbrev Params := List Param

/-- `Params::len`。 -/
def Params.count (params : Params) : Nat := (params.map fun p => 1 + p.subparams.length).sum

/-! ## SGR -/

def paletteColor (theme : Theme) (n : UInt16) : UInt32 := ansi256ToArgb theme n.toUInt8

def sgrOne (theme : Theme) (p : UInt16) (a : TermAttrs) : TermAttrs :=
  if p = 0 then .defaultFor theme
  else if p = 1 then { a with bold := true }
  else if p = 2 then { a with dim := true }
  else if p = 3 then { a with italic := true }
  else if p = 4 then { a with underline := true }
  else if p = 5 then { a with blink := true }
  else if p = 7 then { a with reverse := true }
  else if p = 8 then { a with invisible := true }
  else if p = 9 then { a with strikethrough := true }
  else if p = 22 then { a with bold := false, dim := false }
  else if p = 23 then { a with italic := false }
  else if p = 24 then { a with underline := false }
  else if p = 25 then { a with blink := false }
  else if p = 27 then { a with reverse := false }
  else if p = 28 then { a with invisible := false }
  else if p = 29 then { a with strikethrough := false }
  else if 30 ≤ p ∧ p ≤ 37 then { a with fg := theme.ansi16 (Fin.ofNat 16 (p.toNat - 30)) }
  else if p = 39 then { a with fg := theme.defaultFg }
  else if 40 ≤ p ∧ p ≤ 47 then { a with bg := theme.ansi16 (Fin.ofNat 16 (p.toNat - 40)) }
  else if p = 49 then { a with bg := theme.defaultBg }
  else if 90 ≤ p ∧ p ≤ 97 then { a with fg := theme.ansi16 (Fin.ofNat 16 (8 + (p.toNat - 90))) }
  else if 100 ≤ p ∧ p ≤ 107 then { a with bg := theme.ansi16 (Fin.ofNat 16 (8 + (p.toNat - 100))) }
  else a

/-- `38` と `48` の後の色。読めなければ、何も消費しない。 -/
def parseExtendedColor (theme : Theme) : List UInt16 → Option UInt32
  | 5 :: n :: _ => some (paletteColor theme n)
  | 2 :: r :: g :: b :: _ => some (argb r.toUInt32 g.toUInt32 b.toUInt32)
  | _ => none

def extendedColorLength (rest : List UInt16) : Nat := if rest.head? = some 5 then 2 else 4

def setExtendedColor (p : UInt16) (color : UInt32) (a : TermAttrs) : TermAttrs :=
  if p = 38 then { a with fg := color } else { a with bg := color }

/-- `skip` は、直前の拡張色が消費したパラメータの残りの個数である。 -/
def sgrFrom (theme : Theme) : Nat → List UInt16 → TermAttrs → TermAttrs
  | _, [], a => a
  | skip + 1, _ :: rest, a => sgrFrom theme skip rest a
  | 0, p :: rest, a =>
    if p = 38 ∨ p = 48 then
      match parseExtendedColor theme rest with
      | some color => sgrFrom theme (extendedColorLength rest) rest (setExtendedColor p color a)
      | none => sgrFrom theme 0 rest a
    else sgrFrom theme 0 rest (sgrOne theme p a)

def handleSgr (theme : Theme) (ps : List UInt16) (a : TermAttrs) : TermAttrs :=
  if ps.isEmpty then .defaultFor theme else sgrFrom theme 0 ps a

namespace Terminal

/-! ## Kitty keyboard -/

def kittyKeyboardStackMax : Nat := 8

def kittyFlagsStack (t : Terminal) : List UInt16 :=
  if t.altActive then t.modes.altKittyFlagsStack else t.modes.mainKittyFlagsStack

def setKittyFlagsStack (t : Terminal) (stack : List UInt16) : Terminal :=
  { t with modes :=
      if t.altActive then { t.modes with altKittyFlagsStack := stack }
      else { t.modes with mainKittyFlagsStack := stack } }

def kittyKeyboardFlags (t : Terminal) : UInt16 := t.kittyFlagsStack.getLastD 0

def pushKittyFlags (t : Terminal) (flags : UInt16) : Terminal :=
  let stack := t.kittyFlagsStack
  let stack := if stack.length ≥ kittyKeyboardStackMax then stack.drop 1 else stack
  t.setKittyFlagsStack (stack ++ [flags])

def popKittyFlags (t : Terminal) (p0 : UInt16) : Option Terminal := do
  let n := min (max p0.toNat 1) t.kittyFlagsStack.length
  let newLen ← sub? t.kittyFlagsStack.length n
  return t.setKittyFlagsStack (t.kittyFlagsStack.take newLen)

def setKittyFlags (t : Terminal) (flags p1 : UInt16) : Terminal :=
  let mode := if p1 = 0 then 1 else p1
  let current := t.kittyKeyboardFlags
  let newFlags := if mode = 2 then current ||| flags else if mode = 3 then current &&& ~~~flags else flags
  t.setKittyFlagsStack (t.kittyFlagsStack.dropLast ++ [newFlags])

/-! ## DEC モード -/

def setModes (t : Terminal) (f : Modes → Modes) : Terminal := { t with modes := f t.modes }

def setMouseMode (t : Terminal) (mode : MouseReportingMode) : Terminal :=
  t.setModes fun m => { m with mouseReportingMode := mode }

def setOriginMode (t : Terminal) (on : Bool) : Terminal :=
  (t.setModes fun m => { m with originMode := on }).setCursor (if on then t.scrollTop else 0) 0

/-- `on` は `h` のとき真、`l` のとき偽である。 -/
def setDecMode (t : Terminal) (on : Bool) (p : UInt16) : Option Terminal :=
  if p = 1000 then some (t.setMouseMode (if on then .normal else .off))
  else if p = 1002 then some (t.setMouseMode (if on then .buttonEvent else .off))
  else if p = 1003 then some (t.setMouseMode (if on then .anyEvent else .off))
  else if p = 1006 then some (t.setModes fun m => { m with sgrMouseMode := on })
  else if p = 1007 then some (t.setModes fun m => { m with alternateScroll := on })
  else if p = 1015 then some (t.setModes fun m => { m with urxvtMouseMode := on })
  else if p = 47 ∨ p = 1047 then if on then t.switchToAlt false else some (t.switchToMain false)
  else if p = 1049 then if on then t.switchToAlt true else some (t.switchToMain true)
  else if p = 25 then some (t.setModes fun m => { m with cursorVisible := on })
  else if p = 12 then some (t.setModes fun m => { m with cursorBlink := on })
  else if p = 1 then some (t.setModes fun m => { m with applicationCursorMode := on })
  else if p = 7 then some (t.setModes fun m => { m with autowrapMode := on })
  else if p = 6 then some (t.setOriginMode on)
  else if p = 2004 then some (t.setModes fun m => { m with bracketedPasteMode := on })
  else if p = 2026 then some (t.setModes fun m => { m with synchronizedOutputActive := on })
  else if p = 1004 then some (t.setModes fun m => { m with focusReportingMode := on })
  else some t

def setDecModes (t : Terminal) (action : Char) (ps : List UInt16) : Option Terminal :=
  if action = 'h' then ps.foldlM (fun t p => t.setDecMode true p) t
  else if action = 'l' then ps.foldlM (fun t p => t.setDecMode false p) t
  else some t

/-! ## 応答 -/

def setCursorShapeFromDecscusr (t : Terminal) (p : UInt16) : Terminal :=
  let set (shape : CursorShape) (blink : Bool) := t.setModes fun m => { m with cursorShape := shape, cursorBlink := blink }
  if p = 0 ∨ p = 1 then set .block true
  else if p = 2 then set .block false
  else if p = 3 then set .underline true
  else if p = 4 then set .underline false
  else if p = 5 then set .bar true
  else if p = 6 then set .bar false
  else t

/-- 見えている位置を 1 から数えて返す。 -/
def cursorPositionReport (t : Terminal) : String :=
  "\x1b[" ++ toString (t.cursor.row - t.originRowBounds.1 + 1) ++ ";" ++ toString (t.visibleCol + 1) ++ "R"

def deviceStatusReport (t : Terminal) (p0 : UInt16) : Terminal :=
  if p0 = 5 then t.respond "\x1b[0n"
  else if p0 = 6 then t.respond t.cursorPositionReport
  else t

/-! ## カーソル -/

def cursorUp (t : Terminal) (n : Nat) : Terminal := t.setCursorRow (max (t.cursor.row - n) t.originRowBounds.1)

def cursorDown (t : Terminal) (n : Nat) : Terminal := t.setCursorRow (min (t.cursor.row + n) t.originRowBounds.2)

def cursorForward (t : Terminal) (n : Nat) : Option Terminal := do
  return t.setCursorCol (min (t.cursor.col + n) (← sub? t.cols 1))

def cursorColumn (t : Terminal) (n : Nat) : Option Terminal := do
  return t.setCursorCol (min (n - 1) (← sub? t.cols 1))

def cursorLine (t : Terminal) (n : Nat) : Option Terminal := do
  let (floor, ceil) := t.originRowBounds
  return t.setCursorRow (← clamp? floor ceil (floor + n - 1))

def cursorPosition (t : Terminal) (row col : Nat) : Option Terminal := do (← t.cursorLine row).cursorColumn col

/-- 片方だけの省略では、省略された側だけを画面の端とする。 -/
def setScrollRegion (t : Terminal) (p0 p1 : Nat) : Option Terminal := do
  let lastRow ← sub? t.rows 1
  let top := if p0 = 0 then 0 else min (p0 - 1) lastRow
  let bot := if p1 = 0 then lastRow else min (p1 - 1) lastRow
  if top < bot then
    let t := { t with scrollTop := top, scrollBottom := bot }
    return t.setCursor t.originRowBounds.1 0
  else return t

/-! ## 消去と繰り返し -/

/-- ED。 -/
def eraseInDisplay (t : Terminal) (p0 : UInt16) : Terminal :=
  let pos := t.cursor.row * t.cols + t.visibleCol
  if p0 = 0 then t.eraseCells pos (t.cols * t.rows)
  else if p0 = 1 then t.eraseCells 0 (pos + 1)
  else if p0 = 2 ∨ p0 = 3 then ((t.eraseCells 0 (t.cols * t.rows)).setCursor 0 0).clearImages
  else t

/-- EL。 -/
def eraseInLine (t : Terminal) (p0 : UInt16) : Terminal :=
  let start := t.cursor.row * t.cols
  let pos := start + t.visibleCol
  let stop := (t.cursor.row + 1) * t.cols
  if p0 = 0 then t.eraseCells pos stop
  else if p0 = 1 then t.eraseCells start (pos + 1)
  else if p0 = 2 then t.eraseCells start stop
  else t

def setActiveLink (t : Terminal) (id : Option Nat) : Terminal := { t with links := { t.links with activeLinkId := id } }

def printTimes (env : Env) (c : Char) : Nat → Terminal → Option Terminal
  | 0, t => some t
  | n + 1, t => do printTimes env c n (← t.printMapped env c)

/-- REP。書いたときの属性とリンクで印字し、終わったら戻す。 -/
def repeatGraphic (env : Env) (t : Terminal) (n : Nat) : Option Terminal :=
  match t.lastGraphicCell with
  | some (c, attrs, linkId) => do
    let n := min n (max (t.cols * t.rows) 1)
    let t' ← printTimes env c n ((t.setAttrs attrs).setActiveLink linkId)
    return (t'.setAttrs t.cursor.attrs).setActiveLink t.links.activeLinkId
  | none => some t

/-! ## 振り分け -/

/-- 最後の `match action`。 -/
def csiAction (env : Env) (t : Terminal) (params : Params) (intermediates : List UInt8) (action : Char) :
    Option Terminal :=
  let ps := params.map (·.head)
  let p0 := ps[0]?.getD 0
  let p1 := ps[1]?.getD 0
  let n := max p0.toNat 1
  let m := max p1.toNat 1
  match action with
  | 'A' => some (t.cursorUp n)
  | 'B' => some (t.cursorDown n)
  | 'C' => t.cursorForward n
  | 'D' => some (t.setCursorCol (t.cursor.col - n))
  | 'E' => some ((t.cursorDown n).setCursorCol 0)
  | 'F' => some ((t.cursorUp n).setCursorCol 0)
  | 'G' | '\x60' => t.cursorColumn n
  | 'I' => t.cursorForwardTab n
  | 'Z' => t.cursorBackwardTab n
  | 'H' | 'f' => t.cursorPosition n m
  | 'J' => some (t.eraseInDisplay p0)
  | 'K' => some (t.eraseInLine p0)
  | 'L' => t.insertLines n
  | 'M' => t.deleteLines n
  | '@' => t.insertChars env n
  | 'P' => t.deleteChars env n
  | 'X' => t.eraseChars env n
  | 'S' => t.scrollUpRegion n
  | 'T' => if intermediates.isEmpty ∧ params.count ≤ 1 then t.scrollDownRegion n else some t
  | 'b' => t.repeatGraphic env n
  | 'd' => t.cursorLine n
  | 'g' => if p0 = 0 then t.setTabStop false else if p0 = 3 then some t.clearTabStops else some t
  | 'm' => some (t.setAttrs (handleSgr t.theme ps t.cursor.attrs))
  | 'r' => t.setScrollRegion p0.toNat p1.toNat
  | 's' => some t.saveCursorDecsc
  | 'u' => some t.restoreCursorDecrc
  | _ => some t

def csiDispatch (env : Env) (t : Terminal) (params : Params) (intermediates : List UInt8) (action : Char) :
    Option Terminal :=
  let ps := params.map (·.head)
  let p0 := ps[0]?.getD 0
  let p1 := ps[1]?.getD 0
  if action = 'u' ∧ intermediates = [0x3e] then some (t.pushKittyFlags p0)
  else if action = 'u' ∧ intermediates = [0x3c] then t.popKittyFlags p0
  else if action = 'u' ∧ intermediates = [0x3d] then some (t.setKittyFlags p0 p1)
  else if action = 'u' ∧ intermediates = [0x3f] then
    some (t.respond ("\x1b[?" ++ toString t.kittyKeyboardFlags.toNat ++ "u"))
  else if intermediates.head? = some 0x3f then t.setDecModes action ps
  else if action = 'q' ∧ intermediates = [0x20] then some (t.setCursorShapeFromDecscusr p0)
  else if action = 'c' ∧ intermediates = [] ∧ p0 = 0 then some (t.respond "\x1b[?1;2;4c")
  else if action = 'c' ∧ intermediates = [0x3e] ∧ p0 = 0 then some (t.respond "\x1b[>0;100;0c")
  else if action = 'n' ∧ intermediates = [] then some (t.deviceStatusReport p0)
  else t.csiAction env params intermediates action

end Terminal

end IsekaiTerminal.Emulator
