import IsekaiTerminal.Lib.Checked
import IsekaiTerminal.Emulator.Sixel

/-!
# 端末の状態

`Terminal` の欄を、画面に関わるものと、モード、リンク、画像、プロンプト、外部との受け渡しに分けて定める。
-/

namespace IsekaiTerminal.Emulator

/-! ## 欄 -/

inductive MouseReportingMode
  | off
  | normal
  | buttonEvent
  | anyEvent
deriving DecidableEq

inductive CursorShape
  | block
  | underline
  | bar
deriving DecidableEq

inductive ProgressState
  | none
  | normal
  | error
  | indeterminate
  | paused
deriving DecidableEq

inductive NotifyKind
  | bell
  | activity
  | silence
  | jobDone
  | waiting
  | done
  | info
deriving DecidableEq

structure SavedCursor where
  row : Nat
  col : Nat
  attrs : TermAttrs
  g0 : Charset
  g1 : Charset
  glIsG1 : Bool
deriving DecidableEq

structure ImagePlacement where
  id : UInt64
  row : Nat
  col : Nat
  rowsSpan : Nat
  colsSpan : Nat
  widthPx : Nat
  heightPx : Nat
  rgba : List UInt8
deriving DecidableEq

inductive PromptMarkKind
  | promptStart
  | commandStart
  | commandExecuted
  | commandFinished (exitCode : Option Int)
deriving DecidableEq

structure PromptMark where
  kind : PromptMarkKind
  row : Nat
deriving DecidableEq

structure Modes where
  applicationCursorMode : Bool
  applicationKeypadMode : Bool
  bracketedPasteMode : Bool
  synchronizedOutputActive : Bool
  focusReportingMode : Bool
  cursorVisible : Bool
  cursorShape : CursorShape
  cursorBlink : Bool
  autowrapMode : Bool
  originMode : Bool
  mouseReportingMode : MouseReportingMode
  sgrMouseMode : Bool
  alternateScroll : Bool
  urxvtMouseMode : Bool
  mainKittyFlagsStack : List UInt16
  altKittyFlagsStack : List UInt16
deriving DecidableEq

def Modes.new : Modes :=
  { applicationCursorMode := false, applicationKeypadMode := false, bracketedPasteMode := false,
    synchronizedOutputActive := false, focusReportingMode := false, cursorVisible := true, cursorShape := .block,
    cursorBlink := true, autowrapMode := true, originMode := false, mouseReportingMode := .off, sgrMouseMode := false,
    alternateScroll := false, urxvtMouseMode := false, mainKittyFlagsStack := [], altKittyFlagsStack := [] }

/-- OSC 8 のリンク。 -/
structure Links where
  activeLinkId : Option Nat
  linkTable : List (List Char)
  linkIds : List Char → Option Nat

def Links.new : Links := { activeLinkId := none, linkTable := [], linkIds := fun _ => none }

/-- 画面に置いた画像。 -/
structure Graphics where
  sixelDecoder : Option SixelDecoder
  images : List ImagePlacement
  nextImageId : UInt64
  kitty : KittyGraphics
  kittyIdByPlacement : UInt64 → Option Nat
  kittyPlacementIds : UInt64 → Bool

def Graphics.new : Graphics :=
  { sixelDecoder := none, images := [], nextImageId := 0, kitty := .new, kittyIdByPlacement := fun _ => none,
    kittyPlacementIds := fun _ => false }

/-- OSC 133 のプロンプトと、コマンドの出力の取り込み。 -/
structure Prompt where
  promptMarks : List PromptMark
  inputLineActive : Bool
  capturingCommandOutput : Bool
  currentOutputLine : List Char
  currentOutputLines : List (List Char)
  lastCommandOutput : Option (List (List Char))

def Prompt.new : Prompt :=
  { promptMarks := [], inputLineActive := false, capturingCommandOutput := false, currentOutputLine := [],
    currentOutputLines := [], lastCommandOutput := none }

/-- 端末の外との受け渡し。 -/
structure Host where
  title : Option (List Char)
  tabColor : Option (UInt8 × UInt8 × UInt8)
  tabProgress : Option (ProgressState × UInt8)
  cursorColor : Option (UInt8 × UInt8 × UInt8)
  pendingClipboardWrite : Option (List Char)
  pendingClipboardPullRequest : Bool
  pendingTerminalResponses : List String
  bellGeneration : UInt64
  notifyGeneration : UInt64
  notify : NotifyKind × List Char × List Char
  panelGeneration : UInt64
  panel : Option ParsedPanel
  panelEnabled : Bool
  lastPanelUpdateAt : Option Nat

def Host.new : Host :=
  { title := none, tabColor := none, tabProgress := none, cursorColor := none, pendingClipboardWrite := none,
    pendingClipboardPullRequest := false, pendingTerminalResponses := [], bellGeneration := 0, notifyGeneration := 0,
    notify := (.info, [], []), panelGeneration := 0, panel := none, panelEnabled := false, lastPanelUpdateAt := none }

/-- `saturating_add(1)`。 -/
def saturatingSucc (n : UInt64) : UInt64 := if n.toNat + 1 < UInt64.size then n + 1 else n

/-- `cursor` は、`cursor_row` から `gl_is_g1` までの欄である。`capture_cursor` はこれをそのまま返す。 -/
structure Terminal where
  theme : Theme
  cols : Nat
  rows : Nat
  mainCells : Grid
  altCells : Grid
  altActive : Bool
  savedCursorMain : Option SavedCursor
  savedCursorAlt : Option SavedCursor
  cursor : SavedCursor
  scrollTop : Nat
  scrollBottom : Nat
  tabStops : List Bool
  lastGraphicCell : Option (Char × TermAttrs × Option Nat)
  pendingScrollback : List Row
  totalScrolledLines : Nat
  fullDamagePending : Bool
  modes : Modes
  links : Links
  graphics : Graphics
  prompt : Prompt
  host : Host

def SavedCursor.home (theme : Theme) : SavedCursor :=
  { row := 0, col := 0, attrs := .defaultFor theme, g0 := .ascii, g1 := .ascii, glIsG1 := false }

def blankGrid (blank : TermCell) (cols rows : Nat) : Grid := List.replicate rows (List.replicate cols blank)

def defaultTabStops (cols : Nat) : List Bool := (List.range cols).map fun c => c % 8 = 0

namespace Terminal

def new (cols rows : Nat) (theme : Theme) : Terminal :=
  let cols := max cols 1
  let rows := max rows 1
  let cells := blankGrid (blankCellForTheme theme) cols rows
  { theme
    cols
    rows
    mainCells := cells
    altCells := cells
    altActive := false
    savedCursorMain := none
    savedCursorAlt := none
    cursor := .home theme
    scrollTop := 0
    scrollBottom := rows - 1
    tabStops := defaultTabStops cols
    lastGraphicCell := none
    pendingScrollback := []
    totalScrolledLines := 0
    fullDamagePending := false
    modes := .new
    links := .new
    graphics := .new
    prompt := .new
    host := .new }

/-- RIS。履歴と、端末の外との受け渡しの一部は残す。 -/
def resetAll (t : Terminal) : Terminal :=
  { new t.cols t.rows t.theme with
    pendingScrollback := t.pendingScrollback
    totalScrolledLines := t.totalScrolledLines
    fullDamagePending := true
    links := { Links.new with linkTable := t.links.linkTable, linkIds := t.links.linkIds }
    graphics := { Graphics.new with
      nextImageId := t.graphics.nextImageId, kitty := t.graphics.kitty, sixelDecoder := t.graphics.sixelDecoder }
    prompt := { Prompt.new with promptMarks := t.prompt.promptMarks, lastCommandOutput := t.prompt.lastCommandOutput }
    host := { Host.new with
      bellGeneration := t.host.bellGeneration
      notifyGeneration := t.host.notifyGeneration
      notify := t.host.notify
      panelGeneration := t.host.panelGeneration
      panel := t.host.panel
      panelEnabled := t.host.panelEnabled
      lastPanelUpdateAt := t.host.lastPanelUpdateAt } }

/-! ## 画面 -/

def cells (t : Terminal) : Grid := if t.altActive then t.altCells else t.mainCells

def setCells (t : Terminal) (g : Grid) : Terminal :=
  if t.altActive then { t with altCells := g } else { t with mainCells := g }

def blank (t : Terminal) : TermCell := t.cursor.attrs.toCell [' ']

def blankRow (t : Terminal) : Row := List.replicate t.cols t.blank

def setRow? (t : Terminal) (r : Nat) (row : Row) : Option Terminal := (Lib.write? t.cells r row).map t.setCells

/-- `*self.cell_mut(row, col) = cell`。 -/
def setCell? (t : Terminal) (r c : Nat) (cell : TermCell) : Option Terminal := do
  let row ← t.cells[r]?
  t.setRow? r (← Lib.write? row c cell)

def clearImages (t : Terminal) : Terminal :=
  { t with graphics := { t.graphics with
      images := [], kittyIdByPlacement := fun _ => none, kittyPlacementIds := fun _ => false } }

def setCursor (t : Terminal) (row col : Nat) : Terminal := { t with cursor := { t.cursor with row, col } }

def setCursorRow (t : Terminal) (row : Nat) : Terminal := { t with cursor := { t.cursor with row } }

def setCursorCol (t : Terminal) (col : Nat) : Terminal := { t with cursor := { t.cursor with col } }

def setAttrs (t : Terminal) (attrs : TermAttrs) : Terminal := { t with cursor := { t.cursor with attrs } }

def respond (t : Terminal) (response : String) : Terminal :=
  { t with host := { t.host with pendingTerminalResponses := t.host.pendingTerminalResponses ++ [response] } }

/-- `cursor_col.min(cols - 1)`。折り返し待ちでは、見えている最後の列を指す。 -/
def visibleCol (t : Terminal) : Nat := min t.cursor.col (t.cols - 1)

def originRowBounds (t : Terminal) : Nat × Nat :=
  if t.modes.originMode then (t.scrollTop, t.scrollBottom) else (0, t.rows - 1)

/-! ## 取り出し -/

def takeScrollback (t : Terminal) : List Row × Terminal := (t.pendingScrollback, { t with pendingScrollback := [] })

def takeFullDamagePending (t : Terminal) : Bool × Terminal := (t.fullDamagePending, { t with fullDamagePending := false })

end Terminal

end IsekaiTerminal.Emulator
