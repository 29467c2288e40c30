import IsekaiTerminal.Emulator.Perform

/-!
# 画面の発行

`rust-core/src/session_state.rs` の `SessionState` を定める。
`make_screen_update` は、前回の発行からの差分を `dirty_rows` に添える。
-/

namespace IsekaiTerminal.Emulator

/-! ## 発行する値 -/

structure CellData where
  ch : List Char
  fg : UInt32
  bg : UInt32
  bold : Bool
  dim : Bool
  italic : Bool
  underline : Bool
  strikethrough : Bool
  blink : Bool
  invisible : Bool
  linkId : Option Nat
deriving DecidableEq

def toCellData (c : TermCell) : CellData :=
  { ch := c.ch, fg := c.fg, bg := c.bg, bold := c.bold, dim := c.dim, italic := c.italic, underline := c.underline,
    strikethrough := c.strikethrough, blink := c.blink, invisible := c.invisible, linkId := c.linkId }

/-- `line` 行目の `left` 列から `right` 列まで。 -/
structure LineDamage where
  line : UInt16
  left : UInt16
  right : UInt16
deriving DecidableEq

structure ScreenUpdate where
  updateSeq : UInt32
  cols : UInt32
  rows : UInt32
  cells : List CellData
  cursorRow : UInt32
  cursorCol : UInt32
  title : Option (List Char)
  tabColor : Option (UInt8 × UInt8 × UInt8)
  tabProgress : Option (ProgressState × UInt8)
  cursorColor : Option (UInt8 × UInt8 × UInt8)
  applicationCursorMode : Bool
  applicationKeypadMode : Bool
  bracketedPasteMode : Bool
  mouseReportingMode : MouseReportingMode
  sgrMouseMode : Bool
  alternateScroll : Bool
  urxvtMouseMode : Bool
  cursorVisible : Bool
  bellGeneration : UInt64
  notifyGeneration : UInt64
  notify : NotifyKind × List Char × List Char
  panelGeneration : UInt64
  panel : Option ParsedPanel
  cursorShape : CursorShape
  cursorBlink : Bool
  linkTable : List (List Char)
  images : List ImagePlacement
  kittyKeyboardFlags : UInt16
  /-- `none` は全画面の損傷である。 -/
  dirtyRows : Option (List LineDamage)
deriving DecidableEq

/-- `ProcessResult` のうち、端末に関わる欄。`stdin` は `SideEffect::SendStdin` の列である。 -/
structure ProcessResult where
  pendingRows : List Row
  screenDirty : Bool
  pendingClipboardWrite : Option (List Char)
  clipboardPullRequested : Bool
  stdin : List String

def ProcessResult.dirty : ProcessResult :=
  { pendingRows := [], screenDirty := true, pendingClipboardWrite := none, clipboardPullRequested := false, stdin := [] }

/-! ## 差分 -/

/-- `current[base..base + cols]` と `prev[base..base + cols]` で、異なる最初と最後の列。 -/
def diffRow (current prev : List TermCell) (base cols : Nat) : Option (Option (Nat × Nat)) :=
  (List.range cols).foldlM (fun range col => do
    let a ← current[base + col]?
    let b ← prev[base + col]?
    return if a ≠ b then some ((range.map (·.1)).getD col, col) else range) none

def diffRows (current prev : List TermCell) (cols rows : Nat) : Option (List LineDamage) :=
  (List.range rows).foldlM (fun damages row => do
    return match ← diffRow current prev (row * cols) cols with
    | some (left, right) =>
      damages ++ [{ line := UInt16.ofNat row, left := UInt16.ofNat left, right := UInt16.ofNat right }]
    | none => damages) []

/-- `line` の損傷を、列 `col` まで広げる。 -/
def LineDamage.widen (d : LineDamage) (col : UInt16) : LineDamage :=
  { d with left := min d.left col, right := max d.right col }

/-- `damages.iter_mut().find` で見つかった損傷を広げる。なければ末尾に足す。 -/
def widenLine (line col : UInt16) : List LineDamage → List LineDamage
  | [] => [{ line, left := col, right := col }]
  | d :: damages => if d.line = line then d.widen col :: damages else d :: widenLine line col damages

def forceCursorRowDirty (damages : List LineDamage) (row col cols rows : Nat) : List LineDamage :=
  if cols = 0 ∨ row ≥ rows then damages
  else widenLine (UInt16.ofNat row) (UInt16.ofNat (min col (cols - 1))) damages

/-! ## 状態 -/

/-- 発行の差分に関わる、カーソルの見た目。 -/
structure CursorLook where
  row : Nat
  col : Nat
  visible : Bool
  shape : CursorShape
  blink : Bool
deriving DecidableEq

/-- `lastCursor` は `last_cursor_row` から `last_cursor_blink` までの欄である。 -/
structure SessionState where
  terminal : Terminal
  lastEmittedCells : Option (List TermCell)
  lastEmittedCols : Nat
  lastEmittedRows : Nat
  lastCursor : CursorLook
  updateSeq : UInt32

def Terminal.screenCells (t : Terminal) : List TermCell := t.cells.flatten

/-- カーソルの列は、見えている最後の列に収める。 -/
def Terminal.cursorLook (t : Terminal) : CursorLook :=
  { row := t.cursor.row, col := t.visibleCol, visible := t.modes.cursorVisible, shape := t.modes.cursorShape,
    blink := t.modes.cursorBlink }

namespace SessionState

def new (cols rows : Nat) (theme : Theme) : SessionState :=
  { terminal := .new cols rows theme
    lastEmittedCells := none
    lastEmittedCols := 0
    lastEmittedRows := 0
    lastCursor := { row := 0, col := 0, visible := true, shape := .block, blink := true }
    updateSeq := 0 }

def dimsMatch (s : SessionState) : Bool :=
  s.lastEmittedCols = s.terminal.cols && s.lastEmittedRows = s.terminal.rows &&
    s.lastEmittedCells.any fun c => c.length = s.terminal.cols * s.terminal.rows

/-- 前回の発行からの損傷。カーソルの見た目が変わったときは、前と今のカーソルの行を含める。 -/
def damages (s : SessionState) (prev : List TermCell) : Option (List LineDamage) := do
  let t := s.terminal
  let damages ← diffRows t.screenCells prev t.cols t.rows
  let damages :=
    if t.cursorLook ≠ s.lastCursor then
      forceCursorRowDirty (forceCursorRowDirty damages s.lastCursor.row s.lastCursor.col t.cols t.rows)
        t.cursorLook.row t.cursorLook.col t.cols t.rows
    else damages
  return damages.insertionSort fun a b => a.line ≤ b.line

def dirtyRows (s : SessionState) : Option (Option (List LineDamage)) :=
  if s.terminal.fullDamagePending || !s.dimsMatch then some none
  else do
    let prev ← s.lastEmittedCells
    return some (← s.damages prev)

/-- スナップショットは、全画面の損傷のときも更新する。 -/
def emitted (s : SessionState) : SessionState :=
  let t := s.terminal.takeFullDamagePending.2
  { terminal := t, lastEmittedCells := some t.screenCells, lastEmittedCols := t.cols, lastEmittedRows := t.rows,
    lastCursor := t.cursorLook, updateSeq := s.updateSeq + 1 }

def makeScreenUpdate (s : SessionState) : Option (ScreenUpdate × SessionState) := do
  let dirtyRows ← s.dirtyRows
  let t := s.terminal
  return ({
    updateSeq := s.updateSeq + 1
    cols := UInt32.ofNat t.cols
    rows := UInt32.ofNat t.rows
    cells := t.screenCells.map toCellData
    cursorRow := UInt32.ofNat t.cursor.row
    cursorCol := UInt32.ofNat t.visibleCol
    title := t.host.title
    tabColor := t.host.tabColor
    tabProgress := t.host.tabProgress
    cursorColor := t.host.cursorColor
    applicationCursorMode := t.modes.applicationCursorMode
    applicationKeypadMode := t.modes.applicationKeypadMode
    bracketedPasteMode := t.modes.bracketedPasteMode
    mouseReportingMode := t.modes.mouseReportingMode
    sgrMouseMode := t.modes.sgrMouseMode
    alternateScroll := t.modes.alternateScroll
    urxvtMouseMode := t.modes.urxvtMouseMode
    cursorVisible := t.modes.cursorVisible
    bellGeneration := t.host.bellGeneration
    notifyGeneration := t.host.notifyGeneration
    notify := t.host.notify
    panelGeneration := t.host.panelGeneration
    panel := t.host.panel
    cursorShape := t.modes.cursorShape
    cursorBlink := t.modes.cursorBlink
    linkTable := t.links.linkTable
    images := t.graphics.images
    kittyKeyboardFlags := t.kittyKeyboardFlags
    dirtyRows }, s.emitted)

/-! ## 入力 -/

/-- 発行の間に起こる操作。`stdout` は、1 つのバッチが起こす `Perform` と APC の列である。 -/
inductive Op
  | stdout (events : List Event)
  | resize (cols rows : Nat)
  | setTitleFromCtl (title : List Char)
  | setTabColorFromCtl (rgb : UInt8 × UInt8 × UInt8)
  | setTabProgressFromCtl (state : ProgressState) (progress : UInt8)
  | notifyFromCtl (notify : NotifyKind × List Char × List Char)
  | setTheme (theme : Theme)
  | setPanelEnabled (enabled : Bool)
  | forceEndSynchronizedOutput

/-- バッチの後に、送り出した行と、外部への書き込みを取り出す。 -/
def onStdout (env : Env) (s : SessionState) (events : List Event) : Option (ProcessResult × SessionState) := do
  let t ← s.terminal.exec env events
  let (pendingRows, t) := t.takeScrollback
  let host := { t.host with
    pendingClipboardWrite := none, pendingClipboardPullRequest := false, pendingTerminalResponses := [] }
  return ({
    pendingRows
    screenDirty := !t.modes.synchronizedOutputActive
    pendingClipboardWrite := t.host.pendingClipboardWrite
    clipboardPullRequested := t.host.pendingClipboardPullRequest
    stdin := t.host.pendingTerminalResponses }, { s with terminal := { t with host } })

def resize (env : Env) (s : SessionState) (cols rows : Nat) : Option (ProcessResult × SessionState) := do
  let t ← s.terminal.resizePreservingState env cols rows
  let (pendingRows, t) := t.takeScrollback
  return ({ ProcessResult.dirty with pendingRows }, { s with terminal := t })

def setHost (s : SessionState) (f : Host → Host) : SessionState :=
  { s with terminal := { s.terminal with host := f s.terminal.host } }

def apply (env : Env) (s : SessionState) : Op → Option (ProcessResult × SessionState)
  | .stdout events => s.onStdout env events
  | .resize cols rows => s.resize env cols rows
  | .setTitleFromCtl title => some (.dirty, s.setHost fun h => { h with title := some title })
  | .setTabColorFromCtl rgb => some (.dirty, s.setHost fun h => { h with tabColor := some rgb })
  | .setTabProgressFromCtl state progress =>
    some (.dirty, s.setHost fun h => { h with
      tabProgress := if state = .none then none else some (state, progress) })
  | .notifyFromCtl notify =>
    some (.dirty, s.setHost fun h => { h with notifyGeneration := saturatingSucc h.notifyGeneration, notify })
  | .setTheme theme => some ({ ProcessResult.dirty with screenDirty := false }, { s with terminal := { s.terminal with theme } })
  | .setPanelEnabled enabled =>
    some ({ ProcessResult.dirty with screenDirty := false }, s.setHost fun h => { h with panelEnabled := enabled })
  | .forceEndSynchronizedOutput =>
    some (.dirty, { s with terminal :=
      { s.terminal with modes := { s.terminal.modes with synchronizedOutputActive := false } } })

/-- 発行を伴わない操作の列。 -/
def run (env : Env) (s : SessionState) (ops : List Op) : Option SessionState :=
  ops.foldlM (fun s op => (s.apply env op).map (·.2)) s

/-- 操作と発行によって到達する状態。 -/
inductive Reachable (env : Env) : SessionState → Prop
  | new (cols rows : Nat) (theme : Theme) : Reachable env (new cols rows theme)
  | apply {s s' : SessionState} {op : Op} {result : ProcessResult} (h : Reachable env s)
      (step : s.apply env op = some (result, s')) : Reachable env s'
  | makeScreenUpdate {s s' : SessionState} {update : ScreenUpdate} (h : Reachable env s)
      (step : s.makeScreenUpdate = some (update, s')) : Reachable env s'

end SessionState

/-!
## 損傷の意味

`dirty_rows` が述べる位置、それが覆うべき画面とカーソルの違い、全画面の損傷を起こす遷移を定める。
-/

/-! ## 損傷の位置 -/

def LineDamage.Covers (d : LineDamage) (row col : Nat) : Prop :=
  d.line.toNat = row ∧ d.left.toNat ≤ col ∧ col ≤ d.right.toNat

instance (d : LineDamage) (row col : Nat) : Decidable (d.Covers row col) := inferInstanceAs (Decidable (_ ∧ _ ∧ _))

/-- 損傷のどれかが覆う位置。 -/
def Damaged (damages : List LineDamage) (row col : Nat) : Prop := ∃ d ∈ damages, d.Covers row col

instance (damages : List LineDamage) (row col : Nat) : Decidable (Damaged damages row col) :=
  inferInstanceAs (Decidable (∃ d ∈ damages, d.Covers row col))

namespace ScreenUpdate

/-- `f` のセルのうち、損傷の位置だけを `g` のセルで置き換える。 -/
def patched (f g : ScreenUpdate) (damages : List LineDamage) : List CellData :=
  f.cells.mapIdx fun i cell =>
    if Damaged damages (i / g.cols.toNat) (i % g.cols.toNat) then g.cells[i]?.getD cell else cell

/-- 位置 `(row, col)` に描かれるカーソルの形、点滅、色。 -/
def drawnCursor (f : ScreenUpdate) (row col : Nat) :
    Option (CursorShape × Bool × Option (UInt8 × UInt8 × UInt8)) :=
  if f.cursorVisible ∧ f.cursorRow.toNat = row ∧ f.cursorCol.toNat = col then
    some (f.cursorShape, f.cursorBlink, f.cursorColor)
  else none

/-- `damages` の位置だけを描き直せば、`f` から `g` になる。 -/
structure DamageCovers (f g : ScreenUpdate) (damages : List LineDamage) : Prop where
  cells : f.patched g damages = g.cells
  cursor : ∀ row col, f.drawnCursor row col ≠ g.drawnCursor row col → Damaged damages row col
  increasing : damages.Pairwise fun a b => a.line < b.line
  range : ∀ d ∈ damages, d.left ≤ d.right ∧ d.right.toNat < g.cols.toNat
  lines : ∀ d ∈ damages, d.line.toNat < g.rows.toNat

end ScreenUpdate

/-! ## 構造の変化 -/

namespace Terminal

def printScrolls (env : Env) (t : Terminal) (c : Char) : Bool :=
  charWidth env c ≠ 0 && t.needsWrap (charWidth env c) && t.modes.autowrapMode && t.cursor.row = t.scrollBottom

/-- REP の途中の印字が画面を送る。 -/
def repeatScrolls (env : Env) (t : Terminal) (n : Nat) : Bool :=
  match t.lastGraphicCell with
  | some (c, attrs, linkId) =>
    (List.range (min n (max (t.cols * t.rows) 1))).any fun k =>
      (printTimes env c k ((t.setAttrs attrs).setActiveLink linkId)).any fun u => u.printScrolls env c
  | none => false

def isAltMode (p : UInt16) : Bool := p = 47 || p = 1047 || p = 1049

/-- `CSI ? ps h` と `CSI ? ps l` の途中で、表示する画面が切り替わる。 -/
def modesSwitch (t : Terminal) (on : Bool) (ps : List UInt16) : Bool :=
  (List.range ps.length).any fun k =>
    ((ps.take k).foldlM (fun (t : Terminal) p => t.setDecMode on p) t).any fun u => ps[k]?.any isAltMode && u.altActive != on

/-- スクロール、行の挿入と削除、画面の切り替え、RIS、大きさの変わるリサイズ。 -/
def restructures (env : Env) (t : Terminal) : Event → Bool
  | .print c => t.printScrolls env (t.mapCharset c)
  | .execute byte => (byte = 0x0A || byte = 0x0B || byte = 0x0C) && t.cursor.row = t.scrollBottom
  | .csiDispatch params intermediates action =>
    let ps := params.map (·.head)
    let inRegion := t.scrollTop ≤ t.cursor.row && t.cursor.row ≤ t.scrollBottom
    if intermediates.head? = some 0x3f then
      (action = 'h' && t.modesSwitch true ps) || (action = 'l' && t.modesSwitch false ps)
    else
      action = 'S' || (action = 'T' && intermediates.isEmpty && params.count ≤ 1) || (action = 'L' && inRegion) ||
        (action = 'M' && inRegion) || (action = 'b' && t.repeatScrolls env (max (ps[0]?.getD 0).toNat 1))
  | .escDispatch ints byte => ints = [] && ((byte = 0x4d && t.cursor.row = t.scrollTop) || byte = 0x63)
  | .resize cols rows => max cols 1 ≠ t.cols || max rows 1 ≠ t.rows
  | _ => false

end Terminal

/-- 発行の間に、画面の構造が変わった。 -/
inductive Restructured (env : Env) : SessionState → List SessionState.Op → Prop
  | stdout {s : SessionState} {t : Terminal} {ops : List SessionState.Op} (before after : List Event) (ev : Event)
      (exec : s.terminal.exec env before = some t) (restructures : t.restructures env ev = true) :
      Restructured env s (.stdout (before ++ ev :: after) :: ops)
  | resize {s : SessionState} {ops : List SessionState.Op} (cols rows : Nat)
      (restructures : s.terminal.restructures env (.resize cols rows) = true) :
      Restructured env s (.resize cols rows :: ops)
  | later {s s' : SessionState} {op : SessionState.Op} {result : ProcessResult} {ops : List SessionState.Op}
      (step : s.apply env op = some (result, s')) (tail : Restructured env s' ops) : Restructured env s (op :: ops)

/-- 発行 `f` の後に `ops` を経て `g` を発行したとき、`g` の `dirty_rows` は変化を隠さない。 -/
structure HidesNothing (env : Env) (s : SessionState) (ops : List SessionState.Op) (f g : ScreenUpdate) : Prop where
  covers : ∀ damages, g.dirtyRows = some damages → f.DamageCovers g damages
  restructured : Restructured env s ops → g.dirtyRows = none
  resized : (f.cols, f.rows) ≠ (g.cols, g.rows) → g.dirtyRows = none
  idle : ops = [] → g.dirtyRows = some []

/-! ## 欠けている条件 -/

/-- 位置 `(row, col)` のセルが、前回の発行から変わった。 -/
def SessionState.Changed (s : SessionState) (prev : List TermCell) (row col : Nat) : Prop :=
  s.terminal.screenCells[row * s.terminal.cols + col]? ≠ prev[row * s.terminal.cols + col]?

/-- 画面の大きさが `u32` に、損傷に載る位置が `u16` に収まる。 -/
structure SessionState.Untruncated (s : SessionState) (prev : List TermCell) : Prop where
  size : s.terminal.cols < 2 ^ 32 ∧ s.terminal.rows < 2 ^ 32
  cells : ∀ row < s.terminal.rows, ∀ col < s.terminal.cols, s.Changed prev row col → row < 2 ^ 16 ∧ col < 2 ^ 16
  cursor : s.terminal.cursorLook ≠ s.lastCursor →
    (s.lastCursor.row < 2 ^ 16 ∧ s.lastCursor.col < 2 ^ 16) ∧
      s.terminal.cursorLook.row < 2 ^ 16 ∧ s.terminal.cursorLook.col < 2 ^ 16

/-- カーソルの色の変化が、ほかの変化の損傷に含まれる。`color` は前回の発行のときの色である。 -/
def SessionState.ColorCovered (s : SessionState) (prev : List TermCell) (color : Option (UInt8 × UInt8 × UInt8)) : Prop :=
  s.terminal.host.cursorColor = color ∨ s.terminal.modes.cursorVisible = false ∨ s.terminal.cursorLook ≠ s.lastCursor ∨
    ∃ left right, left ≤ s.terminal.visibleCol ∧ s.terminal.visibleCol ≤ right ∧ right < s.terminal.cols ∧
      s.Changed prev s.terminal.cursor.row left ∧ s.Changed prev s.terminal.cursor.row right

end IsekaiTerminal.Emulator
