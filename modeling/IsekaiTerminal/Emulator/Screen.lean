import IsekaiTerminal.Emulator.State

/-!
# 画面の切り替えと画像

リサイズ、main と alt の切り替え、カーソルの保存と復元、画像の配置を定める。
-/

namespace IsekaiTerminal.Emulator

open Lib (sub? write? fill? copyUp? copyDown?)

/-!
## 行と文字の操作

スクロール、行の挿入と削除、行の中の挿入と削除、消去、タブストップを定める。
どの操作も、添字の範囲外の参照か桁下がりを起こすときだけ `none` を返す。
-/

/-- `session.rs` の `SCROLLBACK_LIMIT`。 -/
def scrollbackLimit : Nat := 1000

namespace Terminal

/-! ## 行 -/

/-- 高水位は `2 * SCROLLBACK_LIMIT` である。 -/
def trimPendingScrollback (t : Terminal) : Terminal :=
  let len := t.pendingScrollback.length
  if len > 2 * scrollbackLimit then { t with pendingScrollback := t.pendingScrollback.drop (len - scrollbackLimit) }
  else t

def blankRows (t : Terminal) (start n : Nat) : Option Terminal :=
  if n = 0 then some t else (fill? t.cells start t.blankRow n).map t.setCells

def shiftRowsUp (t : Terminal) (top bot n : Nat) : Option Terminal :=
  if top > bot ∨ bot ≥ t.rows then some t
  else
    let regionSize := bot - top + 1
    let n := min n regionSize
    if n = 0 then some t
    else do
      let t ←
        if n < regionSize then do
          let last ← sub? bot n
          (copyUp? t.cells top n (last + 1 - top)).map t.setCells
        else some t
      t.blankRows (top + (regionSize - n)) n

def shiftRowsDown (t : Terminal) (top bot n : Nat) : Option Terminal :=
  if top > bot ∨ bot ≥ t.rows then some t
  else
    let regionSize := bot - top + 1
    let n := min n regionSize
    if n = 0 then some t
    else do
      let t ←
        if n < regionSize then do
          let last ← sub? bot n
          (copyDown? t.cells top n (last + 1 - top)).map t.setCells
        else some t
      t.blankRows top n

/-- `main_cells` の上から `n` 行を履歴へ送る。 -/
def pushScrollback (t : Terminal) (n : Nat) : Option Terminal :=
  if n ≤ t.mainCells.length then
    some { t with
      pendingScrollback := t.pendingScrollback ++ t.mainCells.take n
      totalScrolledLines := t.totalScrolledLines + n }.trimPendingScrollback
  else none

/-- 行の並びを変える操作は、画面の全体を描き直させ、画像を消す。 -/
def damageAll (t : Terminal) : Terminal := { t with fullDamagePending := true }.clearImages

/-- SU。 -/
def scrollUpRegion (t : Terminal) (n : Nat) : Option Terminal := do
  let t := t.damageAll
  let regionSize := (← sub? t.scrollBottom t.scrollTop) + 1
  let n := min n regionSize
  let t' ← if t.scrollTop = 0 ∧ !t.altActive then t.pushScrollback n else some t
  t'.shiftRowsUp t.scrollTop t.scrollBottom n

/-- SD。 -/
def scrollDownRegion (t : Terminal) (n : Nat) : Option Terminal :=
  t.damageAll.shiftRowsDown t.scrollTop t.scrollBottom n

/-- IL。 -/
def insertLines (t : Terminal) (n : Nat) : Option Terminal :=
  if t.cursor.row < t.scrollTop ∨ t.cursor.row > t.scrollBottom then some t
  else t.damageAll.shiftRowsDown t.cursor.row t.scrollBottom n

/-- DL。 -/
def deleteLines (t : Terminal) (n : Nat) : Option Terminal :=
  if t.cursor.row < t.scrollTop ∨ t.cursor.row > t.scrollBottom then some t
  else t.damageAll.shiftRowsUp t.cursor.row t.scrollBottom n

def newline (t : Terminal) : Option Terminal :=
  if t.cursor.row = t.scrollBottom then t.scrollUpRegion 1
  else do
    let lastRow ← sub? t.rows 1
    if t.cursor.row < lastRow then some (t.setCursorRow (t.cursor.row + 1)) else some t

/-! ## 文字 -/

def sanitizeWideRow (env : Env) (t : Terminal) (r : Nat) : Option Terminal := do
  t.setRow? r (sanitizeWideCells env (← t.cells[r]?))

/-- カーソルの行を `f` で書き換え、全角文字の後始末をする。`f` は列と、`n` を収めた数を受け取る。 -/
def editChars (env : Env) (t : Terminal) (n : Nat) (f : Row → Nat → Nat → Option Row) : Option Terminal :=
  if t.cursor.row ≥ t.rows then some t
  else do
    let col := t.visibleCol
    let regionSize ← sub? t.cols col
    let n := min n regionSize
    if n = 0 then some t
    else do
      let t' ← t.setRow? t.cursor.row (← f (← t.cells[t.cursor.row]?) col n)
      t'.sanitizeWideRow env t.cursor.row

/-- ICH。 -/
def insertChars (env : Env) (t : Terminal) (n : Nat) : Option Terminal :=
  t.editChars env n fun row col n => do
    let row ←
      if n < t.cols - col then do
        let last ← sub? (t.cols - 1) n
        copyDown? row col n (last + 1 - col)
      else some row
    fill? row col t.blank n

/-- DCH。 -/
def deleteChars (env : Env) (t : Terminal) (n : Nat) : Option Terminal :=
  t.editChars env n fun row col n => do
    let row ←
      if n < t.cols - col then do
        let last ← sub? (t.cols - 1) n
        copyUp? row col n (last + 1 - col)
      else some row
    let blankStart := col + (t.cols - col - n)
    fill? row blankStart t.blank (t.cols - blankStart)

/-- ECH。 -/
def eraseChars (env : Env) (t : Terminal) (n : Nat) : Option Terminal :=
  t.editChars env n fun row col n => fill? row col t.blank n

/-- `start..end` のセルを空白にする。`end` は画面の大きさに収める。 -/
def eraseCells (t : Terminal) (start stop : Nat) : Terminal :=
  t.setCells <| t.cells.mapIdx fun r row => row.mapIdx fun c cell =>
    let i := r * t.cols + c
    if start ≤ i ∧ i < stop then t.blank else cell

/-! ## タブストップ -/

/-- `for c in start..start + k` で最初に見つかったタブストップ。 -/
def findTabStop (stops : List Bool) (start : Nat) : Nat → Option (Option Nat)
  | 0 => some none
  | k + 1 => do
    if ← stops[start]? then some (some start) else findTabStop stops (start + 1) k

/-- `for c in (0..k).rev()` で最初に見つかったタブストップ。 -/
def findTabStopBack (stops : List Bool) : Nat → Option (Option Nat)
  | 0 => some none
  | k + 1 => do
    if ← stops[k]? then some (some k) else findTabStopBack stops k

def nextTabStop (t : Terminal) (col : Nat) : Option Nat := do
  return (← findTabStop t.tabStops (col + 1) (t.cols - (col + 1))).getD (t.cols - 1)

def prevTabStop (t : Terminal) (col : Nat) : Option Nat := do
  return (← findTabStopBack t.tabStops col).getD 0

/-- CHT。最後の列に着いたら止まる。 -/
def cursorForwardTab (t : Terminal) : Nat → Option Terminal
  | 0 => some t
  | n + 1 => do
    let next ← t.nextTabStop t.cursor.col
    if next = t.cursor.col then some t else (t.setCursorCol next).cursorForwardTab n

/-- CBT。 -/
def cursorBackwardTab (t : Terminal) : Nat → Option Terminal
  | 0 => some t
  | n + 1 => do
    if t.cursor.col = 0 then some t else (t.setCursorCol (← t.prevTabStop t.cursor.col)).cursorBackwardTab n

def setTabStop (t : Terminal) (stop : Bool) : Option Terminal := do
  return { t with tabStops := ← write? t.tabStops t.visibleCol stop }

def clearTabStops (t : Terminal) : Terminal := { t with tabStops := t.tabStops.map fun _ => false }

end Terminal

section

open Lib (sub? write?)

/-! ## リサイズ -/

def resizeRow (env : Env) (oldCols newCols : Nat) (blank : TermCell) (row : Row) : Row :=
  let row := row.take newCols ++ List.replicate (newCols - row.length) blank
  if newCols < oldCols then sanitizeWideCells env row else row

/-- 上から取り除いた行と、新しい画面。 -/
def resizeGrid (env : Env) (old : Grid) (oldCols oldRows newCols newRows topRemoved : Nat) (blank : TermCell) :
    Option (List Row × Grid) :=
  if newRows < oldRows then
    if topRemoved ≤ old.length then
      some (old.take topRemoved, ((old.drop topRemoved).take newRows).map (resizeRow env oldCols newCols blank))
    else none
  else
    let rows := old ++ List.replicate (newRows - oldRows) (List.replicate oldCols blank)
    some ([], rows.map (resizeRow env oldCols newCols blank))

/-- カーソルの行が新しい画面に収まるように、上から取り除く行数。 -/
def topRemovedFor (oldRows newRows referenceRow : Nat) : Nat := min (referenceRow + 1 - newRows) (oldRows - newRows)

def shiftRow (newRows row removed : Nat) : Nat := if row < removed then 0 else min (row - removed) (newRows - 1)

/-- 折り返し待ちは折り返し待ちへ、それ以外は見えている最後の列までへ写す。 -/
def clampCol (oldCols newCols col : Nat) : Nat := if col ≥ oldCols then newCols else min col (newCols - 1)

def SavedCursor.resize (oldCols newCols newRows removed : Nat) (c : SavedCursor) : SavedCursor :=
  { c with row := shiftRow newRows c.row removed, col := clampCol oldCols newCols c.col }

/-- 新しいスクロール領域。 -/
def resizeMargins (oldRows newRows top bottom : Nat) : Nat × Nat :=
  let maxRow := newRows - 1
  if top = 0 ∧ bottom = oldRows - 1 then (0, maxRow)
  else
    let top := min top maxRow
    let bottom := min bottom maxRow
    if bottom ≤ top then (0, maxRow) else (top, bottom)

def resizeTabStops (oldCols newCols : Nat) (stops : List Bool) : List Bool :=
  (stops.take newCols ++ List.replicate (newCols - stops.length) false).mapIdx fun c stop =>
    if oldCols ≤ c then c % 8 = 0 else stop

namespace Terminal

def mainReferenceRow (t : Terminal) : Nat :=
  if t.altActive then (t.savedCursorMain.map (·.row)).getD 0 else t.cursor.row

def altReferenceRow (t : Terminal) : Nat :=
  if t.altActive then t.cursor.row else (t.savedCursorAlt.map (·.row)).getD 0

def resizePreservingState (env : Env) (t : Terminal) (newCols newRows : Nat) : Option Terminal :=
  let newCols := max newCols 1
  let newRows := max newRows 1
  if newCols = t.cols ∧ newRows = t.rows then some t
  else do
    let mainRemoved := topRemovedFor t.rows newRows t.mainReferenceRow
    let altRemoved := topRemovedFor t.rows newRows t.altReferenceRow
    let (pushed, mainCells) ← resizeGrid env t.mainCells t.cols t.rows newCols newRows mainRemoved t.blank
    let (_, altCells) ← resizeGrid env t.altCells t.cols t.rows newCols newRows altRemoved t.blank
    let (scrollTop, scrollBottom) := resizeMargins t.rows newRows t.scrollTop t.scrollBottom
    let scrolled := { t with
      mainCells
      altCells
      fullDamagePending := true
      pendingScrollback := t.pendingScrollback ++ pushed
      totalScrolledLines := t.totalScrolledLines + pushed.length }.trimPendingScrollback
    return { scrolled with
      cursor := t.cursor.resize t.cols newCols newRows (if t.altActive then altRemoved else mainRemoved)
      savedCursorMain := t.savedCursorMain.map (SavedCursor.resize t.cols newCols newRows mainRemoved)
      savedCursorAlt := t.savedCursorAlt.map (SavedCursor.resize t.cols newCols newRows altRemoved)
      scrollTop
      scrollBottom
      tabStops := resizeTabStops t.cols newCols t.tabStops
      cols := newCols
      rows := newRows }.clearImages

/-! ## main と alt -/

def switchToAlt (t : Terminal) (saveCursor : Bool) : Option Terminal :=
  if t.altActive then some t
  else do
    let scrollBottom ← sub? t.rows 1
    return { t with
      fullDamagePending := true
      savedCursorMain := if saveCursor then some t.cursor else t.savedCursorMain
      altCells := blankGrid (blankCellForTheme t.theme) t.cols t.rows
      altActive := true
      cursor := if saveCursor then .home t.theme else t.cursor
      scrollTop := 0
      scrollBottom
      links := { t.links with activeLinkId := none } }.clearImages

def switchToMain (t : Terminal) (restoreCursor : Bool) : Terminal :=
  if !t.altActive then t
  else
    { t with
      fullDamagePending := true
      altActive := false
      cursor := if restoreCursor then t.savedCursorMain.getD t.cursor else t.cursor
      savedCursorMain := if restoreCursor then none else t.savedCursorMain
      links := { t.links with activeLinkId := none } }.clearImages

/-- DECSC。 -/
def saveCursorDecsc (t : Terminal) : Terminal :=
  if t.altActive then { t with savedCursorAlt := some t.cursor } else { t with savedCursorMain := some t.cursor }

/-- DECRC。保存されていなければ、何もしない。 -/
def restoreCursorDecrc (t : Terminal) : Terminal :=
  match if t.altActive then t.savedCursorAlt else t.savedCursorMain with
  | some saved => { t with cursor := { saved with row := min saved.row (t.rows - 1), col := min saved.col t.cols } }
  | none => t

end Terminal

/-! ## 画像 -/

def sixelCellWidthPx : Nat := 10
def sixelCellHeightPx : Nat := 20
def maxLiveImages : Nat := 32
def maxTotalImageRgbaBytes : Nat := 64 * 1024 * 1024

def totalImageRgbaBytes (images : List ImagePlacement) : Nat := (images.map (·.rgba.length)).sum

namespace Graphics

def forget (g : Graphics) (id : UInt64) : Graphics :=
  { g with
    kittyIdByPlacement := Function.update g.kittyIdByPlacement id none
    kittyPlacementIds := Function.update g.kittyPlacementIds id false }

/-- 個数とバイト数の上限を満たすまで、古い画像から捨てる。 -/
def evict (g : Graphics) : List ImagePlacement → Graphics
  | [] => { g with images := [] }
  | removed :: rest =>
    if (removed :: rest).length > maxLiveImages ∨ totalImageRgbaBytes (removed :: rest) > maxTotalImageRgbaBytes then
      (g.forget removed.id).evict rest
    else { g with images := removed :: rest }

/-- Kitty の画像だけを消す。 -/
def deleteAll (g : Graphics) : Graphics :=
  { g with
    images := g.images.filter fun img => !g.kittyPlacementIds img.id
    kittyIdByPlacement := fun _ => none
    kittyPlacementIds := fun _ => false }

def deleteId (g : Graphics) (kid : Nat) : Graphics :=
  let placements (id : UInt64) : Bool := g.kittyIdByPlacement id = some kid
  { g with
    images := g.images.filter fun img => !placements img.id
    kittyIdByPlacement := fun id => if placements id then none else g.kittyIdByPlacement id
    kittyPlacementIds := fun id => g.kittyPlacementIds id && !placements id }

end Graphics

namespace Terminal

/-- カーソルの位置を左上として画像を置き、その id を返す。 -/
def pushImage (t : Terminal) (width height : Nat) (rgba : List UInt8) : Option (UInt64 × Terminal) := do
  let col := min t.cursor.col (t.cols - 1)
  let row := min t.cursor.row (t.rows - 1)
  let colsSpan := min (max ((width + sixelCellWidthPx - 1) / sixelCellWidthPx) 1) (← sub? t.cols col)
  let rowsSpan := min (max ((height + sixelCellHeightPx - 1) / sixelCellHeightPx) 1) (← sub? t.rows row)
  let id := t.graphics.nextImageId
  let image : ImagePlacement :=
    { id, row := row % 2 ^ 32, col := col % 2 ^ 32, rowsSpan := rowsSpan % 2 ^ 32, colsSpan := colsSpan % 2 ^ 32,
      widthPx := width % 2 ^ 32, heightPx := height % 2 ^ 32, rgba }
  let graphics := { t.graphics with nextImageId := id + 1 }.evict (t.graphics.images ++ [image])
  return (id, { t with graphics }.setCursor (min (row + rowsSpan) (t.rows - 1)) 0)

def placeSixelImage (t : Terminal) (img : SixelImage) : Option Terminal :=
  (t.pushImage img.width img.height img.rgba).map (·.2)

def placeKittyImage (t : Terminal) (img : KittyImage) : Option Terminal := do
  let (id, t) ← t.pushImage img.width img.height img.rgba
  let g := t.graphics
  return { t with graphics := { g with
    kittyPlacementIds := Function.update g.kittyPlacementIds id true
    kittyIdByPlacement := match img.kittyId with
      | some kid => Function.update g.kittyIdByPlacement id (some kid)
      | none => g.kittyIdByPlacement } }

def dispatchKittyApc (env : Env) (t : Terminal) (payload : List UInt8) : Option Terminal :=
  let (command, kitty) := t.graphics.kitty.dispatch env payload
  let t := { t with graphics := { t.graphics with kitty } }
  match command with
  | .place img => t.placeKittyImage img
  | .deleteAll => some { t with graphics := t.graphics.deleteAll }
  | .deleteId kid => some { t with graphics := t.graphics.deleteId kid }
  | .none => some t

/-! ## APC -/

/-- 単位はミリ秒である。 -/
def panelMinUpdateInterval : Nat := 2000

def panelRateLimitAllows (t : Terminal) (now : Nat) : Bool × Terminal :=
  let allowed := match t.host.lastPanelUpdateAt with
    | some last => now - last ≥ panelMinUpdateInterval
    | none => true
  (allowed, if allowed then { t with host := { t.host with lastPanelUpdateAt := some now } } else t)

def setPanelFromAiApc (t : Terminal) (parsed : ParsedPanel) : Terminal :=
  { t with host := { t.host with panelGeneration := saturatingSucc t.host.panelGeneration, panel := some parsed } }

/-- `now` は `Instant::now()` である。 -/
def dispatchApc (env : Env) (t : Terminal) (payload : List UInt8) (now : Nat) : Option Terminal :=
  match env.parseAiPanelApc payload with
  | some parsed =>
    if t.host.panelEnabled then
      let (allowed, t) := t.panelRateLimitAllows now
      some (if allowed then t.setPanelFromAiApc parsed else t)
    else some t
  | none => t.dispatchKittyApc env payload

end Terminal

end

/-!
## 印字

`print_mapped`、`print`、C0 制御文字を定める。折り返しは、次の文字を書く直前に行う。
-/

def maxCombiningBytesPerCell : Nat := 128

/-- UTF-8 の長さ。 -/
def utf8Len (cs : List Char) : Nat := (cs.map Char.utf8Size).sum

def charWidth (env : Env) (c : Char) : Nat := (env.width c).getD 1

namespace Terminal

def cell? (t : Terminal) (r c : Nat) : Option TermCell := do (← t.cells[r]?)[c]?

/-- 幅 0 の文字を、直前の文字のセルへ加える。 -/
def attachCombining (t : Terminal) (c : Char) : Option Terminal :=
  if t.cursor.col = 0 ∨ t.cursor.row ≥ t.rows then some t
  else do
    let attachCol := t.cursor.col - 1
    let onPlaceholder ←
      if attachCol > 0 then (t.cell? t.cursor.row attachCol).map (·.isWidePlaceholder) else some false
    let attachCol := if onPlaceholder then attachCol - 1 else attachCol
    let cell ← t.cell? t.cursor.row attachCol
    if utf8Len cell.ch + c.utf8Size > maxCombiningBytesPerCell then some t
    else t.setCell? t.cursor.row attachCol { cell with ch := cell.ch ++ [c] }

def needsWrap (t : Terminal) (width : Nat) : Bool :=
  t.cursor.col ≥ t.cols || (width = 2 && t.cols > 1 && t.cursor.col + 1 ≥ t.cols)

/-- 書く前の折り返し。DECAWM が無効なら、最後の列に留まる。 -/
def wrap (t : Terminal) (width : Nat) : Option Terminal :=
  if t.needsWrap width then
    if t.modes.autowrapMode then (t.setCursorCol 0).newline else some (t.setCursorCol (t.cols - 1))
  else some t

def hasRoomForPlaceholder (t : Terminal) (width : Nat) : Bool := width = 2 && t.cursor.col + 1 < t.cols

def graphicCell (t : Terminal) (c : Char) : TermCell := { t.cursor.attrs.toCell [c] with linkId := t.links.activeLinkId }

def placeholderCell (t : Terminal) : TermCell :=
  { t.cursor.attrs.toCell [' '] with isWidePlaceholder := true, linkId := t.links.activeLinkId }

/-- 幅のある文字を、カーソルの位置へ書く。 -/
def writeGraphic (env : Env) (t : Terminal) (c : Char) (width : Nat) : Option Terminal :=
  if t.cursor.row < t.rows then do
    let row := t.cursor.row
    let col := t.cursor.col
    let hasRoom := t.hasRoomForPlaceholder width
    let t := { t with lastGraphicCell := some (c, t.cursor.attrs, t.links.activeLinkId) }
    let t ← t.setCell? row col (t.graphicCell c)
    let t ← if hasRoom then t.setCell? row (col + 1) t.placeholderCell else some t
    let t ← if !t.modes.autowrapMode && width = 2 && !hasRoom then t.sanitizeWideRow env row else some t
    let next := col + if hasRoom then 2 else 1
    return t.setCursorCol (if t.modes.autowrapMode then next else min next (t.cols - 1))
  else some t

def printMapped (env : Env) (t : Terminal) (c : Char) : Option Terminal :=
  let width := charWidth env c
  if width = 0 then t.attachCombining c
  else do (← t.wrap width).writeGraphic env c width

/-- GL の文字集合で写した文字。 -/
def mapCharset (t : Terminal) (c : Char) : Char :=
  match if t.cursor.glIsG1 then t.cursor.g1 else t.cursor.g0 with
  | .decSpecialGraphics => decSpecialGraphics c
  | .ascii => c

/-- OSC 133 の出力の取り込み。 -/
def captureChar (t : Terminal) (c : Char) : Terminal :=
  if t.prompt.capturingCommandOutput then
    { t with prompt := { t.prompt with currentOutputLine := t.prompt.currentOutputLine ++ [c] } }
  else t

def captureLine (t : Terminal) : Terminal :=
  if t.prompt.capturingCommandOutput then
    { t with prompt := { t.prompt with
        currentOutputLines := t.prompt.currentOutputLines ++ [t.prompt.currentOutputLine], currentOutputLine := [] } }
  else t

def print (env : Env) (t : Terminal) (c : Char) : Option Terminal :=
  (t.captureChar (t.mapCharset c)).printMapped env (t.mapCharset c)

def execute (t : Terminal) (byte : UInt8) : Option Terminal :=
  if byte = 0x07 then some { t with host := { t.host with bellGeneration := saturatingSucc t.host.bellGeneration } }
  else if byte = 0x0D then some (t.setCursorCol 0)
  else if byte = 0x0A ∨ byte = 0x0B ∨ byte = 0x0C then t.captureLine.newline
  else if byte = 0x08 then some (t.setCursorCol (t.cursor.col - 1))
  else if byte = 0x0E then some { t with cursor := { t.cursor with glIsG1 := true } }
  else if byte = 0x0F then some { t with cursor := { t.cursor with glIsG1 := false } }
  else if byte = 0x09 then (t.nextTabStop t.cursor.col).map t.setCursorCol
  else some t

end Terminal

end IsekaiTerminal.Emulator
