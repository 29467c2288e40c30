import IsekaiTerminal.Emulator.Perform

/-!
# 端末の構造の不変条件

どの状態でも成り立つべき、画面の大きさ、カーソル、余白、リンク、画像の条件を定める。
-/

namespace IsekaiTerminal.Emulator

/-- `rows` 行 `cols` 列の画面。 -/
structure Grid.Shape (cols rows : Nat) (g : Grid) : Prop where
  length : g.length = rows
  width : ∀ row ∈ g, row.length = cols

/-- `col` が `cols` に等しいのは、折り返し待ちである。 -/
structure SavedCursor.Inside (cols rows : Nat) (c : SavedCursor) : Prop where
  row : c.row < rows
  col : c.col ≤ cols

/-- どのセルのリンクも、表の添字である。 -/
def LinksBelow (size : Nat) (rows : List Row) : Prop := ∀ row ∈ rows, ∀ cell ∈ row, ∀ id ∈ cell.linkId, id < size

/-- `linkIds` は `linkTable` のちょうど逆である。 -/
structure Links.WellFormed (l : Links) : Prop where
  active : ∀ id ∈ l.activeLinkId, id < l.linkTable.length
  inverse : ∀ uri id, l.linkIds uri = some id ↔ l.linkTable[id]? = some uri
  cap : l.linkTable.length ≤ maxLinkTable

structure ImagePlacement.Inside (cols rows : Nat) (img : ImagePlacement) : Prop where
  row : img.row < rows
  col : img.col < cols
  bottom : img.row + img.rowsSpan ≤ rows
  right : img.col + img.colsSpan ≤ cols

def Graphics.Live (g : Graphics) (id : UInt64) : Prop := ∃ img ∈ g.images, img.id = id

structure Graphics.WellFormed (cols rows : Nat) (g : Graphics) : Prop where
  inside : ∀ img ∈ g.images, img.Inside cols rows
  count : g.images.length ≤ maxLiveImages
  bytes : totalImageRgbaBytes g.images ≤ maxTotalImageRgbaBytes
  idsLive : ∀ id, g.kittyIdByPlacement id ≠ none → g.Live id
  placementsLive : ∀ id, g.kittyPlacementIds id = true → g.Live id

structure Terminal.WellFormed (t : Terminal) : Prop where
  cols : 1 ≤ t.cols
  rows : 1 ≤ t.rows
  main : t.mainCells.Shape t.cols t.rows
  alt : t.altCells.Shape t.cols t.rows
  cursor : t.cursor.Inside t.cols t.rows
  savedMain : ∀ c ∈ t.savedCursorMain, c.Inside t.cols t.rows
  savedAlt : ∀ c ∈ t.savedCursorAlt, c.Inside t.cols t.rows
  top : t.scrollTop ≤ t.scrollBottom
  bottom : t.scrollBottom < t.rows
  tabStops : t.tabStops.length = t.cols
  links : t.links.WellFormed
  mainLinks : LinksBelow t.links.linkTable.length t.mainCells
  altLinks : LinksBelow t.links.linkTable.length t.altCells
  scrollbackLinks : LinksBelow t.links.linkTable.length t.pendingScrollback
  graphicLink : ∀ cell ∈ t.lastGraphicCell, ∀ id ∈ cell.2.2, id < t.links.linkTable.length
  graphics : t.graphics.WellFormed t.cols t.rows

/-!
## 全角文字の組

幅 2 の文字は、本体のセルとその右の占有のセルの組で表す。組の対応と、それを分断する遷移を定める。
-/

/-! ## 対応 -/

/-- 幅 2 の文字の本体である。 -/
def isWideHead (env : Env) (cell : TermCell) : Bool := !cell.isWidePlaceholder && cellDisplayWidth env cell = 2

/-- `sanitize_wide_row` が述べる対応。 -/
structure PairedRow (env : Env) (row : Row) : Prop where
  /-- 占有のセルであるのは、左のセルが本体であるときに限る。 -/
  placeholder : ∀ c cell, row[c]? = some cell →
    (cell.isWidePlaceholder = true ↔ 0 < c ∧ ∃ left, row[c - 1]? = some left ∧ isWideHead env left = true)
  /-- 最後の列でない本体の右は、占有のセルである。 -/
  head : ∀ c cell, row[c]? = some cell → isWideHead env cell = true → c + 1 < row.length →
    ∃ right, row[c + 1]? = some right ∧ right.isWidePlaceholder = true

/-- 2 つの画面のどの行でも、対応が成り立つ。 -/
structure Terminal.Paired (env : Env) (t : Terminal) : Prop where
  main : ∀ row ∈ t.mainCells, PairedRow env row
  alt : ∀ row ∈ t.altCells, PairedRow env row

/-! ## 分断 -/

namespace Terminal

def placeholderAt (t : Terminal) (row col : Nat) : Bool := (t.cell? row col).any (·.isWidePlaceholder)

/-- 書くセルの左端か、その右隣が、組の右半分である。DECAWM が無効で占有のセルを置けないときは、行の後始末が続く。 -/
def writeSplits (t : Terminal) (width : Nat) : Bool :=
  let hasRoom := t.hasRoomForPlaceholder width
  !(!t.modes.autowrapMode && width = 2 && !hasRoom) &&
    (t.placeholderAt t.cursor.row t.cursor.col ||
      t.placeholderAt t.cursor.row (t.cursor.col + if hasRoom then 2 else 1))

def printSplits (env : Env) (t : Terminal) (c : Char) : Bool :=
  charWidth env c ≠ 0 && (t.wrap (charWidth env c)).any fun u => u.writeSplits (charWidth env c)

/-- REP の途中の印字が、組を分断する。 -/
def repeatSplits (env : Env) (t : Terminal) (n : Nat) : Bool :=
  match t.lastGraphicCell with
  | some (c, attrs, linkId) =>
    (List.range (min n (max (t.cols * t.rows) 1))).any fun k =>
      (printTimes env c k ((t.setAttrs attrs).setActiveLink linkId)).any fun u => u.printSplits env c
  | none => false

/-- ED と EL の、カーソルの側の境界が組を分断する。 -/
def eraseSplits (t : Terminal) (p0 : UInt16) : Bool :=
  if p0 = 0 then t.placeholderAt t.cursor.row t.visibleCol
  else p0 = 1 && t.placeholderAt t.cursor.row (t.visibleCol + 1)

/-- 組を分断したまま、後始末をしない遷移。 -/
def splitsPair (env : Env) (t : Terminal) : Event → Bool
  | .print c => (t.captureChar (t.mapCharset c)).printSplits env (t.mapCharset c)
  | .csiDispatch params intermediates action =>
    let p0 := (params.map (·.head))[0]?.getD 0
    intermediates.head? ≠ some 0x3f &&
      (((action = 'J' || action = 'K') && t.eraseSplits p0) || (action = 'b' && t.repeatSplits env (max p0.toNat 1)))
  | _ => false

/-- 列が 2 より少なくなるリサイズ。 -/
def narrows : Event → Bool
  | .resize cols _ => cols < 2
  | _ => false

/-- どの遷移も組を分断せず、列を 2 より少なくしない実行。 -/
def KeepsPairs (env : Env) : Terminal → List Event → Prop
  | _, [] => True
  | t, ev :: events => t.splitsPair env ev = false ∧ narrows ev = false ∧ ∀ t', t.step env ev = some t' → KeepsPairs env t' events

end Terminal

/-!
## 限りのないページ

幅 1 の文字、CR、LF だけの出力について、限りのないページへの書き込みを定める。
端末の側は、バッチごとに `take_scrollback` と `dispatch_result` の履歴の更新を行う。
-/

inductive PlainOp
  | char (c : Char)
  | cr
  | lf
deriving DecidableEq

def PlainOp.event : PlainOp → Event
  | .char c => .print c
  | .cr => .execute 0x0D
  | .lf => .execute 0x0A

/-! ## ページ -/

/-- まだ書いていない行は空白である。 -/
structure Page where
  rows : Nat → Row
  row : Nat
  col : Nat

namespace Page

def new (cols : Nat) (theme : Theme) : Page :=
  { rows := fun _ => List.replicate cols (blankCellForTheme theme), row := 0, col := 0 }

/-- 列が `cols` に等しいとき、次の行へ折り返してから書く。 -/
def write (cols : Nat) (theme : Theme) (p : Page) (c : Char) : Page :=
  let (row, col) := if p.col = cols then (p.row + 1, 0) else (p.row, p.col)
  { rows := Function.update p.rows row ((p.rows row).set col ((TermAttrs.defaultFor theme).toCell [c])), row,
    col := col + 1 }

def apply (cols : Nat) (theme : Theme) (p : Page) : PlainOp → Page
  | .char c => p.write cols theme c
  | .cr => { p with col := 0 }
  | .lf => { p with row := p.row + 1 }

def run (cols : Nat) (theme : Theme) (ops : List PlainOp) : Page := ops.foldl (apply cols theme) (new cols theme)

/-- 行 `t` の手前の行を、新しい順に `k` 行。 -/
def newest (p : Page) (t k : Nat) : List Row := (List.range k).map fun i => p.rows (t - 1 - i)

end Page

/-! ## バッチ -/

/-- `dispatch_result` の履歴の更新。新しい行が先頭である。 -/
def updateScrollback (scrollback pendingRows : List Row) : List Row :=
  if pendingRows.isEmpty then scrollback
  else
    let sb := pendingRows.foldl (fun sb row => row :: sb) scrollback
    let overflow := sb.length - scrollbackLimit
    sb.take (sb.length - overflow)

/-- 1 つのバッチを処理し、送り出した行を履歴へ移す。 -/
def runBatch (env : Env) (s : Terminal × List Row) (batch : List PlainOp) : Option (Terminal × List Row) := do
  let t ← s.1.exec env (batch.map PlainOp.event)
  let (pendingRows, t) := t.takeScrollback
  return (t, updateScrollback s.2 pendingRows)

def runBatches (env : Env) (s : Terminal × List Row) (batches : List (List PlainOp)) : Option (Terminal × List Row) :=
  batches.foldlM (runBatch env) s

/-!
## alt の画面の隔離

alt の画面を出た後の main の画面と、リサイズだけを行った main の画面との違いを定める。リサイズは、足りないセルを今の属性の
空白で補うので、補った余白のセルだけは属性が異なり得る。
-/

/-! ## 操作の列 -/

namespace Event

/-- `CSI ?1049h`。 -/
def enterAlt : Event := .csiDispatch [⟨1049, []⟩] [0x3f] 'h'

/-- `CSI ?1049l`。 -/
def leaveAlt : Event := .csiDispatch [⟨1049, []⟩] [0x3f] 'l'

/-- main の画面へ戻るシーケンス。 -/
def isAltExit : Event → Bool
  | .csiDispatch params intermediates action =>
    action = 'l' && intermediates.head? = some 0x3f && params.any fun p => p.head = 47 || p.head = 1047 || p.head = 1049
  | _ => false

def isReset : Event → Bool
  | .escDispatch ints byte => ints = [] && byte = 0x63
  | _ => false

def isResize : Event → Bool
  | .resize _ _ => true
  | _ => false

end Event

/-! ## 余白のセル -/

/-- main の画面と `pending_scrollback` の行ごとの、余白でないセルの数。余白は行の右に続く。 -/
structure Kept where
  cells : List Nat
  pushed : List Nat
deriving DecidableEq

/-- 下に補う行は、すべて余白である。 -/
def Kept.resized (k : Kept) (oldRows newCols newRows removed : Nat) : Kept :=
  let pushed := k.pushed ++ k.cells.take removed
  { cells := ((k.cells.drop removed).take newRows ++ List.replicate (newRows - oldRows) 0).map fun n => min newCols n
    pushed := if pushed.length > 2 * scrollbackLimit then pushed.drop (pushed.length - scrollbackLimit) else pushed }

namespace Terminal

/-- まだ余白のない画面。 -/
def kept (t : Terminal) : Kept := ⟨t.mainCells.map List.length, t.pendingScrollback.map List.length⟩

def keptBy (t : Terminal) (k : Kept) : Event → Kept
  | .resize newCols newRows =>
    let newCols := max newCols 1
    let newRows := max newRows 1
    if newCols = t.cols ∧ newRows = t.rows then k
    else k.resized t.rows newCols newRows (topRemovedFor t.rows newRows t.mainReferenceRow)
  | _ => k

/-- リサイズだけの実行 `events` の後の、余白でないセルの数。 -/
def keptAfter (env : Env) : Terminal → Kept → List Event → Kept
  | _, k, [] => k
  | t, k, ev :: events =>
    match t.step env ev with
    | some t' => keptAfter env t' (t.keptBy k ev) events
    | none => k

end Terminal

/-! ## 余白の属性を除いた一致 -/

/-- 属性 `attrs` の空白から成る余白。 -/
def padding (attrs : List TermAttrs) : Row := attrs.map fun a => a.toCell [' ']

/-- 先頭の `k` セルは等しく、残りはどちらも余白である。 -/
def RowMatch (k : Nat) (row row' : Row) : Prop :=
  ∃ (kept : Row) (attrs attrs' : List TermAttrs), kept.length = k ∧ attrs.length = attrs'.length ∧
    row = kept ++ padding attrs ∧ row' = kept ++ padding attrs'

inductive RowsMatch : List Nat → List Row → List Row → Prop
  | nil : RowsMatch [] [] []
  | cons {k : Nat} {ks : List Nat} {row row' : Row} {rows rows' : List Row} (row_match : RowMatch k row row')
      (rows_match : RowsMatch ks rows rows') : RowsMatch (k :: ks) (row :: rows) (row' :: rows')

def chars (rows : List Row) : List (List (List Char)) := rows.map fun row => row.map (·.ch)

/-- `t` と `u` の main の画面は、余白の属性を除いて同じである。 -/
structure Terminal.SameMain (k : Kept) (t u : Terminal) : Prop where
  main : t.altActive = false ∧ u.altActive = false
  chars : chars t.mainCells = chars u.mainCells
  cells : RowsMatch k.cells t.mainCells u.mainCells
  cursor : t.cursor = u.cursor
  scrollback : RowsMatch k.pushed t.pendingScrollback u.pendingScrollback
  total : t.totalScrolledLines = u.totalScrolledLines

/-! ## 履歴の間引き -/

/-- 間引いた後の `pending_scrollback`。 -/
def trimmed (rows : List Row) : List Row :=
  if rows.length > 2 * scrollbackLimit then rows.drop (rows.length - scrollbackLimit) else rows

end IsekaiTerminal.Emulator
