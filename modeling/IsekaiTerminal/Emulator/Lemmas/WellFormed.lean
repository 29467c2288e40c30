import IsekaiTerminal.Lib.Checked
import IsekaiTerminal.Emulator.WellFormed

/-!
# 変化は構造の不変条件を保つ
-/

namespace IsekaiTerminal.Emulator

open Lib

/-!
## 行と文字の操作の結果

画面の大きさが保たれているとき、ずらす操作は panic せず、区間のずらしに等しい。
-/

namespace Terminal

/-! ## 画面の読み書き -/

@[simp] theorem cells_setCells (t : Terminal) (g : Grid) : (t.setCells g).cells = g := by
  unfold setCells cells; split <;> simp_all

@[simp] theorem setCells_setCells (t : Terminal) (g : Grid) : (t.setCells g).setCells = t.setCells := by
  funext g'
  unfold setCells; split <;> simp_all

@[simp] theorem setCells_cells (t : Terminal) : t.setCells t.cells = t := by
  unfold setCells cells; split <;> rfl

section

variable (t : Terminal) (g : Grid)

@[simp] theorem setCells_cols : (t.setCells g).cols = t.cols := by unfold setCells; split <;> rfl
@[simp] theorem setCells_rows : (t.setCells g).rows = t.rows := by unfold setCells; split <;> rfl
@[simp] theorem setCells_cursor : (t.setCells g).cursor = t.cursor := by unfold setCells; split <;> rfl
@[simp] theorem setCells_blank : (t.setCells g).blank = t.blank := by unfold setCells; split <;> rfl
@[simp] theorem setCells_blankRow : (t.setCells g).blankRow = t.blankRow := by unfold setCells; split <;> rfl
@[simp] theorem setCells_modes : (t.setCells g).modes = t.modes := by unfold setCells; split <;> rfl
@[simp] theorem setCells_links : (t.setCells g).links = t.links := by unfold setCells; split <;> rfl
@[simp] theorem setCells_altActive : (t.setCells g).altActive = t.altActive := by unfold setCells; split <;> rfl

end

@[simp] theorem damageAll_cells (t : Terminal) : t.damageAll.cells = t.cells := rfl
@[simp] theorem damageAll_rows (t : Terminal) : t.damageAll.rows = t.rows := rfl
@[simp] theorem damageAll_cols (t : Terminal) : t.damageAll.cols = t.cols := rfl
@[simp] theorem damageAll_blankRow (t : Terminal) : t.damageAll.blankRow = t.blankRow := rfl

/-! ## 行 -/

variable {t : Terminal} {top bot n : Nat}

theorem shiftRowsUp_eq (htop : top ≤ bot) (hbot : bot < t.rows) (hlen : t.cells.length = t.rows) (n : Nat) :
    t.shiftRowsUp top bot n = some (t.setCells (onRegion (Lib.shiftUp n t.blankRow) top (bot + 1) t.cells)) := by
  have hguard : ¬(top > bot ∨ bot ≥ t.rows) := by omega
  have hstop : bot + 1 = top + (bot - top + 1) := by omega
  have hshift := shiftUp?_eq t.cells top (bot - top + 1) (by omega) n t.blankRow
  simp only [shiftRowsUp, hguard, ↓reduceIte, Option.bind_eq_bind]
  generalize hm : min n (bot - top + 1) = m at hshift ⊢
  have hle : m ≤ bot - top + 1 := by omega
  by_cases hzero : m = 0
  · have hn : n = 0 := by omega
    rw [if_pos hzero, hn, onRegion_eq_self (by omega) fun _ => shiftUp_zero .., setCells_cells]
  · rw [hstop, ← Option.map_some, ← hshift]
    by_cases hlt : m < bot - top + 1
    · have hcount : bot - m + 1 - top = bot - top + 1 - m := by omega
      simp only [hlt, hzero, ↓reduceIte, sub?_eq_some (show m ≤ bot by omega), Option.bind_some, hcount, blankRows]
      cases copyUp? t.cells top m (bot - top + 1 - m) with
      | none => rfl
      | some l => simp
    · simp [hlt, hzero, blankRows]

theorem shiftRowsDown_eq (htop : top ≤ bot) (hbot : bot < t.rows) (hlen : t.cells.length = t.rows) (n : Nat) :
    t.shiftRowsDown top bot n = some (t.setCells (onRegion (Lib.shiftDown n t.blankRow) top (bot + 1) t.cells)) := by
  have hguard : ¬(top > bot ∨ bot ≥ t.rows) := by omega
  have hstop : bot + 1 = top + (bot - top + 1) := by omega
  have hshift := shiftDown?_eq t.cells top (bot - top + 1) (by omega) n t.blankRow
  simp only [shiftRowsDown, hguard, ↓reduceIte, Option.bind_eq_bind]
  generalize hm : min n (bot - top + 1) = m at hshift ⊢
  have hle : m ≤ bot - top + 1 := by omega
  by_cases hzero : m = 0
  · have hn : n = 0 := by omega
    rw [if_pos hzero, hn, onRegion_eq_self (by omega) fun _ => shiftDown_zero .., setCells_cells]
  · rw [hstop, ← Option.map_some, ← hshift]
    by_cases hlt : m < bot - top + 1
    · have hcount : bot - m + 1 - top = bot - top + 1 - m := by omega
      simp only [hlt, hzero, ↓reduceIte, sub?_eq_some (show m ≤ bot by omega), Option.bind_some, hcount, blankRows]
      cases copyDown? t.cells top m (bot - top + 1 - m) with
      | none => rfl
      | some l => simp
    · simp [hlt, hzero, blankRows]

/-! ## 文字 -/

theorem setRow?_eq {r : Nat} (h : r < t.cells.length) (row : Row) :
    t.setRow? r row = some (t.setCells (t.cells.set r row)) := by
  rw [setRow?, write?_eq_some h, Option.map_some]

theorem sanitizeWideRow_eq {env : Env} {r : Nat} {row : Row} (h : t.cells[r]? = some row) :
    t.sanitizeWideRow env r = some (t.setCells (t.cells.set r (sanitizeWideCells env row))) := by
  have hlt : r < t.cells.length := (List.getElem?_eq_some_iff.mp h).1
  rw [sanitizeWideRow, h]
  exact setRow?_eq hlt _

theorem editChars_eq {env : Env} {row row' : Row} {f : Row → Nat → Nat → Option Row}
    (hrow : t.cells[t.cursor.row]? = some row) (hlen : t.cells.length = t.rows) (hcols : 1 ≤ t.cols) (hn : 0 < n)
    (hf : f row t.visibleCol (min n (t.cols - t.visibleCol)) = some row') :
    t.editChars env n f = some (t.setCells (t.cells.set t.cursor.row (sanitizeWideCells env row'))) := by
  have hlt : t.cursor.row < t.cells.length := (List.getElem?_eq_some_iff.mp hrow).1
  have hcol : t.visibleCol ≤ t.cols - 1 := Nat.min_le_right ..
  have hmin : min n (t.cols - t.visibleCol) ≠ 0 := by omega
  have hread : (t.setCells (t.cells.set t.cursor.row row')).cells[t.cursor.row]? = some row' := by
    simp [List.getElem?_set_self hlt]
  simp only [editChars, show ¬t.cursor.row ≥ t.rows by omega, ↓reduceIte, Option.bind_eq_bind, Option.bind_some,
    sub?_eq_some (show t.visibleCol ≤ t.cols by omega), hmin, hrow, hf, setRow?_eq hlt, sanitizeWideRow_eq hread]
  simp

section

variable {env : Env} {row : Row} (hrow : t.cells[t.cursor.row]? = some row) (hshape : t.cells.Shape t.cols t.rows)
  (hcols : 1 ≤ t.cols) (hn : 0 < n)
include hrow hshape hcols hn

theorem insertChars_eq : t.insertChars env n = some (t.setCells (t.cells.set t.cursor.row
    (sanitizeWideCells env (onRegion (Lib.shiftDown n t.blank) t.visibleCol t.cols row)))) := by
  have hwidth : row.length = t.cols := hshape.width row (List.mem_of_getElem? hrow)
  have hcol : t.visibleCol ≤ t.cols - 1 := Nat.min_le_right ..
  have hshift := shiftDown?_eq row t.visibleCol (t.cols - t.visibleCol) (by omega) n t.blank
  rw [Nat.add_sub_cancel' (by omega)] at hshift
  refine editChars_eq hrow hshape.length hcols hn ?_
  rw [← hshift]
  generalize min n (t.cols - t.visibleCol) = m
  by_cases hlt : m < t.cols - t.visibleCol
  · simp [hlt, sub?_eq_some (show m ≤ t.cols - 1 by omega),
      show t.cols - 1 - m + 1 - t.visibleCol = t.cols - t.visibleCol - m by omega]
  · simp [hlt]

theorem deleteChars_eq : t.deleteChars env n = some (t.setCells (t.cells.set t.cursor.row
    (sanitizeWideCells env (onRegion (Lib.shiftUp n t.blank) t.visibleCol t.cols row)))) := by
  have hwidth : row.length = t.cols := hshape.width row (List.mem_of_getElem? hrow)
  have hcol : t.visibleCol ≤ t.cols - 1 := Nat.min_le_right ..
  have hshift := shiftUp?_eq row t.visibleCol (t.cols - t.visibleCol) (by omega) n t.blank
  rw [Nat.add_sub_cancel' (by omega)] at hshift
  refine editChars_eq hrow hshape.length hcols hn ?_
  rw [← hshift]
  generalize hm : min n (t.cols - t.visibleCol) = m
  have hrest : t.cols - (t.visibleCol + (t.cols - t.visibleCol - m)) = m := by omega
  by_cases hlt : m < t.cols - t.visibleCol
  · simp [hlt, hrest, sub?_eq_some (show m ≤ t.cols - 1 by omega),
      show t.cols - 1 - m + 1 - t.visibleCol = t.cols - t.visibleCol - m by omega]
  · simp [hlt, hrest]

theorem eraseChars_eq : t.eraseChars env n = some (t.setCells (t.cells.set t.cursor.row
    (sanitizeWideCells env (onRegion (fun m => List.replicate m.length t.blank) t.visibleCol
      (t.visibleCol + min n (t.cols - t.visibleCol)) row)))) := by
  have hwidth : row.length = t.cols := hshape.width row (List.mem_of_getElem? hrow)
  have hcol : t.visibleCol ≤ t.cols - 1 := Nat.min_le_right ..
  exact editChars_eq hrow hshape.length hcols hn (fill?_eq_onRegion (by omega) t.blank)

end

end Terminal

/-!
## 端末の変化

どの操作も、ここに挙げる変化の列である。変化は、操作の結果を閉じた形で述べる。
-/

/-! ## 操作の結果 -/

namespace Terminal

theorem trimPendingScrollback_eq (t : Terminal) :
    t.trimPendingScrollback = { t with pendingScrollback := trimmed t.pendingScrollback } := by
  by_cases h : t.pendingScrollback.length > 2 * scrollbackLimit
  · simp only [trimPendingScrollback, trimmed, h, ↓reduceIte]
  · simp only [trimPendingScrollback, trimmed, h, ↓reduceIte]

/-- 履歴へ送る行数。 -/
def scrolledRows (t : Terminal) (n : Nat) : Nat := min n (t.scrollBottom - t.scrollTop + 1)

/-- `main_cells` の上から `k` 行を履歴へ送った結果。 -/
def pushedRows (t : Terminal) (k : Nat) : Terminal :=
  { t with
    pendingScrollback := t.pendingScrollback ++ t.mainCells.take k
    totalScrolledLines := t.totalScrolledLines + k }.trimPendingScrollback

def linesUp (t : Terminal) (top n : Nat) : Terminal :=
  t.damageAll.setCells (onRegion (shiftUp n t.blankRow) top (t.scrollBottom + 1) t.cells)

def linesDown (t : Terminal) (top n : Nat) : Terminal :=
  t.damageAll.setCells (onRegion (shiftDown n t.blankRow) top (t.scrollBottom + 1) t.cells)

/-- main の画面の一番上から送り出すときだけ、行を履歴に残す。 -/
def scrolledUp (t : Terminal) (n : Nat) : Terminal :=
  if t.scrollTop = 0 ∧ t.altActive = false then (t.pushedRows (t.scrolledRows n)).linesUp t.scrollTop (t.scrolledRows n)
  else t.linesUp t.scrollTop (t.scrolledRows n)

def editedRow (env : Env) (t : Terminal) (row : Row) : Terminal :=
  t.setCells (t.cells.set t.cursor.row (sanitizeWideCells env row))

/-- `writeGraphic` の後のカーソルの行。 -/
def writtenRow (env : Env) (t : Terminal) (c : Char) (width : Nat) (row : Row) : Row :=
  let hasRoom := t.hasRoomForPlaceholder width
  let row := row.set t.cursor.col (t.graphicCell c)
  let row := if hasRoom then row.set (t.cursor.col + 1) t.placeholderCell else row
  if !t.modes.autowrapMode && width = 2 && !hasRoom then sanitizeWideCells env row else row

def writtenCol (t : Terminal) (width : Nat) : Nat :=
  let next := t.cursor.col + if t.hasRoomForPlaceholder width then 2 else 1
  if t.modes.autowrapMode then next else min next (t.cols - 1)

def written (env : Env) (t : Terminal) (c : Char) (width : Nat) (row : Row) : Terminal :=
  ({ t with lastGraphicCell := some (c, t.cursor.attrs, t.links.activeLinkId) }.setCells
    (t.cells.set t.cursor.row (t.writtenRow env c width row))).setCursorCol (t.writtenCol width)

/-- 列 `col` のセルに、幅 0 の文字を加えた結果。 -/
def combined (t : Terminal) (row : Row) (col : Nat) (cell : TermCell) (c : Char) : Terminal :=
  t.setCells (t.cells.set t.cursor.row (row.set col { cell with ch := cell.ch ++ [c] }))

end Terminal

/-- 上から `topRemoved` 行を除き、下を空白の行で補う。 -/
def resizedGrid (env : Env) (old : Grid) (oldCols oldRows newCols newRows topRemoved : Nat) (blank : TermCell) : Grid :=
  ((old.drop topRemoved).take newRows ++ List.replicate (newRows - oldRows) (List.replicate oldCols blank)).map
    (resizeRow env oldCols newCols blank)

namespace Terminal

def mainRemoved (t : Terminal) (newRows : Nat) : Nat := topRemovedFor t.rows newRows t.mainReferenceRow

def altRemoved (t : Terminal) (newRows : Nat) : Nat := topRemovedFor t.rows newRows t.altReferenceRow

/-- 行を履歴へ送り、2 つの画面を作り直した結果。 -/
def resizedCells (env : Env) (t : Terminal) (newCols newRows : Nat) : Terminal :=
  { t with
    mainCells := resizedGrid env t.mainCells t.cols t.rows newCols newRows (t.mainRemoved newRows) t.blank
    altCells := resizedGrid env t.altCells t.cols t.rows newCols newRows (t.altRemoved newRows) t.blank
    fullDamagePending := true
    pendingScrollback := t.pendingScrollback ++ t.mainCells.take (t.mainRemoved newRows)
    totalScrolledLines := t.totalScrolledLines + t.mainRemoved newRows }.trimPendingScrollback

/-- 大きさの変わるリサイズの結果。 -/
def resized (env : Env) (t : Terminal) (newCols newRows : Nat) : Terminal :=
  let margins := resizeMargins t.rows newRows t.scrollTop t.scrollBottom
  { t.resizedCells env newCols newRows with
    cursor := t.cursor.resize t.cols newCols newRows (if t.altActive then t.altRemoved newRows else t.mainRemoved newRows)
    savedCursorMain := t.savedCursorMain.map (SavedCursor.resize t.cols newCols newRows (t.mainRemoved newRows))
    savedCursorAlt := t.savedCursorAlt.map (SavedCursor.resize t.cols newCols newRows (t.altRemoved newRows))
    scrollTop := margins.1
    scrollBottom := margins.2
    tabStops := resizeTabStops t.cols newCols t.tabStops
    cols := newCols
    rows := newRows }.clearImages

end Terminal

/-! ## 変化 -/

inductive Kind
  | control
  | link
  | save
  | margins
  | scroll
  | lines
  | edit
  | erase
  | write
  | combine
  | toAlt
  | toMain
  | reset
  | graphics
  | resize
deriving DecidableEq

inductive Change (env : Env) : Kind → Terminal → Terminal → Prop
  /-- 画面の外の欄とカーソル。 -/
  | control {t : Terminal} (theme : Theme) (modes : Modes) (prompt : Prompt) (host : Host) (tabStops : List Bool)
      (cursor : SavedCursor) (stops : tabStops.length = t.tabStops.length) (inside : cursor.Inside t.cols t.rows) :
      Change env .control t { t with theme, modes, prompt, host, tabStops, cursor }
  | setLink {t : Terminal} (uri : Option (List Char)) :
      Change env .link t { t with links := t.links.setActive uri }
  | activeLink {t : Terminal} (id : Option Nat) (below : ∀ i ∈ id, i < t.links.linkTable.length) :
      Change env .link t (t.setActiveLink id)
  | save {t : Terminal} : Change env .save t t.saveCursorDecsc
  | margins {t : Terminal} (scrollTop scrollBottom : Nat) (top : scrollTop ≤ scrollBottom)
      (bottom : scrollBottom < t.rows) : Change env .margins t { t with scrollTop, scrollBottom }
  | scroll {t : Terminal} (n : Nat) : Change env .scroll t (t.scrolledUp n)
  | linesUp {t : Terminal} (top n : Nat) (region : top ≤ t.scrollBottom) : Change env .lines t (t.linesUp top n)
  | linesDown {t : Terminal} (top n : Nat) (region : top ≤ t.scrollBottom) : Change env .lines t (t.linesDown top n)
  | edit {t : Terminal} (row row' : Row) (old : t.cells[t.cursor.row]? = some row) (length : row'.length = row.length)
      (mem : ∀ cell ∈ row', cell ∈ row ∨ cell = t.blank) : Change env .edit t (t.editedRow env row')
  | erase {t : Terminal} (start stop : Nat) : Change env .erase t (t.eraseCells start stop)
  | write {t : Terminal} (c : Char) (row : Row) (old : t.cells[t.cursor.row]? = some row)
      (col : t.cursor.col < t.cols) : Change env .write t (t.written env c (charWidth env c) row)
  | combine {t : Terminal} (c : Char) (row : Row) (col : Nat) (cell : TermCell) (zero : charWidth env c = 0)
      (old : t.cells[t.cursor.row]? = some row) (oldCell : row[col]? = some cell)
      (head : cell.isWidePlaceholder = true → col = 0 ∨ ∃ right, row[col + 1]? = some right ∧ right.isWidePlaceholder) :
      Change env .combine t (t.combined row col cell c)
  | toAlt {t t' : Terminal} (saveCursor : Bool) (switch : t.switchToAlt saveCursor = some t') : Change env .toAlt t t'
  | toMain {t : Terminal} (restoreCursor : Bool) : Change env .toMain t (t.switchToMain restoreCursor)
  | reset {t : Terminal} : Change env .reset t t.resetAll
  | graphics {t : Terminal} (graphics : Graphics) (wellFormed : graphics.WellFormed t.cols t.rows) :
      Change env .graphics t { t with graphics }
  | resize {t : Terminal} (cols rows : Nat) (positive : 1 ≤ cols ∧ 1 ≤ rows) :
      Change env .resize t (t.resized env cols rows)

/-- 種類が `S` に入る変化の列。 -/
def Runs (env : Env) (S : Kind → Prop) : Terminal → Terminal → Prop :=
  Relation.ReflTransGen fun t t' => ∃ k, S k ∧ Change env k t t'

/-- 操作は panic せず、`S` の変化の列で終わる。 -/
def Reaches (env : Env) (S : Kind → Prop) (t : Terminal) (result : Option Terminal) : Prop :=
  ∃ t', result = some t' ∧ Runs env S t t'

/-! ## 画面の大きさ -/

namespace Grid.Shape

variable {cols rows : Nat} {g : Grid}

theorem of_mem {g' : Grid} (h : g.Shape cols rows) (hlen : g'.length = g.length)
    (hmem : ∀ row ∈ g', row ∈ g ∨ row.length = cols) : g'.Shape cols rows := by
  refine ⟨hlen.trans h.length, fun row hrow => ?_⟩
  rcases hmem row hrow with hold | hnew
  · exact h.width row hold
  · exact hnew

theorem set (h : g.Shape cols rows) {r : Nat} {row : Row} (hrow : row.length = cols) : Shape cols rows (g.set r row) := by
  refine h.of_mem List.length_set fun row' hrow' => ?_
  rcases List.mem_or_eq_of_mem_set hrow' with hold | heq
  · exact .inl hold
  · exact .inr (by rw [heq, hrow])

theorem length_flatten (h : g.Shape cols rows) : g.flatten.length = cols * rows := by
  rw [List.length_flatten, List.map_congr_left h.width, List.map_const', List.sum_replicate, h.length, smul_eq_mul,
    Nat.mul_comm]

end Grid.Shape

theorem blankGrid_shape (blank : TermCell) (cols rows : Nat) : (blankGrid blank cols rows).Shape cols rows :=
  ⟨List.length_replicate, fun row hrow => by rw [List.eq_of_mem_replicate hrow, List.length_replicate]⟩

/-! ## リンク -/

namespace LinksBelow

variable {size : Nat} {rows rows' : List Row}

theorem mono {size' : Nat} (h : LinksBelow size rows) (hle : size ≤ size') : LinksBelow size' rows :=
  fun row hrow cell hcell id hid => Nat.lt_of_lt_of_le (h row hrow cell hcell id hid) hle

theorem of_mem (h : LinksBelow size rows)
    (hmem : ∀ row ∈ rows', row ∈ rows ∨ ∀ cell ∈ row, ∀ id ∈ cell.linkId, id < size) : LinksBelow size rows' := by
  intro row hrow
  rcases hmem row hrow with hold | hnew
  · exact h row hold
  · exact hnew

theorem append (h : LinksBelow size rows) (h' : LinksBelow size rows') : LinksBelow size (rows ++ rows') := by
  intro row hrow
  rcases List.mem_append.mp hrow with hrow | hrow
  · exact h row hrow
  · exact h' row hrow

theorem set (h : LinksBelow size rows) {r : Nat} {row : Row} (hrow : ∀ cell ∈ row, ∀ id ∈ cell.linkId, id < size) :
    LinksBelow size (rows.set r row) := by
  refine h.of_mem fun row' hrow' => ?_
  rcases List.mem_or_eq_of_mem_set hrow' with hold | heq
  · exact .inl hold
  · exact .inr (heq ▸ hrow)

end LinksBelow

theorem linksBelow_replicate {size k cols : Nat} {blank : TermCell} (h : blank.linkId = none) :
    ∀ row ∈ List.replicate k (List.replicate cols blank), ∀ cell ∈ row, ∀ id ∈ cell.linkId, id < size := by
  intro row hrow cell hcell id hid
  rw [List.eq_of_mem_replicate hrow] at hcell
  rw [List.eq_of_mem_replicate hcell, h] at hid
  cases hid

/-! ## 全角文字の後始末 -/

theorem length_sanitizeFrom (env : Env) (left : Option TermCell) (row : Row) :
    (sanitizeFrom env left row).length = row.length := by
  induction row generalizing left with
  | nil => rfl
  | cons cell rest ih => simp [sanitizeFrom, ih]

@[simp] theorem length_sanitizeWideCells (env : Env) (row : Row) :
    (sanitizeWideCells env row).length = row.length := length_sanitizeFrom env none row

theorem sanitizeCell_linkId (env : Env) (left right : Option TermCell) (cell : TermCell) :
    (sanitizeCell env left cell right).linkId = cell.linkId := by
  simp only [sanitizeCell]
  split_ifs <;> rfl

theorem mem_sanitizeFrom {env : Env} {left : Option TermCell} {row : Row} {cell : TermCell}
    (h : cell ∈ sanitizeFrom env left row) : ∃ old ∈ row, cell.linkId = old.linkId := by
  induction row generalizing left with
  | nil => cases h
  | cons head rest ih =>
      rcases List.mem_cons.mp h with heq | hrest
      · exact ⟨head, List.mem_cons_self, by rw [heq, sanitizeCell_linkId]⟩
      · obtain ⟨old, hold, hid⟩ := ih hrest
        exact ⟨old, List.mem_cons_of_mem _ hold, hid⟩

theorem sanitizeWideCells_below {env : Env} {size : Nat} {row : Row}
    (h : ∀ cell ∈ row, ∀ id ∈ cell.linkId, id < size) :
    ∀ cell ∈ sanitizeWideCells env row, ∀ id ∈ cell.linkId, id < size := by
  intro cell hcell
  obtain ⟨old, hold, hid⟩ := mem_sanitizeFrom hcell
  rw [hid]
  exact h old hold

namespace Terminal

variable {t : Terminal}

theorem WellFormed.cells (h : t.WellFormed) : t.cells.Shape t.cols t.rows := by
  unfold Terminal.cells
  split
  · exact h.alt
  · exact h.main

theorem WellFormed.cellLinks (h : t.WellFormed) : LinksBelow t.links.linkTable.length t.cells := by
  unfold Terminal.cells
  split
  · exact h.altLinks
  · exact h.mainLinks

theorem WellFormed.setCells (h : t.WellFormed) {g : Grid} (hshape : g.Shape t.cols t.rows)
    (hlinks : LinksBelow t.links.linkTable.length g) : (t.setCells g).WellFormed := by
  unfold Terminal.setCells
  split
  · exact { h with alt := hshape, altLinks := hlinks }
  · exact { h with main := hshape, mainLinks := hlinks }

theorem WellFormed.control (h : t.WellFormed) {theme : Theme} {modes : Modes} {prompt : Prompt} {host : Host}
    {tabStops : List Bool} {cursor : SavedCursor} (stops : tabStops.length = t.tabStops.length)
    (inside : cursor.Inside t.cols t.rows) : { t with theme, modes, prompt, host, tabStops, cursor }.WellFormed :=
  { h with cursor := inside, tabStops := stops.trans h.tabStops }

/-! ## 行 -/

theorem blankRow_below (t : Terminal) {size : Nat} : ∀ cell ∈ t.blankRow, ∀ id ∈ cell.linkId, id < size := by
  intro cell hcell id hid
  rw [List.eq_of_mem_replicate hcell] at hid
  cases hid

/-- 区間の行を、元の行か空白の行へ置き換える。 -/
theorem WellFormed.onRegion (h : t.WellFormed) {f : List Row → List Row} {top stop : Nat} (hle : top ≤ stop)
    (hlen : ∀ rows, (f rows).length = rows.length) (hmem : ∀ rows, ∀ row ∈ f rows, row ∈ rows ∨ row = t.blankRow) :
    (t.setCells (Lib.onRegion f top stop t.cells)).WellFormed := by
  have hrow : ∀ row ∈ Lib.onRegion f top stop t.cells, row ∈ t.cells ∨ row = t.blankRow := by
    intro row hrow
    rcases mem_onRegion hrow with hold | hnew
    · exact .inl hold
    · rcases hmem _ row hnew with hold | hblank
      · exact .inl (List.mem_of_mem_take (List.mem_of_mem_drop hold))
      · exact .inr hblank
  refine h.setCells (h.cells.of_mem (length_onRegion hlen hle) ?_) (h.cellLinks.of_mem ?_)
  · intro row hmem
    exact (hrow row hmem).imp_right fun heq => by rw [heq, blankRow, List.length_replicate]
  · intro row hmem
    refine (hrow row hmem).imp_right fun heq => ?_
    rw [heq]
    exact blankRow_below t

theorem graphics_empty (cols rows : Nat) (g : Graphics) : Graphics.WellFormed cols rows
    { g with images := [], kittyIdByPlacement := fun _ => none, kittyPlacementIds := fun _ => false } :=
  { inside := fun _ himg => (List.not_mem_nil himg).elim
    count := Nat.zero_le _
    bytes := Nat.zero_le _
    idsLive := fun _ hid => (hid rfl).elim
    placementsLive := fun _ hid => (Bool.false_ne_true hid).elim }

theorem WellFormed.damageAll (h : t.WellFormed) : t.damageAll.WellFormed :=
  { h with graphics := graphics_empty _ _ _ }

theorem WellFormed.linesUp (h : t.WellFormed) {top : Nat} (hle : top ≤ t.scrollBottom) (n : Nat) :
    (t.linesUp top n).WellFormed :=
  h.damageAll.onRegion (Nat.le_succ_of_le hle) (fun _ => length_shiftUp ..) fun _ _ => mem_shiftUp

theorem WellFormed.linesDown (h : t.WellFormed) {top : Nat} (hle : top ≤ t.scrollBottom) (n : Nat) :
    (t.linesDown top n).WellFormed :=
  h.damageAll.onRegion (Nat.le_succ_of_le hle) (fun _ => length_shiftDown ..) fun _ _ => mem_shiftDown

theorem mem_trimmed {rows : List Row} {row : Row} (h : row ∈ trimmed rows) : row ∈ rows := by
  unfold trimmed at h
  split at h
  · exact List.mem_of_mem_drop h
  · exact h

theorem LinksBelow.trimmed {size : Nat} {rows : List Row} (h : LinksBelow size rows) : LinksBelow size (trimmed rows) :=
  fun row hrow => h row (mem_trimmed hrow)

theorem WellFormed.pushedRows (h : t.WellFormed) (k : Nat) : (t.pushedRows k).WellFormed := by
  have hpushed : LinksBelow t.links.linkTable.length (t.pendingScrollback ++ t.mainCells.take k) :=
    h.scrollbackLinks.append fun row hrow => h.mainLinks row (List.mem_of_mem_take hrow)
  rw [Terminal.pushedRows, trimPendingScrollback_eq]
  exact { h with scrollbackLinks := LinksBelow.trimmed hpushed }

@[simp] theorem pushedRows_scrollBottom (t : Terminal) (k : Nat) :
    (t.pushedRows k).scrollBottom = t.scrollBottom := by
  rw [pushedRows, trimPendingScrollback_eq]

theorem WellFormed.scrolledUp (h : t.WellFormed) (n : Nat) : (t.scrolledUp n).WellFormed := by
  unfold Terminal.scrolledUp
  split
  · exact (h.pushedRows _).linesUp (by simpa using h.top) _
  · exact h.linesUp h.top _

/-! ## 文字 -/

theorem WellFormed.setRow (h : t.WellFormed) {r : Nat} {row : Row} (hwidth : row.length = t.cols)
    (hlinks : ∀ cell ∈ row, ∀ id ∈ cell.linkId, id < t.links.linkTable.length) :
    (t.setCells (t.cells.set r row)).WellFormed :=
  h.setCells (h.cells.set hwidth) (h.cellLinks.set hlinks)

theorem WellFormed.editedRow (h : t.WellFormed) {env : Env} {row row' : Row} (hrow : t.cells[t.cursor.row]? = some row)
    (hlen : row'.length = row.length) (hmem : ∀ cell ∈ row', cell ∈ row ∨ cell = t.blank) :
    (t.editedRow env row').WellFormed := by
  have hold : row ∈ t.cells := List.mem_of_getElem? hrow
  refine h.setRow (by rw [length_sanitizeWideCells, hlen, h.cells.width row hold]) (sanitizeWideCells_below ?_)
  intro cell hcell id hid
  rcases hmem cell hcell with hcell | heq
  · exact h.cellLinks row hold cell hcell id hid
  · rw [heq] at hid
    cases hid

theorem WellFormed.eraseCells (h : t.WellFormed) (start stop : Nat) : (t.eraseCells start stop).WellFormed := by
  refine h.setCells ⟨by rw [List.length_mapIdx, h.cells.length], fun row hrow => ?_⟩ fun row hrow cell hcell id hid => ?_
  · obtain ⟨r, hr, rfl⟩ := List.mem_mapIdx.mp hrow
    rw [List.length_mapIdx, h.cells.width _ (List.getElem_mem hr)]
  · obtain ⟨r, hr, rfl⟩ := List.mem_mapIdx.mp hrow
    obtain ⟨c, hc, rfl⟩ := List.mem_mapIdx.mp hcell
    simp only at hid
    split at hid
    · cases hid
    · exact h.cellLinks _ (List.getElem_mem hr) _ (List.getElem_mem hc) id hid

@[simp] theorem length_writtenRow (env : Env) (t : Terminal) (c : Char) (width : Nat) (row : Row) :
    (t.writtenRow env c width row).length = row.length := by
  simp only [writtenRow]
  split_ifs <;> simp

theorem mem_writtenRow {env : Env} {c : Char} {width : Nat} {row : Row} {cell : TermCell}
    (h : cell ∈ t.writtenRow env c width row) :
    ∃ old, (old ∈ row ∨ old = t.graphicCell c ∨ old = t.placeholderCell) ∧ cell.linkId = old.linkId := by
  have hset : ∀ cell ∈ (if t.hasRoomForPlaceholder width then
      (row.set t.cursor.col (t.graphicCell c)).set (t.cursor.col + 1) t.placeholderCell
      else row.set t.cursor.col (t.graphicCell c)), cell ∈ row ∨ cell = t.graphicCell c ∨ cell = t.placeholderCell := by
    intro cell hcell
    split at hcell
    · rcases List.mem_or_eq_of_mem_set hcell with hcell | heq
      · exact (List.mem_or_eq_of_mem_set hcell).imp_right .inl
      · exact .inr (.inr heq)
    · exact (List.mem_or_eq_of_mem_set hcell).imp_right .inl
  simp only [writtenRow] at h
  split at h
  · obtain ⟨old, hold, hid⟩ := mem_sanitizeFrom h
    exact ⟨old, hset old hold, hid⟩
  · exact ⟨cell, hset cell h, rfl⟩

theorem writtenCol_le {width : Nat} (hcol : t.cursor.col < t.cols) : t.writtenCol width ≤ t.cols := by
  simp only [writtenCol, hasRoomForPlaceholder, Bool.and_eq_true, decide_eq_true_eq]
  split_ifs <;> omega

theorem WellFormed.written (h : t.WellFormed) {env : Env} {c : Char} {width : Nat} {row : Row}
    (hrow : t.cells[t.cursor.row]? = some row) (hcol : t.cursor.col < t.cols) : (t.written env c width row).WellFormed := by
  have hold : row ∈ t.cells := List.mem_of_getElem? hrow
  have hgraphic : ∀ cell ∈ some (c, t.cursor.attrs, t.links.activeLinkId), ∀ id ∈ cell.2.2,
      id < t.links.linkTable.length := by
    rintro cell ⟨⟩
    exact h.links.active
  have hbelow : ∀ cell ∈ t.writtenRow env c width row, ∀ id ∈ cell.linkId, id < t.links.linkTable.length := by
    intro cell hcell id hid
    obtain ⟨old, hmem, heq⟩ := mem_writtenRow hcell
    rw [heq] at hid
    rcases hmem with hmem | rfl | rfl
    · exact h.cellLinks row hold old hmem id hid
    · exact h.links.active id hid
    · exact h.links.active id hid
  have hwidth : (t.writtenRow env c width row).length = t.cols := by
    rw [length_writtenRow]
    exact h.cells.width row hold
  have hset := WellFormed.setRow (t := { t with lastGraphicCell := some (c, t.cursor.attrs, t.links.activeLinkId) })
    { h with graphicLink := hgraphic } (r := t.cursor.row) hwidth hbelow
  have hcols : (t.written env c width row).cols = t.cols := by simp [Terminal.written, setCursorCol]
  exact { hset with cursor := ⟨hset.cursor.row, by rw [hcols]; exact writtenCol_le hcol⟩ }

theorem WellFormed.combined (h : t.WellFormed) {row : Row} {col : Nat} {cell : TermCell} {c : Char}
    (hrow : t.cells[t.cursor.row]? = some row) (hcell : row[col]? = some cell) :
    (t.combined row col cell c).WellFormed := by
  have hold : row ∈ t.cells := List.mem_of_getElem? hrow
  refine h.setRow (by rw [List.length_set, h.cells.width row hold]) fun cell' hcell' id hid => ?_
  rcases List.mem_or_eq_of_mem_set hcell' with hmem | heq
  · exact h.cellLinks row hold cell' hmem id hid
  · rw [heq] at hid
    exact h.cellLinks row hold cell (List.mem_of_getElem? hcell) id hid

end Terminal

/-!
## リンク、画面の切り替え、リサイズは構造の不変条件を保つ
-/

/-! ## リンク -/

namespace Links

variable {l : Links}

theorem lt_of_linkIds (h : l.WellFormed) {uri : List Char} {id : Nat} (hid : l.linkIds uri = some id) :
    id < l.linkTable.length :=
  (List.getElem?_eq_some_iff.mp ((h.inverse uri id).mp hid)).1

/-- 表の末尾に新しい URL を加えても、逆であることは保たれる。 -/
theorem inverse_push (h : l.WellFormed) {uri : List Char} (hnew : l.linkIds uri = none) (uri' : List Char) (id : Nat) :
    Function.update l.linkIds uri (some l.linkTable.length) uri' = some id ↔
      (l.linkTable ++ [uri])[id]? = some uri' := by
  have hold := h.inverse uri' id
  by_cases heq : uri' = uri
  · subst heq
    rw [Function.update_self, List.getElem?_append]
    grind
  · rw [Function.update_of_ne heq, List.getElem?_append]
    grind

theorem WellFormed.setActive (h : l.WellFormed) (uri : Option (List Char)) :
    (l.setActive uri).WellFormed ∧ l.linkTable.length ≤ (l.setActive uri).linkTable.length := by
  unfold Links.setActive
  split
  · rename_i c cs
    generalize c :: cs = uri
    have hclosed : { l with activeLinkId := none }.WellFormed := { h with active := fun _ hid => by cases hid }
    simp only [internLink]
    split
    · exact ⟨hclosed, Nat.le_refl _⟩
    · split
      · rename_i id hid
        exact ⟨{ h with active := by rintro _ ⟨⟩; exact lt_of_linkIds h hid }, Nat.le_refl _⟩
      · rename_i hnew
        split
        · exact ⟨hclosed, Nat.le_refl _⟩
        · rename_i hcap
          refine ⟨⟨?_, inverse_push h hnew, by simp; omega⟩, by simp⟩
          rintro _ ⟨⟩
          simp
  · exact ⟨{ h with active := fun _ hid => by cases hid }, Nat.le_refl _⟩

end Links

namespace Terminal

variable {t : Terminal}

theorem WellFormed.setLinks (h : t.WellFormed) {links : Links} (hlinks : links.WellFormed)
    (hle : t.links.linkTable.length ≤ links.linkTable.length) : { t with links }.WellFormed :=
  { h with
    links := hlinks
    mainLinks := h.mainLinks.mono hle
    altLinks := h.altLinks.mono hle
    scrollbackLinks := h.scrollbackLinks.mono hle
    graphicLink := fun cell hcell id hid => Nat.lt_of_lt_of_le (h.graphicLink cell hcell id hid) hle }

theorem WellFormed.setActiveLink (h : t.WellFormed) {id : Option Nat} (hid : ∀ i ∈ id, i < t.links.linkTable.length) :
    (t.setActiveLink id).WellFormed :=
  { h with links := { h.links with active := hid } }

/-! ## main と alt -/

theorem WellFormed.saveCursorDecsc (h : t.WellFormed) : t.saveCursorDecsc.WellFormed := by
  unfold Terminal.saveCursorDecsc
  split
  · exact { h with savedAlt := by rintro _ ⟨⟩; exact h.cursor }
  · exact { h with savedMain := by rintro _ ⟨⟩; exact h.cursor }

theorem WellFormed.home (h : t.WellFormed) : (SavedCursor.home t.theme).Inside t.cols t.rows :=
  ⟨h.rows, Nat.zero_le _⟩

theorem WellFormed.switchToAlt (h : t.WellFormed) {saveCursor : Bool} {t' : Terminal}
    (hstep : t.switchToAlt saveCursor = some t') : t'.WellFormed := by
  simp only [Terminal.switchToAlt, Lib.sub?_eq_some h.rows, Option.bind_eq_bind, Option.bind_some] at hstep
  split at hstep
  · injection hstep with hstep
    exact hstep ▸ h
  · injection hstep with hstep
    subst hstep
    exact
      { h with
        savedMain := by
          split
          · rintro _ ⟨⟩
            exact h.cursor
          · exact h.savedMain
        alt := blankGrid_shape ..
        altLinks := linksBelow_replicate rfl
        cursor := by
          split
          · exact h.home
          · exact h.cursor
        top := Nat.zero_le _
        bottom := Nat.sub_lt h.rows Nat.one_pos
        links := { h.links with active := fun _ hid => by cases hid }
        graphics := graphics_empty _ _ _ }

theorem WellFormed.switchToMain (h : t.WellFormed) (restoreCursor : Bool) :
    (t.switchToMain restoreCursor).WellFormed := by
  unfold Terminal.switchToMain
  split
  · exact h
  · exact
      { h with
        cursor := by
          split
          · cases hsaved : t.savedCursorMain with
            | none => exact h.cursor
            | some c => exact h.savedMain c hsaved
          · exact h.cursor
        savedMain := by
          split
          · rintro _ ⟨⟩
          · exact h.savedMain
        links := { h.links with active := fun _ hid => by cases hid }
        graphics := graphics_empty _ _ _ }

/-! ## 初期化 -/

theorem Links.new_wellFormed : Links.new.WellFormed :=
  ⟨fun _ hid => (nomatch hid), fun _ _ => by simp [Links.new], Nat.zero_le _⟩

theorem length_defaultTabStops (cols : Nat) : (defaultTabStops cols).length = cols := by simp [defaultTabStops]

theorem WellFormed.new (cols rows : Nat) (theme : Theme) : (Terminal.new cols rows theme).WellFormed := by
  have hcols : 1 ≤ max cols 1 := Nat.le_max_right ..
  have hrows : 1 ≤ max rows 1 := Nat.le_max_right ..
  exact
    { cols := hcols
      rows := hrows
      main := blankGrid_shape ..
      alt := blankGrid_shape ..
      cursor := ⟨hrows, Nat.zero_le _⟩
      savedMain := fun _ hc => (nomatch hc)
      savedAlt := fun _ hc => (nomatch hc)
      top := Nat.zero_le _
      bottom := Nat.sub_lt hrows Nat.one_pos
      tabStops := length_defaultTabStops _
      links := Links.new_wellFormed
      mainLinks := linksBelow_replicate rfl
      altLinks := linksBelow_replicate rfl
      scrollbackLinks := fun _ hrow => (List.not_mem_nil hrow).elim
      graphicLink := fun _ hcell => (nomatch hcell)
      graphics := graphics_empty _ _ Graphics.new }

theorem WellFormed.resetAll (h : t.WellFormed) : t.resetAll.WellFormed := by
  have hnew := WellFormed.new t.cols t.rows t.theme
  exact
    { hnew with
      links := ⟨fun _ hid => (nomatch hid), h.links.inverse, h.links.cap⟩
      mainLinks := linksBelow_replicate rfl
      altLinks := linksBelow_replicate rfl
      scrollbackLinks := h.scrollbackLinks
      graphicLink := fun _ hcell => (nomatch hcell)
      graphics := graphics_empty _ _ t.resetAll.graphics }

/-! ## リサイズ -/

theorem length_resizeRow (env : Env) (oldCols newCols : Nat) (blank : TermCell) (row : Row) :
    (resizeRow env oldCols newCols blank row).length = newCols := by
  simp only [resizeRow]
  split_ifs <;> simp <;> omega

theorem resizeRow_below {env : Env} {oldCols newCols size : Nat} {blank : TermCell} {row : Row}
    (hblank : blank.linkId = none) (h : ∀ cell ∈ row, ∀ id ∈ cell.linkId, id < size) :
    ∀ cell ∈ resizeRow env oldCols newCols blank row, ∀ id ∈ cell.linkId, id < size := by
  have hpad : ∀ cell ∈ row.take newCols ++ List.replicate (newCols - row.length) blank, ∀ id ∈ cell.linkId,
      id < size := by
    intro cell hcell id hid
    rcases List.mem_append.mp hcell with hcell | hcell
    · exact h cell (List.mem_of_mem_take hcell) id hid
    · rw [List.eq_of_mem_replicate hcell, hblank] at hid
      cases hid
  simp only [resizeRow]
  split
  · exact sanitizeWideCells_below hpad
  · exact hpad

theorem resizedGrid_shape {env : Env} {old : Grid} {oldCols oldRows newCols newRows removed : Nat} {blank : TermCell}
    (hlen : old.length = oldRows) (hremoved : removed ≤ oldRows - newRows) :
    (resizedGrid env old oldCols oldRows newCols newRows removed blank).Shape newCols newRows := by
  refine ⟨by simp [resizedGrid, hlen]; omega, fun row hrow => ?_⟩
  obtain ⟨old, -, rfl⟩ := List.mem_map.mp hrow
  exact length_resizeRow ..

theorem resizedGrid_below {env : Env} {old : Grid} {oldCols oldRows newCols newRows removed size : Nat}
    {blank : TermCell} (hblank : blank.linkId = none) (h : LinksBelow size old) :
    LinksBelow size (resizedGrid env old oldCols oldRows newCols newRows removed blank) := by
  intro row hrow
  obtain ⟨row, hold, rfl⟩ := List.mem_map.mp hrow
  refine resizeRow_below hblank ?_
  rcases List.mem_append.mp hold with hold | hnew
  · exact h row (List.mem_of_mem_drop (List.mem_of_mem_take hold))
  · exact linksBelow_replicate hblank row hnew

theorem topRemovedFor_le (oldRows newRows referenceRow : Nat) :
    topRemovedFor oldRows newRows referenceRow ≤ oldRows - newRows := Nat.min_le_right ..

theorem resizeGrid_eq {env : Env} {old : Grid} {oldCols oldRows newCols newRows removed : Nat} {blank : TermCell}
    (hlen : old.length = oldRows) (hremoved : removed ≤ oldRows - newRows) :
    resizeGrid env old oldCols oldRows newCols newRows removed blank =
      some (old.take removed, resizedGrid env old oldCols oldRows newCols newRows removed blank) := by
  unfold resizeGrid resizedGrid
  by_cases hlt : newRows < oldRows
  · have hpad : newRows - oldRows = 0 := by omega
    simp [hlt, hpad, show removed ≤ old.length by omega]
  · have hzero : removed = 0 := by omega
    simp [hlt, hzero, List.take_of_length_le (show old.length ≤ newRows by omega)]

theorem resizePreservingState_eq (h : t.WellFormed) (env : Env) (cols rows : Nat) :
    t.resizePreservingState env cols rows =
      some (if max cols 1 = t.cols ∧ max rows 1 = t.rows then t else t.resized env (max cols 1) (max rows 1)) := by
  unfold resizePreservingState
  have hmain := h.main.length
  have halt := h.alt.length
  simp only [resizeGrid_eq hmain (topRemovedFor_le ..), resizeGrid_eq halt (topRemovedFor_le ..)]
  split
  · rfl
  · have hlen : (t.mainCells.take (t.mainRemoved (max rows 1))).length = t.mainRemoved (max rows 1) := by
      rw [List.length_take, hmain]
      have := topRemovedFor_le t.rows (max rows 1) t.mainReferenceRow
      exact Nat.min_eq_left (by simp only [mainRemoved]; omega)
    simp only [Option.bind_eq_bind, Option.bind_some]
    rw [← mainRemoved, hlen]
    rfl

theorem SavedCursor.resize_inside (oldCols newCols newRows removed : Nat) (c : SavedCursor) (hrows : 1 ≤ newRows) :
    (c.resize oldCols newCols newRows removed).Inside newCols newRows := by
  constructor
  · simp only [SavedCursor.resize, shiftRow]
    split <;> omega
  · simp only [SavedCursor.resize, clampCol]
    split <;> omega

theorem resizeMargins_inside (oldRows top bottom : Nat) {newRows : Nat} (hrows : 1 ≤ newRows) :
    (resizeMargins oldRows newRows top bottom).1 ≤ (resizeMargins oldRows newRows top bottom).2 ∧
      (resizeMargins oldRows newRows top bottom).2 < newRows := by
  simp only [resizeMargins]
  split_ifs <;> simp <;> omega

theorem length_resizeTabStops (oldCols newCols : Nat) (stops : List Bool) :
    (resizeTabStops oldCols newCols stops).length = newCols := by
  simp [resizeTabStops]
  omega

theorem WellFormed.resized (h : t.WellFormed) (env : Env) {cols rows : Nat} (hpos : 1 ≤ cols ∧ 1 ≤ rows) :
    (t.resized env cols rows).WellFormed := by
  have hmargins := resizeMargins_inside t.rows t.scrollTop t.scrollBottom hpos.2
  have hscrollback : LinksBelow t.links.linkTable.length
      (t.pendingScrollback ++ t.mainCells.take (t.mainRemoved rows)) :=
    h.scrollbackLinks.append fun row hrow => h.mainLinks row (List.mem_of_mem_take hrow)
  simp only [Terminal.resized, resizedCells, trimPendingScrollback_eq]
  exact
    { cols := hpos.1
      rows := hpos.2
      main := resizedGrid_shape h.main.length (topRemovedFor_le ..)
      alt := resizedGrid_shape h.alt.length (topRemovedFor_le ..)
      cursor := SavedCursor.resize_inside _ _ _ _ _ hpos.2
      savedMain := by
        intro c hc
        obtain ⟨c, -, rfl⟩ := Option.map_eq_some_iff.mp hc
        exact SavedCursor.resize_inside _ _ _ _ _ hpos.2
      savedAlt := by
        intro c hc
        obtain ⟨c, -, rfl⟩ := Option.map_eq_some_iff.mp hc
        exact SavedCursor.resize_inside _ _ _ _ _ hpos.2
      top := hmargins.1
      bottom := hmargins.2
      tabStops := length_resizeTabStops ..
      links := h.links
      mainLinks := resizedGrid_below rfl h.mainLinks
      altLinks := resizedGrid_below rfl h.altLinks
      scrollbackLinks := LinksBelow.trimmed hscrollback
      graphicLink := h.graphicLink
      graphics := graphics_empty _ _ _ }

end Terminal

end IsekaiTerminal.Emulator
