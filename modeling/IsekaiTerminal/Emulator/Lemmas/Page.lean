import IsekaiTerminal.Emulator.Lemmas.Dispatch
import IsekaiTerminal.Emulator.WellFormed

/-!
# 画面とページの対応

画面は、ページのうち `total_scrolled_lines` 行目から始まる窓である。
-/

namespace IsekaiTerminal.Emulator

open Lib (onRegion sub?_eq_some)

variable {env : Env} {cols rows : Nat} {theme : Theme}

/-! ## 履歴 -/

theorem Page.newest_succ (p : Page) (t k : Nat) : p.newest (t + 1) (k + 1) = p.rows t :: p.newest t k := by
  simp only [newest, List.range_succ_eq_map, List.map_cons, List.map_map]
  congr 1
  refine List.map_congr_left fun i _ => ?_
  simp only [Function.comp_apply, Nat.succ_eq_add_one]
  congr 1
  omega

theorem Page.take_newest (p : Page) (t n k : Nat) : (p.newest t k).take n = p.newest t (min n k) := by
  rw [newest, ← List.map_take, List.take_range, newest]

/-- 行 `t` 以降への書き込みは、その手前の行を変えない。 -/
theorem Page.newest_update (p : Page) {t k r : Nat} (row : Row) (hr : t ≤ r) (hk : k ≤ t) :
    Page.newest { p with rows := Function.update p.rows r row } t k = p.newest t k := by
  refine List.map_congr_left fun i hi => Function.update_of_ne ?_ ..
  have := List.mem_range.mp hi
  omega

/-- 間引きで失われる行は、どのみち履歴に残らない。 -/
theorem trimmed_reverse (pending scrollback : List Row) :
    ((trimmed pending).reverse ++ scrollback).take scrollbackLimit =
      (pending.reverse ++ scrollback).take scrollbackLimit := by
  unfold trimmed
  split
  · rename_i h
    rw [List.reverse_drop, List.take_append, List.take_append, List.take_take, List.length_take, List.length_reverse]
    have hlimit : pending.length - (pending.length - scrollbackLimit) = scrollbackLimit := by omega
    rw [hlimit, Nat.min_self, Nat.min_eq_left (by omega), Nat.sub_self,
      show scrollbackLimit - pending.length = 0 by omega]
  · rfl

theorem updateScrollback_eq (scrollback pending : List Row) (h : scrollback.length ≤ scrollbackLimit) :
    updateScrollback scrollback pending = (pending.reverse ++ scrollback).take scrollbackLimit := by
  have hfold (rows acc : List Row) : rows.foldl (fun sb row => row :: sb) acc = rows.reverse ++ acc := by
    induction rows generalizing acc with
    | nil => rfl
    | cons row rows ih => simp [ih]
  cases pending with
  | nil => exact (List.take_of_length_le h).symm
  | cons row rows =>
      simp only [updateScrollback, List.isEmpty_cons, Bool.false_eq_true, ↓reduceIte, hfold]
      generalize (row :: rows).reverse ++ scrollback = sb
      rcases Nat.le_total sb.length scrollbackLimit with hle | hle
      · rw [Nat.sub_eq_zero_of_le hle, Nat.sub_zero, List.take_length, List.take_of_length_le hle]
      · rw [Nat.sub_sub_self hle]

/-! ## 対応 -/

/-- 履歴に残る行数。 -/
def kept (total : Nat) : Nat := min scrollbackLimit total

structure PageView (cols rows : Nat) (theme : Theme) (t : Terminal) (scrollback : List Row) (p : Page) : Prop where
  wellFormed : t.WellFormed
  width : t.cols = cols
  height : t.rows = rows
  main : t.altActive = false
  autowrap : t.modes.autowrapMode = true
  top : t.scrollTop = 0
  bottom : t.scrollBottom = t.rows - 1
  attrs : t.cursor.attrs = .defaultFor theme
  charset : t.cursor.g0 = .ascii ∧ t.cursor.glIsG1 = false
  link : t.links.activeLinkId = none
  capture : t.prompt.capturingCommandOutput = false
  cells : t.mainCells = (List.range t.rows).map fun i => p.rows (t.totalScrolledLines + i)
  beyond : ∀ r, t.totalScrolledLines + t.rows ≤ r → p.rows r = List.replicate cols (blankCellForTheme theme)
  row : p.row = t.totalScrolledLines + t.cursor.row
  col : p.col = t.cursor.col
  history : (t.pendingScrollback.reverse ++ scrollback).take scrollbackLimit =
    p.newest t.totalScrolledLines (kept t.totalScrolledLines)

namespace PageView

variable {t : Terminal} {scrollback : List Row} {p : Page}

theorem new (cols rows : Nat) (theme : Theme) :
    PageView (max cols 1) (max rows 1) theme (Terminal.new cols rows theme) [] (Page.new (max cols 1) theme) where
  wellFormed := .new cols rows theme
  width := rfl
  height := rfl
  main := rfl
  autowrap := rfl
  top := rfl
  bottom := rfl
  attrs := rfl
  charset := ⟨rfl, rfl⟩
  link := rfl
  capture := rfl
  cells := by simp [Terminal.new, blankGrid, Page.new, List.map_const']
  beyond := fun _ _ => rfl
  row := rfl
  col := rfl
  history := rfl

theorem blankRow (h : PageView cols rows theme t scrollback p) : t.blankRow = List.replicate cols (blankCellForTheme theme) := by
  rw [Terminal.blankRow, Terminal.blank, h.attrs, h.width]
  rfl

theorem cells_eq (h : PageView cols rows theme t scrollback p) : t.cells = t.mainCells := by
  rw [Terminal.cells, h.main]
  rfl

/-! ## 改行 -/

theorem scrolledUp_eq (h : PageView cols rows theme t scrollback p) : t.scrolledUp 1 =
    { t with
      mainCells := t.mainCells.drop 1 ++ [t.blankRow]
      pendingScrollback := trimmed (t.pendingScrollback ++ t.mainCells.take 1)
      totalScrolledLines := t.totalScrolledLines + 1 }.damageAll := by
  have hrows := h.wellFormed.rows
  have hlen := h.wellFormed.main.length
  have hone : t.scrolledRows 1 = 1 := Nat.min_eq_left (Nat.le_add_left ..)
  have hstop : t.scrollBottom + 1 = t.rows := by rw [h.bottom]; omega
  have hregion : onRegion (Lib.shiftUp 1 t.blankRow) 0 t.rows t.mainCells = t.mainCells.drop 1 ++ [t.blankRow] := by
    rw [onRegion, List.take_of_length_le hlen.le, List.drop_of_length_le hlen.le, List.append_nil, List.take_zero,
      List.nil_append, List.drop_zero, Lib.shiftUp, hlen, Nat.min_eq_left hrows]
    rfl
  have hpushed : t.pushedRows 1 = { t with
      pendingScrollback := trimmed (t.pendingScrollback ++ t.mainCells.take 1)
      totalScrolledLines := t.totalScrolledLines + 1 } := Terminal.trimPendingScrollback_eq _
  rw [Terminal.scrolledUp, if_pos ⟨h.top, h.main⟩, hone, hpushed, ← hregion]
  simp only [Terminal.linesUp, Terminal.setCells, Terminal.damageAll, Terminal.clearImages, Terminal.cells, h.main, h.top,
    hstop, Bool.false_eq_true, ↓reduceIte]
  rfl

/-- 窓を 1 行ずらすと、新しい一番下の行は空白である。 -/
theorem drop_range_append {α : Type} (f : Nat → α) {n : Nat} (hn : 1 ≤ n) :
    ((List.range n).map f).drop 1 ++ [f n] = (List.range n).map fun i => f (1 + i) := by
  obtain ⟨m, rfl⟩ := Nat.exists_eq_add_of_le' hn
  have hshift : ((List.range (m + 1)).map f).drop 1 = (List.range m).map fun i => f (1 + i) := by
    rw [List.range_succ_eq_map, List.map_cons, List.map_map, List.drop_one, List.tail_cons]
    exact List.map_congr_left fun i _ => congrArg f (Nat.add_comm i 1)
  rw [hshift, List.range_succ, List.map_append, List.map_singleton, Nat.add_comm m 1]

theorem set_range_map {α : Type} (f : Nat → α) {n start k : Nat} (x : α) :
    ((List.range n).map fun i => f (start + i)).set k x =
      (List.range n).map fun i => Function.update f (start + k) x (start + i) := by
  refine List.ext_getElem (by simp) fun i hi hi' => ?_
  simp only [List.getElem_set, List.getElem_map, List.getElem_range, Function.update_apply]
  exact if_congr (by omega) rfl rfl

theorem kept_succ (total : Nat) : kept (total + 1) = min (scrollbackLimit - 1) (kept total) + 1 := by
  unfold kept scrollbackLimit
  omega

/-- 一番下の行での改行。 -/
theorem scroll (h : PageView cols rows theme t scrollback p) :
    PageView cols rows theme (t.scrolledUp 1) scrollback { p with row := p.row + 1 } ∧
      t.totalScrolledLines ≤ (t.scrolledUp 1).totalScrolledLines := by
  have hrows := h.wellFormed.rows
  have hwf := h.wellFormed.scrolledUp 1
  have hfirst : t.mainCells.take 1 = [p.rows t.totalScrolledLines] := by
    rw [h.cells, ← List.map_take, List.take_range, Nat.min_eq_left hrows]
    rfl
  have hbeyond : p.rows (t.totalScrolledLines + t.rows) = t.blankRow := by
    rw [h.blankRow]
    exact h.beyond _ (Nat.le_refl _)
  rw [h.scrolledUp_eq] at hwf ⊢
  have hcells : t.mainCells.drop 1 ++ [t.blankRow] =
      (List.range t.rows).map fun i => p.rows (t.totalScrolledLines + 1 + i) := by
    rw [h.cells, ← hbeyond, drop_range_append (fun i => p.rows (t.totalScrolledLines + i)) hrows]
    exact List.map_congr_left fun i _ => congrArg p.rows (Nat.add_assoc ..).symm
  have hhistory : ((trimmed (t.pendingScrollback ++ t.mainCells.take 1)).reverse ++ scrollback).take scrollbackLimit =
      p.newest (t.totalScrolledLines + 1) (kept (t.totalScrolledLines + 1)) := by
    have hold := congrArg (List.take (scrollbackLimit - 1)) h.history
    rw [List.take_take, Nat.min_eq_left (Nat.sub_le ..), Page.take_newest] at hold
    rw [trimmed_reverse, hfirst, List.reverse_append, List.append_assoc, kept_succ, Page.newest_succ, ← hold]
    rfl
  exact ⟨{ h with
    wellFormed := hwf
    cells := hcells
    beyond := fun r hr => h.beyond r (by dsimp only [Terminal.damageAll, Terminal.clearImages] at hr; omega)
    row := by dsimp only [Terminal.damageAll, Terminal.clearImages]; rw [h.row]; omega
    history := hhistory }, Nat.le_succ _⟩

theorem newline (h : PageView cols rows theme t scrollback p) :
    ∃ t', t.newline = some t' ∧ PageView cols rows theme t' scrollback { p with row := p.row + 1 } ∧
      t.totalScrolledLines ≤ t'.totalScrolledLines ∧ t'.cursor.col = t.cursor.col := by
  by_cases hbottom : t.cursor.row = t.scrollBottom
  · refine ⟨t.scrolledUp 1, ?_, h.scroll.1, h.scroll.2, by rw [Terminal.scrolledUp_cursor]⟩
    rw [Terminal.newline, if_pos hbottom, Terminal.scrollUpRegion_eq h.wellFormed]
  · have hrow := h.wellFormed.cursor.row
    have hlt : t.cursor.row < t.rows - 1 := by have := h.bottom; omega
    refine ⟨t.setCursorRow (t.cursor.row + 1), ?_, ?_, Nat.le_refl _, rfl⟩
    · rw [Terminal.newline, if_neg hbottom, sub?_eq_some h.wellFormed.rows, Option.bind_eq_bind, Option.bind_some,
        if_pos hlt]
    · exact { h with
        wellFormed := h.wellFormed.control rfl ⟨by dsimp only; omega, h.wellFormed.cursor.col⟩
        row := by rw [h.row]; exact Nat.add_assoc .. }

theorem setCol (h : PageView cols rows theme t scrollback p) {col : Nat} (hcol : col ≤ t.cols) :
    PageView cols rows theme (t.setCursorCol col) scrollback { p with col } :=
  { h with wellFormed := h.wellFormed.control rfl ⟨h.wellFormed.cursor.row, hcol⟩, col := rfl }

/-! ## 印字 -/

/-- 折り返した後のページ。 -/
def wrapped (cols : Nat) (p : Page) : Page := if p.col = cols then { p with row := p.row + 1, col := 0 } else p

theorem wrap (h : PageView cols rows theme t scrollback p) :
    ∃ t', t.wrap 1 = some t' ∧ PageView cols rows theme t' scrollback (wrapped cols p) ∧
      t.totalScrolledLines ≤ t'.totalScrolledLines ∧ t'.cursor.col < cols := by
  have hcol := h.wellFormed.cursor.col
  have hwidth := h.width
  have hneeds : t.needsWrap 1 = true ↔ p.col = cols := by
    rw [h.col, ← hwidth]
    simp only [Terminal.needsWrap, Nat.reduceEqDiff, decide_false, Bool.false_and, Bool.or_false, decide_eq_true_eq]
    omega
  by_cases hwrap : p.col = cols
  · obtain ⟨t', ht', hview, htotal, hcol'⟩ := (h.setCol (Nat.zero_le t.cols)).newline
    refine ⟨t', ?_, ?_, htotal, ?_⟩
    · rw [Terminal.wrap, if_pos (hneeds.mpr hwrap), if_pos h.autowrap, ht']
    · rw [wrapped, if_pos hwrap]
      exact hview
    · rw [hcol', ← hwidth]
      exact h.wellFormed.cols
  · refine ⟨t, ?_, ?_, Nat.le_refl _, ?_⟩
    · rw [Terminal.wrap, if_neg (mt hneeds.mp hwrap)]
    · rw [wrapped, if_neg hwrap]
      exact h
    · have := h.col
      omega

theorem cursorCells (h : PageView cols rows theme t scrollback p) : t.cells[t.cursor.row]? = some (p.rows p.row) := by
  rw [h.cells_eq, h.cells, List.getElem?_map, List.getElem?_range h.wellFormed.cursor.row, h.row]
  rfl

theorem writtenRow_eq (h : PageView cols rows theme t scrollback p) (env : Env) (c : Char) (row : Row) :
    t.writtenRow env c 1 row = row.set p.col ((TermAttrs.defaultFor theme).toCell [c]) := by
  have hroom : t.hasRoomForPlaceholder 1 = false := rfl
  have hcell : t.graphicCell c = (TermAttrs.defaultFor theme).toCell [c] := by
    rw [Terminal.graphicCell, h.attrs, h.link]
    rfl
  simp only [Terminal.writtenRow, hroom, hcell, h.col, h.autowrap, Bool.false_eq_true, ↓reduceIte, Bool.not_true,
    Bool.false_and]

/-- カーソルの位置へ 1 文字を書く。 -/
theorem written (h : PageView cols rows theme t scrollback p) (hcol : t.cursor.col < cols) (env : Env) (c : Char) :
    PageView cols rows theme (t.written env c 1 (p.rows p.row)) scrollback
      { rows := Function.update p.rows p.row ((p.rows p.row).set p.col ((TermAttrs.defaultFor theme).toCell [c]))
        row := p.row
        col := p.col + 1 } := by
  have hlt : t.cursor.col < t.cols := h.width ▸ hcol
  have hwf : (t.written env c 1 (p.rows p.row)).WellFormed := h.wellFormed.written h.cursorCells hlt
  have hnext : t.writtenCol 1 = p.col + 1 := by
    rw [Terminal.writtenCol, if_pos h.autowrap, h.col]
    rfl
  have hinside := h.wellFormed.cursor.row
  have heq : t.written env c 1 (p.rows p.row) =
      { t with
        lastGraphicCell := some (c, t.cursor.attrs, t.links.activeLinkId)
        mainCells := t.mainCells.set t.cursor.row ((p.rows p.row).set p.col ((TermAttrs.defaultFor theme).toCell [c]))
        cursor := { t.cursor with col := p.col + 1 } } := by
    rw [Terminal.written, h.writtenRow_eq, hnext, Terminal.setCells, Terminal.cells]
    simp only [h.main, Bool.false_eq_true, ↓reduceIte]
    rfl
  rw [heq] at hwf ⊢
  have hrowEq := h.row
  exact { h with
    wellFormed := hwf
    cells := by
      dsimp only
      rw [h.cells, set_range_map p.rows, ← h.row]
    beyond := fun r hr => by
      dsimp only at hr ⊢
      rw [Function.update_of_ne (by omega)]
      exact h.beyond r hr
    row := h.row
    col := rfl
    history := by
      refine h.history.trans (Page.newest_update p _ ?_ (Nat.min_le_right ..)).symm
      exact hrowEq ▸ Nat.le_add_right .. }

/-! ## 1 つの操作 -/

theorem write_eq (cols : Nat) (theme : Theme) (p : Page) (c : Char) :
    p.write cols theme c =
      { rows := Function.update (wrapped cols p).rows (wrapped cols p).row
          (((wrapped cols p).rows (wrapped cols p).row).set (wrapped cols p).col ((TermAttrs.defaultFor theme).toCell [c]))
        row := (wrapped cols p).row
        col := (wrapped cols p).col + 1 } := by
  by_cases hcol : p.col = cols
  · simp only [Page.write, wrapped, hcol, ↓reduceIte]
  · simp only [Page.write, wrapped, hcol, ↓reduceIte]

theorem print (h : PageView cols rows theme t scrollback p) {c : Char} (hwidth : charWidth env c = 1) :
    ∃ t', t.print env c = some t' ∧ PageView cols rows theme t' scrollback (p.write cols theme c) ∧
      t.totalScrolledLines ≤ t'.totalScrolledLines := by
  have hmap : t.mapCharset c = c := by simp only [Terminal.mapCharset, h.charset, Bool.false_eq_true, ↓reduceIte]
  have hcapture : t.captureChar c = t := by
    rw [Terminal.captureChar, h.capture]
    rfl
  obtain ⟨t', ht', hview, htotal, hcol⟩ := h.wrap
  refine ⟨_, ?_, write_eq cols theme p c ▸ hview.written hcol env c, ?_⟩
  · rw [Terminal.print, hmap, hcapture, Terminal.printMapped, hwidth, if_neg Nat.one_ne_zero, ht']
    exact Terminal.writeGraphic_eq hview.wellFormed hview.cursorCells (hview.width ▸ hcol)
  · rwa [Terminal.written, Terminal.setCells, if_neg (by simp [hview.main])]

theorem step (env : Env) (h : PageView cols rows theme t scrollback p) {op : PlainOp} (hwidth : ∀ c, op = .char c → charWidth env c = 1) :
    ∃ t', t.step env op.event = some t' ∧ PageView cols rows theme t' scrollback (p.apply cols theme op) ∧
      t.totalScrolledLines ≤ t'.totalScrolledLines := by
  cases op with
  | char c => exact h.print (hwidth c rfl)
  | cr => exact ⟨t.setCursorCol 0, rfl, h.setCol (Nat.zero_le _), Nat.le_refl _⟩
  | lf =>
      have hcapture : t.captureLine = t := by
        rw [Terminal.captureLine, h.capture]
        rfl
      obtain ⟨t', ht', hview, htotal, -⟩ := h.newline
      exact ⟨t', by rw [← ht']; exact congrArg Terminal.newline hcapture, hview, htotal⟩

/-! ## バッチ -/

theorem exec (env : Env) (h : PageView cols rows theme t scrollback p) {ops : List PlainOp}
    (hwidth : ∀ c, .char c ∈ ops → charWidth env c = 1) :
    ∃ t', t.exec env (ops.map PlainOp.event) = some t' ∧
      PageView cols rows theme t' scrollback (ops.foldl (Page.apply cols theme) p) ∧
      t.totalScrolledLines ≤ t'.totalScrolledLines := by
  induction ops generalizing t p with
  | nil => exact ⟨t, rfl, h, Nat.le_refl _⟩
  | cons op ops ih =>
      obtain ⟨t', ht', hview, htotal⟩ := h.step env fun c hc => hwidth c (hc ▸ List.mem_cons_self ..)
      obtain ⟨t'', ht'', hview', htotal'⟩ := ih hview fun c hc => hwidth c (List.mem_cons_of_mem _ hc)
      refine ⟨t'', ?_, hview', htotal.trans htotal'⟩
      rw [Terminal.exec, List.map_cons, List.foldlM_cons, ht']
      exact ht''

/-- 送り出した行を履歴へ移した後も、履歴は同じ行を持つ。 -/
theorem batch (h : PageView cols rows theme t scrollback p) (hlen : scrollback.length ≤ scrollbackLimit) :
    updateScrollback scrollback t.pendingScrollback = p.newest t.totalScrolledLines (kept t.totalScrolledLines) ∧
      PageView cols rows theme { t with pendingScrollback := [] } (updateScrollback scrollback t.pendingScrollback) p := by
  have hupdate := (updateScrollback_eq scrollback t.pendingScrollback hlen).trans h.history
  refine ⟨hupdate, { h with wellFormed := ?_, history := ?_ }⟩
  · exact { h.wellFormed with scrollbackLinks := fun row hrow => nomatch hrow }
  · rw [hupdate, List.reverse_nil, List.nil_append, Page.take_newest, kept, ← Nat.min_assoc, Nat.min_self]

end PageView

theorem length_newest (p : Page) (t k : Nat) : (p.newest t k).length = k := by
  rw [Page.newest, List.length_map, List.length_range]

theorem runBatch_view (env : Env) {t : Terminal} {scrollback : List Row} {p : Page} (h : PageView cols rows theme t scrollback p)
    (hlen : scrollback.length ≤ scrollbackLimit) {batch : List PlainOp}
    (hwidth : ∀ c, .char c ∈ batch → charWidth env c = 1) :
    ∃ t' scrollback', runBatch env (t, scrollback) batch = some (t', scrollback') ∧
      PageView cols rows theme t' scrollback' (batch.foldl (Page.apply cols theme) p) ∧
      scrollback' = Page.newest (batch.foldl (Page.apply cols theme) p) t'.totalScrolledLines (kept t'.totalScrolledLines) ∧
      t.totalScrolledLines ≤ t'.totalScrolledLines := by
  obtain ⟨t', ht', hview, htotal⟩ := h.exec env hwidth
  obtain ⟨hscrollback, hview'⟩ := hview.batch hlen
  refine ⟨_, _, ?_, hview', hscrollback, htotal⟩
  rw [runBatch, ht']
  rfl

theorem runBatches_view (env : Env) {t : Terminal} {scrollback : List Row} {p : Page} (h : PageView cols rows theme t scrollback p)
    (hscrollback : scrollback = p.newest t.totalScrolledLines (kept t.totalScrolledLines))
    {batches : List (List PlainOp)} (hwidth : ∀ c, .char c ∈ batches.flatten → charWidth env c = 1) :
    ∃ t' scrollback', runBatches env (t, scrollback) batches = some (t', scrollback') ∧
      PageView cols rows theme t' scrollback' (batches.flatten.foldl (Page.apply cols theme) p) ∧
      scrollback' =
        Page.newest (batches.flatten.foldl (Page.apply cols theme) p) t'.totalScrolledLines (kept t'.totalScrolledLines) ∧
      t.totalScrolledLines ≤ t'.totalScrolledLines := by
  induction batches generalizing t scrollback p with
  | nil => exact ⟨t, scrollback, rfl, h, hscrollback, Nat.le_refl _⟩
  | cons batch batches ih =>
      have hlen : scrollback.length ≤ scrollbackLimit := by
        rw [hscrollback, length_newest]
        exact Nat.min_le_left ..
      have hbatch (c : Char) (hc : .char c ∈ batch) : charWidth env c = 1 := hwidth c (List.mem_append_left _ hc)
      obtain ⟨t', sb', hrun, hview, hsb', htotal⟩ := runBatch_view env h hlen hbatch
      obtain ⟨t'', sb'', hrun', hview', hsb'', htotal'⟩ := ih hview hsb' fun c hc => hwidth c (List.mem_append_right _ hc)
      rw [List.flatten_cons, List.foldl_append]
      refine ⟨t'', sb'', ?_, hview', hsb'', htotal.trans htotal'⟩
      rw [runBatches, List.foldlM_cons, hrun]
      exact hrun'

end IsekaiTerminal.Emulator
