import IsekaiTerminal.Emulator.Lemmas.Images

/-!
# 操作は変化の列である

構造の不変条件のもとで、どの操作も panic せず、変化の列で終わることを示す。
-/

namespace IsekaiTerminal.Emulator

open Lib (sub? sub?_eq_some clamp?_eq_some write?_eq_some)

variable {env : Env} {t t' : Terminal} {S : Kind → Prop}

/-! ## 変化の列 -/

theorem Change.wellFormed {k : Kind} (h : t.WellFormed) (hchange : Change env k t t') : t'.WellFormed := by
  cases hchange with
  | control _ _ _ _ _ _ stops inside => exact h.control stops inside
  | setLink uri => exact h.setLinks (h.links.setActive uri).1 (h.links.setActive uri).2
  | activeLink id below => exact h.setActiveLink below
  | save => exact h.saveCursorDecsc
  | margins _ _ top bottom => exact { h with top, bottom }
  | scroll n => exact h.scrolledUp n
  | linesUp top n region => exact h.linesUp region n
  | linesDown top n region => exact h.linesDown region n
  | edit row row' old length mem => exact h.editedRow old length mem
  | erase start stop => exact h.eraseCells start stop
  | write c row old col => exact h.written old col
  | combine c row col cell zero old oldCell head => exact h.combined old oldCell
  | toAlt saveCursor switch => exact h.switchToAlt switch
  | toMain restoreCursor => exact h.switchToMain restoreCursor
  | reset => exact h.resetAll
  | graphics graphics wellFormed => exact h.setGraphics wellFormed
  | resize cols rows positive => exact h.resized env positive

theorem Runs.wellFormed (h : t.WellFormed) (hruns : Runs env S t t') : t'.WellFormed := by
  induction hruns with
  | refl => exact h
  | tail _ hstep ih =>
      obtain ⟨k, -, hchange⟩ := hstep
      exact hchange.wellFormed ih

namespace Reaches

theorem refl : Reaches env S t (some t) := ⟨t, rfl, .refl⟩

theorem single {k : Kind} (hk : S k) (h : Change env k t t') : Reaches env S t (some t') :=
  ⟨t', rfl, .single ⟨k, hk, h⟩⟩

theorem wellFormed {r : Option Terminal} (h : t.WellFormed) (hr : Reaches env S t r) : ∃ t', r = some t' ∧ t'.WellFormed :=
  have ⟨t', heq, hruns⟩ := hr
  ⟨t', heq, hruns.wellFormed h⟩

theorem bind {r : Option Terminal} {f : Terminal → Option Terminal} (h : t.WellFormed) (hr : Reaches env S t r)
    (hf : ∀ t', t'.WellFormed → r = some t' → Reaches env S t' (f t')) : Reaches env S t (r.bind f) := by
  obtain ⟨t', rfl, hruns⟩ := hr
  obtain ⟨t'', hf, hruns'⟩ := hf t' (hruns.wellFormed h) rfl
  exact ⟨t'', hf, hruns.trans hruns'⟩

theorem trans {r : Option Terminal} (h : Reaches env S t (some t')) (hr : Reaches env S t' r) : Reaches env S t r := by
  obtain ⟨_, ⟨⟩, hruns⟩ := h
  obtain ⟨t'', heq, hruns'⟩ := hr
  exact ⟨t'', heq, hruns.trans hruns'⟩

theorem ite {p : Prop} [Decidable p] {r r' : Option Terminal} (h : p → Reaches env S t r) (h' : ¬p → Reaches env S t r') :
    Reaches env S t (if p then r else r') := by
  split
  · exact h ‹_›
  · exact h' ‹_›

theorem some_ite {p : Prop} [Decidable p] {u u' : Terminal} (h : p → Reaches env S t (some u))
    (h' : ¬p → Reaches env S t (some u')) : Reaches env S t (some (if p then u else u')) :=
  apply_ite some p u u' ▸ .ite h h'

theorem of_eq {r : Option Terminal} (hr : r = some t') (h : Reaches env S t (some t')) : Reaches env S t r := hr ▸ h

end Reaches

namespace Terminal

/-! ## 画面の外 -/

theorem reaches_control (hS : S .control) {theme : Theme} {modes : Modes} {prompt : Prompt} {host : Host}
    {tabStops : List Bool} {cursor : SavedCursor} (stops : tabStops.length = t.tabStops.length)
    (inside : cursor.Inside t.cols t.rows) :
    Reaches env S t (some { t with theme, modes, prompt, host, tabStops, cursor }) :=
  .single hS (.control theme modes prompt host tabStops cursor stops inside)

/-- カーソルの動きを伴わない変化。 -/
theorem reaches_outer (hS : S .control) (h : t.WellFormed) {modes : Modes} {prompt : Prompt} {host : Host} :
    Reaches env S t (some { t with modes, prompt, host }) := reaches_control hS rfl h.cursor

theorem reaches_setCursor (hS : S .control) {row col : Nat} (hrow : row < t.rows) (hcol : col ≤ t.cols) :
    Reaches env S t (some (t.setCursor row col)) := reaches_control hS rfl ⟨hrow, hcol⟩

theorem reaches_setCursorRow (hS : S .control) (h : t.WellFormed) {row : Nat} (hrow : row < t.rows) :
    Reaches env S t (some (t.setCursorRow row)) := reaches_control hS rfl ⟨hrow, h.cursor.col⟩

theorem reaches_setCursorCol (hS : S .control) (h : t.WellFormed) {col : Nat} (hcol : col ≤ t.cols) :
    Reaches env S t (some (t.setCursorCol col)) := reaches_control hS rfl ⟨h.cursor.row, hcol⟩

theorem reaches_setAttrs (hS : S .control) (h : t.WellFormed) (attrs : TermAttrs) :
    Reaches env S t (some (t.setAttrs attrs)) := reaches_control hS rfl ⟨h.cursor.row, h.cursor.col⟩

theorem reaches_placed {result : Option Terminal} (hcontrol : S .control) (hgraphics : S .graphics)
    (hplaced : t.ImagesPlaced result) : Reaches env S t result := by
  obtain ⟨graphics, cursor, rfl, hwf, hcursor⟩ := hplaced
  refine ⟨_, rfl, .tail (.single ⟨.graphics, hgraphics, .graphics graphics hwf⟩) ⟨.control, hcontrol, ?_⟩⟩
  exact .control _ _ _ _ _ cursor rfl hcursor

theorem reaches_clearImages (hS : S .graphics) : Reaches env S t (some t.clearImages) :=
  .single hS (.graphics _ (graphics_empty ..))

/-! ## スクロール -/

theorem pushScrollback_eq {k : Nat} (h : k ≤ t.mainCells.length) : t.pushScrollback k = some (t.pushedRows k) := if_pos h

theorem shiftRowsUp_damageAll (h : t.WellFormed) {top : Nat} (htop : top ≤ t.scrollBottom) (n : Nat) :
    t.damageAll.shiftRowsUp top t.scrollBottom n = some (t.linesUp top n) :=
  shiftRowsUp_eq (t := t.damageAll) htop h.bottom h.cells.length n

theorem shiftRowsDown_damageAll (h : t.WellFormed) {top : Nat} (htop : top ≤ t.scrollBottom) (n : Nat) :
    t.damageAll.shiftRowsDown top t.scrollBottom n = some (t.linesDown top n) :=
  shiftRowsDown_eq (t := t.damageAll) htop h.bottom h.cells.length n

theorem pushScrollback_damageAll (h : t.WellFormed) (n : Nat) :
    t.damageAll.pushScrollback (t.scrolledRows n) = some (t.pushedRows (t.scrolledRows n)).damageAll := by
  have hle : t.scrolledRows n ≤ t.damageAll.mainCells.length := by
    have := h.bottom
    have := h.main.length
    simp only [scrolledRows, damageAll, clearImages]
    omega
  rw [pushScrollback_eq hle, pushedRows, pushedRows, trimPendingScrollback_eq, trimPendingScrollback_eq]
  rfl

theorem scrollUpRegion_eq (h : t.WellFormed) (n : Nat) : t.scrollUpRegion n = some (t.scrolledUp n) := by
  have hsize : sub? t.damageAll.scrollBottom t.damageAll.scrollTop = some (t.scrollBottom - t.scrollTop) :=
    sub?_eq_some h.top
  simp only [scrollUpRegion, hsize, Option.bind_eq_bind, Option.bind_some, scrolledUp]
  rw [← scrolledRows]
  by_cases hmain : t.scrollTop = 0 ∧ t.altActive = false
  · have hcond : t.damageAll.scrollTop = 0 ∧ (!t.damageAll.altActive) = true := ⟨hmain.1, by simp [damageAll, clearImages, hmain.2]⟩
    have htop : t.scrollTop ≤ (t.pushedRows (t.scrolledRows n)).scrollBottom := by simpa using h.top
    have hshift := shiftRowsUp_damageAll (h.pushedRows (t.scrolledRows n)) htop (t.scrolledRows n)
    rw [pushedRows_scrollBottom] at hshift
    rw [if_pos hcond, if_pos hmain, pushScrollback_damageAll h, Option.bind_some]
    exact hshift
  · have hcond : ¬(t.damageAll.scrollTop = 0 ∧ (!t.damageAll.altActive) = true) := by
      simpa [damageAll, clearImages] using hmain
    rw [if_neg hcond, if_neg hmain]
    exact shiftRowsUp_damageAll h h.top _

theorem reaches_scrollUpRegion (hS : S .scroll) (h : t.WellFormed) (n : Nat) : Reaches env S t (t.scrollUpRegion n) :=
  .of_eq (scrollUpRegion_eq h n) (.single hS (.scroll n))

theorem reaches_scrollDownRegion (hS : S .lines) (h : t.WellFormed) (n : Nat) :
    Reaches env S t (t.scrollDownRegion n) :=
  .of_eq (shiftRowsDown_damageAll h h.top n) (.single hS (.linesDown _ n h.top))

theorem reaches_insertLines (hS : S .lines) (h : t.WellFormed) (n : Nat) : Reaches env S t (t.insertLines n) := by
  unfold insertLines
  split
  · exact .refl
  · have hregion : t.cursor.row ≤ t.scrollBottom := by omega
    exact .of_eq (shiftRowsDown_damageAll h hregion n) (.single hS (.linesDown _ n hregion))

theorem reaches_deleteLines (hS : S .lines) (h : t.WellFormed) (n : Nat) : Reaches env S t (t.deleteLines n) := by
  unfold deleteLines
  split
  · exact .refl
  · have hregion : t.cursor.row ≤ t.scrollBottom := by omega
    exact .of_eq (shiftRowsUp_damageAll h hregion n) (.single hS (.linesUp _ n hregion))

theorem reaches_newline (hcontrol : S .control) (hscroll : S .scroll) (h : t.WellFormed) :
    Reaches env S t t.newline := by
  unfold newline
  split
  · exact reaches_scrollUpRegion hscroll h 1
  · rw [sub?_eq_some h.rows]
    simp only [Option.bind_eq_bind, Option.bind_some]
    split
    · exact reaches_setCursorRow hcontrol h (by omega)
    · exact .refl

theorem reaches_reverseIndex (hcontrol : S .control) (hlines : S .lines) (h : t.WellFormed) :
    Reaches env S t t.reverseIndex := by
  unfold reverseIndex
  split
  · exact .of_eq (shiftRowsDown_damageAll h h.top 1) (.single hlines (.linesDown _ 1 h.top))
  · split
    · exact reaches_setCursorRow hcontrol h (Nat.lt_of_le_of_lt (Nat.sub_le ..) h.cursor.row)
    · exact .refl

/-! ## 文字 -/

theorem WellFormed.cursorRow (h : t.WellFormed) : ∃ row, t.cells[t.cursor.row]? = some row ∧ row.length = t.cols := by
  have hlt : t.cursor.row < t.cells.length := by
    rw [h.cells.length]
    exact h.cursor.row
  exact ⟨_, List.getElem?_eq_getElem hlt, h.cells.width _ (List.getElem_mem hlt)⟩

/-- 区間の文字を、元の文字か空白へ置き換える。 -/
theorem reaches_edit (hS : S .edit) {row : Row} (hrow : t.cells[t.cursor.row]? = some row) {f : Row → Row}
    {start stop : Nat} (hle : start ≤ stop) (hlen : ∀ m, (f m).length = m.length)
    (hmem : ∀ m, ∀ cell ∈ f m, cell ∈ m ∨ cell = t.blank) :
    Reaches env S t (some (t.editedRow env (Lib.onRegion f start stop row))) := by
  refine .single hS (.edit row _ hrow (Lib.length_onRegion hlen hle) fun cell hcell => ?_)
  rcases Lib.mem_onRegion hcell with hold | hnew
  · exact .inl hold
  · exact (hmem _ cell hnew).imp_left fun h => List.mem_of_mem_take (List.mem_of_mem_drop h)

theorem visibleCol_lt (h : t.WellFormed) : t.visibleCol < t.cols :=
  Nat.lt_of_le_of_lt (Nat.min_le_right ..) (Nat.sub_lt h.cols Nat.one_pos)

theorem reaches_insertChars (hS : S .edit) (h : t.WellFormed) {n : Nat} (hn : 0 < n) :
    Reaches env S t (t.insertChars env n) := by
  obtain ⟨row, hrow, -⟩ := h.cursorRow
  refine .of_eq (insertChars_eq hrow h.cells h.cols hn) (reaches_edit hS hrow (visibleCol_lt h).le ?_ ?_)
  · exact fun _ => Lib.length_shiftDown ..
  · exact fun _ _ => Lib.mem_shiftDown

theorem reaches_deleteChars (hS : S .edit) (h : t.WellFormed) {n : Nat} (hn : 0 < n) :
    Reaches env S t (t.deleteChars env n) := by
  obtain ⟨row, hrow, -⟩ := h.cursorRow
  refine .of_eq (deleteChars_eq hrow h.cells h.cols hn) (reaches_edit hS hrow (visibleCol_lt h).le ?_ ?_)
  · exact fun _ => Lib.length_shiftUp ..
  · exact fun _ _ => Lib.mem_shiftUp

theorem reaches_eraseChars (hS : S .edit) (h : t.WellFormed) {n : Nat} (hn : 0 < n) :
    Reaches env S t (t.eraseChars env n) := by
  obtain ⟨row, hrow, -⟩ := h.cursorRow
  refine .of_eq (eraseChars_eq hrow h.cells h.cols hn) (reaches_edit hS hrow (Nat.le_add_right ..) ?_ ?_)
  · exact fun _ => List.length_replicate
  · exact fun _ _ hcell => .inr (List.eq_of_mem_replicate hcell)

theorem reaches_eraseInDisplay (hcontrol : S .control) (hgraphics : S .graphics) (herase : S .erase) (h : t.WellFormed)
    (p0 : UInt16) : Reaches env S t (some (t.eraseInDisplay p0)) := by
  unfold eraseInDisplay
  simp only
  split_ifs
  · exact .single herase (.erase _ _)
  · exact .single herase (.erase _ _)
  · have hwf := h.eraseCells 0 (t.cols * t.rows)
    have herased : Reaches env S t (some (t.eraseCells 0 (t.cols * t.rows))) := .single herase (.erase _ _)
    exact herased.trans ((reaches_setCursor hcontrol hwf.rows (Nat.zero_le _)).trans (reaches_clearImages hgraphics))
  · exact .refl

theorem reaches_eraseInLine (hS : S .erase) (p0 : UInt16) : Reaches env S t (some (t.eraseInLine p0)) := by
  unfold eraseInLine
  simp only
  split_ifs
  · exact .single hS (.erase _ _)
  · exact .single hS (.erase _ _)
  · exact .single hS (.erase _ _)
  · exact .refl

/-! ## タブストップ -/

theorem findTabStop_eq {stops : List Bool} {start k : Nat} (h : start + k ≤ stops.length) :
    ∃ found, findTabStop stops start k = some found ∧ ∀ c ∈ found, c < start + k := by
  induction k generalizing start with
  | zero => exact ⟨none, rfl, fun _ hc => nomatch hc⟩
  | succ k ih =>
      have hlt : start < stops.length := by omega
      have hrest : start + 1 + k ≤ stops.length := by omega
      obtain ⟨found, hfound, hbound⟩ := ih hrest
      rw [findTabStop, List.getElem?_eq_getElem hlt]
      simp only [Option.bind_eq_bind, Option.bind_some]
      split
      · exact ⟨some start, rfl, by rintro _ ⟨⟩; omega⟩
      · exact ⟨found, hfound, fun c hc => by have := hbound c hc; omega⟩

theorem findTabStopBack_eq {stops : List Bool} {k : Nat} (h : k ≤ stops.length) :
    ∃ found, findTabStopBack stops k = some found ∧ ∀ c ∈ found, c < k := by
  induction k with
  | zero => exact ⟨none, rfl, fun _ hc => nomatch hc⟩
  | succ k ih =>
      have hlt : k < stops.length := by omega
      obtain ⟨found, hfound, hbound⟩ := ih (by omega)
      rw [findTabStopBack, List.getElem?_eq_getElem hlt]
      simp only [Option.bind_eq_bind, Option.bind_some]
      split
      · exact ⟨some k, rfl, by rintro _ ⟨⟩; omega⟩
      · exact ⟨found, hfound, fun c hc => by have := hbound c hc; omega⟩

theorem nextTabStop_eq (h : t.WellFormed) (col : Nat) : ∃ next, t.nextTabStop col = some next ∧ next < t.cols := by
  have hcols := h.cols
  have hstops := h.tabStops
  by_cases hcol : col + 1 ≤ t.cols
  · have hlen : col + 1 + (t.cols - (col + 1)) ≤ t.tabStops.length := by omega
    obtain ⟨found, hfound, hbound⟩ := findTabStop_eq hlen
    refine ⟨found.getD (t.cols - 1), by rw [nextTabStop, hfound]; rfl, ?_⟩
    cases found with
    | none => exact Nat.sub_lt hcols Nat.one_pos
    | some c => have := hbound c rfl; simp only [Option.getD_some]; omega
  · refine ⟨t.cols - 1, ?_, Nat.sub_lt hcols Nat.one_pos⟩
    rw [nextTabStop, Nat.sub_eq_zero_of_le (by omega), findTabStop]
    rfl

theorem prevTabStop_eq (h : t.WellFormed) {col : Nat} (hcol : col ≤ t.cols) :
    ∃ prev, t.prevTabStop col = some prev ∧ prev ≤ col := by
  obtain ⟨found, hfound, hbound⟩ := findTabStopBack_eq (hcol.trans_eq h.tabStops.symm)
  refine ⟨found.getD 0, by rw [prevTabStop, hfound]; rfl, ?_⟩
  cases found with
  | none => exact Nat.zero_le _
  | some c => exact (hbound c rfl).le

theorem reaches_cursorForwardTab (hS : S .control) (h : t.WellFormed) (n : Nat) :
    Reaches env S t (t.cursorForwardTab n) := by
  induction n generalizing t with
  | zero => exact .refl
  | succ n ih =>
      obtain ⟨next, hnext, hlt⟩ := nextTabStop_eq h t.cursor.col
      rw [cursorForwardTab, hnext]
      simp only [Option.bind_eq_bind, Option.bind_some]
      split
      · exact .refl
      · have hmove : Reaches env S t (some (t.setCursorCol next)) := reaches_setCursorCol hS h hlt.le
        exact hmove.trans (ih (h.control rfl ⟨h.cursor.row, hlt.le⟩))

theorem reaches_cursorBackwardTab (hS : S .control) (h : t.WellFormed) (n : Nat) :
    Reaches env S t (t.cursorBackwardTab n) := by
  induction n generalizing t with
  | zero => exact .refl
  | succ n ih =>
      obtain ⟨prev, hprev, hle⟩ := prevTabStop_eq h h.cursor.col
      rw [cursorBackwardTab, hprev]
      simp only [Option.bind_eq_bind, Option.bind_some]
      split
      · exact .refl
      · have hle : prev ≤ t.cols := hle.trans h.cursor.col
        have hmove : Reaches env S t (some (t.setCursorCol prev)) := reaches_setCursorCol hS h hle
        exact hmove.trans (ih (h.control rfl ⟨h.cursor.row, hle⟩))

theorem reaches_setTabStop (hS : S .control) (h : t.WellFormed) (stop : Bool) :
    Reaches env S t (t.setTabStop stop) := by
  have hlt : t.visibleCol < t.tabStops.length := by
    rw [h.tabStops]
    exact visibleCol_lt h
  rw [setTabStop, write?_eq_some hlt]
  exact reaches_control hS List.length_set h.cursor

theorem reaches_clearTabStops (hS : S .control) (h : t.WellFormed) : Reaches env S t (some t.clearTabStops) :=
  reaches_control hS (List.length_map _) h.cursor

/-! ## カーソル -/

theorem originRowBounds_inside (h : t.WellFormed) :
    t.originRowBounds.1 ≤ t.originRowBounds.2 ∧ t.originRowBounds.2 < t.rows := by
  unfold originRowBounds
  split
  · exact ⟨h.top, h.bottom⟩
  · exact ⟨Nat.zero_le _, Nat.sub_lt h.rows Nat.one_pos⟩

theorem cursorUp_row (h : t.WellFormed) (n : Nat) : (t.cursorUp n).cursor.row < t.rows := by
  have hbounds := originRowBounds_inside h
  have hrow := h.cursor.row
  simp only [cursorUp, setCursorRow]
  omega

theorem cursorDown_row (h : t.WellFormed) (n : Nat) : (t.cursorDown n).cursor.row < t.rows := by
  have hbounds := originRowBounds_inside h
  simp only [cursorDown, setCursorRow]
  omega

theorem reaches_cursorForward (hS : S .control) (h : t.WellFormed) (n : Nat) :
    Reaches env S t (t.cursorForward n) := by
  rw [cursorForward, sub?_eq_some h.cols]
  exact reaches_setCursorCol hS h (by omega)

theorem reaches_cursorColumn (hS : S .control) (h : t.WellFormed) (n : Nat) : Reaches env S t (t.cursorColumn n) := by
  rw [cursorColumn, sub?_eq_some h.cols]
  exact reaches_setCursorCol hS h (by omega)

theorem reaches_cursorLine (hS : S .control) (h : t.WellFormed) (n : Nat) : Reaches env S t (t.cursorLine n) := by
  have hbounds := originRowBounds_inside h
  simp only [cursorLine, clamp?_eq_some hbounds.1, Option.bind_eq_bind, Option.bind_some]
  exact reaches_setCursorRow hS h (by omega)

theorem reaches_cursorPosition (hS : S .control) (h : t.WellFormed) (row col : Nat) :
    Reaches env S t (t.cursorPosition row col) :=
  (reaches_cursorLine hS h row).bind h fun _ h' _ => reaches_cursorColumn hS h' col

theorem reaches_setScrollRegion (hcontrol : S .control) (hmargins : S .margins) (h : t.WellFormed) (p0 p1 : Nat) :
    Reaches env S t (t.setScrollRegion p0 p1) := by
  have hrows := h.rows
  simp only [setScrollRegion, sub?_eq_some h.rows, Option.bind_eq_bind, Option.bind_some]
  generalize htop : (if p0 = 0 then 0 else min (p0 - 1) (t.rows - 1)) = top
  generalize hbot : (if p1 = 0 then t.rows - 1 else min (p1 - 1) (t.rows - 1)) = bot
  have hlt : bot < t.rows := by
    rw [← hbot]
    split <;> omega
  split
  · have hle : top ≤ bot := by omega
    have hregion : Reaches env S t (some { t with scrollTop := top, scrollBottom := bot }) :=
      .single hmargins (.margins top bot hle hlt)
    have hwf : { t with scrollTop := top, scrollBottom := bot }.WellFormed := { h with top := hle, bottom := hlt }
    have hbounds := originRowBounds_inside hwf
    exact hregion.trans (reaches_setCursor hcontrol (by omega) (Nat.zero_le _))
  · exact .refl

theorem reaches_restoreCursorDecrc (hS : S .control) (h : t.WellFormed) :
    Reaches env S t (some t.restoreCursorDecrc) := by
  unfold restoreCursorDecrc
  split
  · have hrows := h.rows
    exact reaches_control hS rfl ⟨by dsimp only; omega, Nat.min_le_right ..⟩
  · exact .refl

end Terminal

end IsekaiTerminal.Emulator
