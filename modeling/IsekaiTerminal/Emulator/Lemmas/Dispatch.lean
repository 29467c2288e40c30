import IsekaiTerminal.Emulator.Lemmas.Reaches

/-!
# 遷移は変化の列である

印字と、シーケンスの振り分けを調べる。どの遷移も panic せず、構造の不変条件を保つ。
-/

namespace IsekaiTerminal.Emulator

open Lib (sub?_eq_some write?_eq_some)

variable {env : Env} {t t' : Terminal} {S : Kind → Prop}

namespace Terminal

/-! ## 印字 -/

theorem setCell?_eq {r c : Nat} {row : Row} (hrow : t.cells[r]? = some row) (hc : c < row.length) (cell : TermCell) :
    t.setCell? r c cell = some (t.setCells (t.cells.set r (row.set c cell))) := by
  have hlt : r < t.cells.length := (List.getElem?_eq_some_iff.mp hrow).1
  simp only [setCell?, hrow, write?_eq_some hc, setRow?_eq hlt, Option.bind_eq_bind, Option.bind_some]

theorem cell?_eq {r : Nat} {row : Row} (hrow : t.cells[r]? = some row) (c : Nat) : t.cell? r c = row[c]? := by
  rw [cell?, hrow]
  rfl

theorem reaches_attachCombining (hS : S .combine) (h : t.WellFormed) {c : Char} (hzero : charWidth env c = 0) :
    Reaches env S t (t.attachCombining c) := by
  obtain ⟨row, hrow, hwidth⟩ := h.cursorRow
  have hattach {col : Nat} {cell : TermCell} (hcell : row[col]? = some cell)
      (hhead : cell.isWidePlaceholder = true → col = 0 ∨ ∃ right, row[col + 1]? = some right ∧ right.isWidePlaceholder) :
      Reaches env S t ((t.cell? t.cursor.row col).bind fun cell =>
        if utf8Len cell.ch + c.utf8Size > maxCombiningBytesPerCell then some t
        else t.setCell? t.cursor.row col { cell with ch := cell.ch ++ [c] }) := by
    rw [cell?_eq hrow, hcell, Option.bind_some]
    split
    · exact .refl
    · rw [setCell?_eq hrow (List.getElem?_eq_some_iff.mp hcell).1]
      exact .single hS (.combine c row col cell hzero hrow hcell hhead)
  unfold attachCombining
  split
  · exact .refl
  · have hcol := h.cursor.col
    have hlt : t.cursor.col - 1 < row.length := by omega
    have hcell := List.getElem?_eq_getElem hlt
    simp only [cell?_eq hrow, hcell, Option.map_some, Option.bind_eq_bind]
    by_cases hpos : t.cursor.col - 1 > 0
    · simp only [hpos, ↓reduceIte, Option.bind_some]
      by_cases hplaceholder : (row[t.cursor.col - 1]).isWidePlaceholder = true
      · simp only [hplaceholder, ↓reduceIte]
        have hnext : t.cursor.col - 1 - 1 + 1 = t.cursor.col - 1 := by omega
        rw [← cell?_eq hrow]
        exact hattach (List.getElem?_eq_getElem (by omega)) fun _ => .inr ⟨_, by rw [hnext, hcell], hplaceholder⟩
      · simp only [hplaceholder]
        rw [← cell?_eq hrow]
        exact hattach hcell fun h => (hplaceholder h).elim
    · simp only [hpos, ↓reduceIte, Option.bind_some, Bool.false_eq_true]
      rw [← cell?_eq hrow]
      exact hattach hcell fun _ => .inl (by omega)

theorem writeGraphic_eq (h : t.WellFormed) {c : Char} {width : Nat} {row : Row}
    (hrow : t.cells[t.cursor.row]? = some row) (hcol : t.cursor.col < t.cols) :
    t.writeGraphic env c width = some (t.written env c width row) := by
  have hwidth : row.length = t.cols := h.cells.width row (List.mem_of_getElem? hrow)
  have hlt : t.cursor.row < t.cells.length := (List.getElem?_eq_some_iff.mp hrow).1
  have hset (g : Row) : (t.cells.set t.cursor.row g)[t.cursor.row]? = some g := List.getElem?_set_self hlt
  generalize hu : { t with lastGraphicCell := some (c, t.cursor.attrs, t.links.activeLinkId) } = u
  have hcells : u.cells = t.cells := by rw [← hu]; rfl
  have hcursor : u.cursor = t.cursor := by rw [← hu]
  have hlinks : u.links = t.links := by rw [← hu]
  have hfirst : u.setCell? t.cursor.row t.cursor.col (u.graphicCell c) =
      some (u.setCells (t.cells.set t.cursor.row (row.set t.cursor.col (t.graphicCell c)))) := by
    rw [setCell?_eq (hcells ▸ hrow) (by omega), hcells, graphicCell, hcursor, hlinks, graphicCell]
  have hmodes : u.modes = t.modes := by rw [← hu]
  have hcols : u.cols = t.cols := by rw [← hu]
  simp only [writeGraphic, h.cursor.row, ↓reduceIte, written, writtenRow, writtenCol, hu, hfirst, Option.bind_eq_bind,
    Option.bind_some]
  have hlen : (row.set t.cursor.col (t.graphicCell c)).length = t.cols := by rw [List.length_set, hwidth]
  generalize row.set t.cursor.col (t.graphicCell c) = first at hlen ⊢
  have hread : (u.setCells (t.cells.set t.cursor.row first)).cells[t.cursor.row]? = some first := by
    rw [cells_setCells, hset]
  by_cases hroom : t.hasRoomForPlaceholder width = true
  · have hsecond : t.cursor.col + 1 < first.length := by
      simp only [hasRoomForPlaceholder, Bool.and_eq_true, decide_eq_true_eq] at hroom
      omega
    rw [setCell?_eq hread hsecond]
    simp [hroom, hmodes, hcols, hcursor, hlinks, placeholderCell]
  · simp only [hroom, hmodes, setCells_modes, Bool.false_eq_true, ↓reduceIte]
    split
    · rw [sanitizeWideRow_eq hread]
      simp [hcols, hmodes]
    · simp [hcols]

section

variable (t : Terminal) (top n : Nat)

@[simp] theorem linesUp_cursor : (t.linesUp top n).cursor = t.cursor := setCells_cursor ..
@[simp] theorem linesUp_cols : (t.linesUp top n).cols = t.cols := setCells_cols ..
@[simp] theorem pushedRows_cursor : (t.pushedRows n).cursor = t.cursor := by rw [pushedRows, trimPendingScrollback_eq]
@[simp] theorem pushedRows_cols : (t.pushedRows n).cols = t.cols := by rw [pushedRows, trimPendingScrollback_eq]

@[simp] theorem scrolledUp_cursor : (t.scrolledUp n).cursor = t.cursor := by unfold scrolledUp; split <;> simp
@[simp] theorem scrolledUp_cols : (t.scrolledUp n).cols = t.cols := by unfold scrolledUp; split <;> simp

end

theorem newline_col (h : t.WellFormed) (hstep : t.newline = some t') :
    t'.cursor.col = t.cursor.col ∧ t'.cols = t.cols := by
  unfold newline at hstep
  split at hstep
  · rw [scrollUpRegion_eq h] at hstep
    injection hstep with hstep
    rw [← hstep, scrolledUp_cursor, scrolledUp_cols]
    exact ⟨rfl, rfl⟩
  · rw [sub?_eq_some h.rows, Option.bind_eq_bind, Option.bind_some] at hstep
    split at hstep
    · injection hstep with hstep
      rw [← hstep]
      exact ⟨rfl, rfl⟩
    · injection hstep with hstep
      rw [← hstep]
      exact ⟨rfl, rfl⟩

theorem reaches_wrap (hcontrol : S .control) (hscroll : S .scroll) (h : t.WellFormed) (width : Nat) :
    Reaches env S t (t.wrap width) := by
  unfold wrap
  split
  · split
    · have hwf : (t.setCursorCol 0).WellFormed := h.control rfl ⟨h.cursor.row, Nat.zero_le _⟩
      have hmove : Reaches env S t (some (t.setCursorCol 0)) := reaches_setCursorCol hcontrol h (Nat.zero_le _)
      exact hmove.trans (reaches_newline hcontrol hscroll hwf)
    · exact reaches_setCursorCol hcontrol h (Nat.sub_le ..)
  · exact .refl

/-- 折り返した後は、折り返し待ちではない。 -/
theorem wrap_col (h : t.WellFormed) {width : Nat} (hstep : t.wrap width = some t') : t'.cursor.col < t'.cols := by
  have hcols := h.cols
  unfold wrap at hstep
  split at hstep
  · split at hstep
    · have hwf : (t.setCursorCol 0).WellFormed := h.control rfl ⟨h.cursor.row, Nat.zero_le _⟩
      obtain ⟨hcol, hcols'⟩ := newline_col hwf hstep
      rw [hcol, hcols']
      exact hcols
    · injection hstep with hstep
      rw [← hstep]
      exact Nat.sub_lt hcols Nat.one_pos
  · rename_i hwrap
    injection hstep with hstep
    rw [← hstep]
    simp only [needsWrap, Bool.or_eq_true, decide_eq_true_eq, not_or] at hwrap
    omega

/-- 印字が起こす変化。 -/
structure Prints (S : Kind → Prop) : Prop where
  control : S .control
  scroll : S .scroll
  write : S .write
  combine : S .combine

theorem reaches_printMapped (hS : Prints S) (h : t.WellFormed) (c : Char) : Reaches env S t (t.printMapped env c) := by
  simp only [printMapped]
  split
  · exact reaches_attachCombining hS.combine h ‹_›
  · refine (reaches_wrap hS.control hS.scroll h _).bind h fun u hu hwrap => ?_
    obtain ⟨row, hrow, -⟩ := hu.cursorRow
    have hcol := wrap_col h hwrap
    exact .of_eq (writeGraphic_eq hu hrow hcol) (.single hS.write (.write c row hrow hcol))

theorem reaches_print (hS : Prints S) (h : t.WellFormed) (c : Char) : Reaches env S t (t.print env c) := by
  have hcapture (c : Char) : Reaches env S t (some (t.captureChar c)) ∧ (t.captureChar c).WellFormed := by
    unfold captureChar
    split
    · exact ⟨reaches_outer hS.control h, h.control rfl h.cursor⟩
    · exact ⟨.refl, h⟩
  exact (hcapture _).1.trans (reaches_printMapped hS (hcapture _).2 _)

theorem reaches_printTimes (hS : Prints S) (c : Char) (n : Nat) (h : t.WellFormed) :
    Reaches env S t (printTimes env c n t) := by
  induction n generalizing t with
  | zero => exact .refl
  | succ n ih => exact (reaches_printMapped hS h c).bind h fun _ h' _ => ih h'

theorem printMapped_wellFormed (env : Env) (h : t.WellFormed) (c : Char) :
    ∃ t', t.printMapped env c = some t' ∧ t'.WellFormed :=
  (reaches_printMapped ⟨trivial, trivial, trivial, trivial⟩ h c : Reaches env (fun _ => True) t _).wellFormed h

theorem printTimes_wellFormed (env : Env) (h : t.WellFormed) (c : Char) (n : Nat) :
    ∃ t', printTimes env c n t = some t' ∧ t'.WellFormed :=
  (reaches_printTimes ⟨trivial, trivial, trivial, trivial⟩ c n h : Reaches env (fun _ => True) t _).wellFormed h

@[simp] theorem linesUp_links (t : Terminal) (top n : Nat) : (t.linesUp top n).links = t.links := setCells_links ..

@[simp] theorem linesDown_links (t : Terminal) (top n : Nat) : (t.linesDown top n).links = t.links := setCells_links ..

@[simp] theorem pushedRows_links (t : Terminal) (k : Nat) : (t.pushedRows k).links = t.links := by
  rw [pushedRows, trimPendingScrollback_eq]

@[simp] theorem scrolledUp_links (t : Terminal) (n : Nat) : (t.scrolledUp n).links = t.links := by
  unfold scrolledUp
  split <;> simp

theorem switchToAlt_links {saveCursor : Bool} (hstep : t.switchToAlt saveCursor = some t') :
    t'.links.linkTable = t.links.linkTable := by
  unfold switchToAlt at hstep
  split at hstep
  · injection hstep with hstep
    rw [← hstep]
  · obtain ⟨_, -, hstep⟩ := Option.bind_eq_some_iff.mp hstep
    injection hstep with hstep
    rw [← hstep]
    rfl

theorem switchToMain_links (t : Terminal) (restoreCursor : Bool) :
    (t.switchToMain restoreCursor).links.linkTable = t.links.linkTable := by
  unfold switchToMain
  split <;> rfl

/-- リンクの表は縮まない。 -/
theorem Change.linkTable_mono {k : Kind} (h : t.WellFormed) (hchange : Change env k t t') :
    t.links.linkTable.length ≤ t'.links.linkTable.length := by
  cases hchange with
  | control => exact Nat.le_refl _
  | setLink uri => exact (h.links.setActive uri).2
  | activeLink => exact Nat.le_refl _
  | save => unfold saveCursorDecsc; split <;> exact Nat.le_refl _
  | margins => exact Nat.le_refl _
  | scroll => rw [scrolledUp_links]
  | linesUp => rw [linesUp_links]
  | linesDown => rw [linesDown_links]
  | edit => rw [editedRow, setCells_links]
  | erase => rw [eraseCells, setCells_links]
  | write => simp only [written, setCursorCol, setCells_links]; exact Nat.le_refl _
  | combine => rw [combined, setCells_links]
  | toAlt _ switch => rw [switchToAlt_links switch]
  | toMain => rw [switchToMain_links]
  | reset => exact Nat.le_refl _
  | graphics => exact Nat.le_refl _
  | resize => simp only [resized, resizedCells, trimPendingScrollback_eq]; exact Nat.le_refl _

theorem Runs.linkTable_mono (h : t.WellFormed) (hruns : Runs env S t t') :
    t.links.linkTable.length ≤ t'.links.linkTable.length := by
  induction hruns with
  | refl => exact Nat.le_refl _
  | tail hruns hstep ih =>
      obtain ⟨k, -, hchange⟩ := hstep
      exact ih.trans (Change.linkTable_mono (Runs.wellFormed h hruns) hchange)

theorem reaches_repeatGraphic (hS : Prints S) (hlink : S .link) (h : t.WellFormed) (n : Nat) :
    Reaches env S t (t.repeatGraphic env n) := by
  unfold repeatGraphic
  split
  · rename_i c attrs linkId hgraphic
    have hid : ∀ i ∈ linkId, i < t.links.linkTable.length := h.graphicLink _ hgraphic
    have hattrs : (t.setAttrs attrs).WellFormed := h.control rfl ⟨h.cursor.row, h.cursor.col⟩
    have hwf : ((t.setAttrs attrs).setActiveLink linkId).WellFormed := hattrs.setActiveLink hid
    have hprepare : Reaches env S t (some ((t.setAttrs attrs).setActiveLink linkId)) :=
      (reaches_setAttrs hS.control h attrs).trans (.single hlink (.activeLink linkId hid))
    obtain ⟨u, hu, hruns⟩ := reaches_printTimes hS c (min n (max (t.cols * t.rows) 1)) hwf
    have huwf := Runs.wellFormed hwf hruns
    have hmono := Runs.linkTable_mono hwf hruns
    have hrestore : ∀ i ∈ t.links.activeLinkId, i < u.links.linkTable.length :=
      fun i hi => Nat.lt_of_lt_of_le (h.links.active i hi) hmono
    dsimp only
    rw [hu]
    refine hprepare.trans (.trans ⟨u, rfl, hruns⟩ ?_)
    exact (reaches_setAttrs hS.control huwf _).trans (.single hlink (.activeLink _ hrestore))
  · exact .refl

/-! ## CSI -/

theorem reaches_switchToAlt (hS : S .toAlt) (h : t.WellFormed) (saveCursor : Bool) :
    Reaches env S t (t.switchToAlt saveCursor) := by
  have hsome : ∃ t', t.switchToAlt saveCursor = some t' := by
    unfold switchToAlt
    split
    · exact ⟨t, rfl⟩
    · rw [sub?_eq_some h.rows]
      exact ⟨_, rfl⟩
  obtain ⟨t', heq⟩ := hsome
  exact .of_eq heq (.single hS (.toAlt saveCursor heq))

theorem reaches_setDecMode (hcontrol : S .control) (halt : S .toAlt) {on : Bool} {p : UInt16}
    (hmain : on = false → p = 47 ∨ p = 1047 ∨ p = 1049 → S .toMain) (h : t.WellFormed) :
    Reaches env S t (t.setDecMode on p) := by
  unfold setDecMode
  iterate 6 refine .ite (fun _ => reaches_outer hcontrol h) fun _ => ?_
  refine .ite (fun h47 => .ite (fun _ => reaches_switchToAlt halt h _) fun hon => ?_) fun _ => ?_
  · have hp : p = 47 ∨ p = 1047 ∨ p = 1049 := h47.imp_right .inl
    exact .single (hmain (Bool.eq_false_of_not_eq_true hon) hp) (.toMain false)
  refine .ite (fun h1049 => .ite (fun _ => reaches_switchToAlt halt h _) fun hon => ?_) fun _ => ?_
  · exact .single (hmain (Bool.eq_false_of_not_eq_true hon) (.inr (.inr h1049))) (.toMain true)
  iterate 4 refine .ite (fun _ => reaches_outer hcontrol h) fun _ => ?_
  refine .ite (fun _ => ?_) fun _ => ?_
  · have hrow : (if on then t.scrollTop else 0) < t.rows := by
      have := h.top
      have := h.bottom
      split <;> omega
    exact reaches_control hcontrol rfl ⟨hrow, Nat.zero_le _⟩
  iterate 3 refine .ite (fun _ => reaches_outer hcontrol h) fun _ => ?_
  exact .refl

theorem reaches_foldlM {f : Terminal → UInt16 → Option Terminal} (ps : List UInt16)
    (hf : ∀ p ∈ ps, ∀ t, t.WellFormed → Reaches env S t (f t p)) (h : t.WellFormed) :
    Reaches env S t (ps.foldlM f t) := by
  induction ps generalizing t with
  | nil => exact .refl
  | cons p ps ih =>
      rw [List.foldlM_cons]
      refine (hf p List.mem_cons_self t h).bind h fun u hu _ => ?_
      exact ih (fun q hq => hf q (List.mem_cons_of_mem p hq)) hu

theorem reaches_setDecModes (hcontrol : S .control) (halt : S .toAlt) {action : Char} {ps : List UInt16}
    (hmain : action = 'l' → ∀ p ∈ ps, p = 47 ∨ p = 1047 ∨ p = 1049 → S .toMain) (h : t.WellFormed) :
    Reaches env S t (t.setDecModes action ps) := by
  unfold setDecModes
  refine .ite (fun _ => ?_) fun _ => .ite (fun hl => ?_) fun _ => .refl
  · exact reaches_foldlM ps (fun p _ t ht => reaches_setDecMode hcontrol halt (fun h => (nomatch h)) ht) h
  · exact reaches_foldlM ps (fun p hp t ht => reaches_setDecMode hcontrol halt (fun _ => hmain hl p hp) ht) h

end Terminal

/-! ## 遷移の種類 -/

namespace Event

/-- ED と EL。 -/
def isErase : Event → Bool
  | .csiDispatch _ _ action => action = 'J' || action = 'K'
  | _ => false

/-- 印字と REP。 -/
def isPrint : Event → Bool
  | .print _ => true
  | .csiDispatch _ _ action => action = 'b'
  | _ => false

/-- この遷移が起こし得る変化。 -/
def Allows (ev : Event) : Kind → Prop
  | .toMain => ev.isAltExit = true
  | .reset => ev.isReset = true
  | .resize => ev.isResize = true
  | .erase => ev.isErase = true
  | .write | .combine => ev.isPrint = true
  | _ => True

end Event

namespace Terminal

theorem reaches_csiAction (h : t.WellFormed) (params : Params) (intermediates : List UInt8) (action : Char) :
    Reaches env (Event.csiDispatch params intermediates action).Allows t
      (t.csiAction env params intermediates action) := by
  have hn (p : UInt16) : 0 < max p.toNat 1 := Nat.lt_of_lt_of_le Nat.one_pos (Nat.le_max_right ..)
  unfold csiAction
  dsimp only
  split
  · exact reaches_setCursorRow trivial h (cursorUp_row h _)
  · exact reaches_setCursorRow trivial h (cursorDown_row h _)
  · exact reaches_cursorForward trivial h _
  · exact reaches_setCursorCol trivial h ((Nat.sub_le ..).trans h.cursor.col)
  · exact reaches_control trivial rfl ⟨cursorDown_row h _, Nat.zero_le _⟩
  · exact reaches_control trivial rfl ⟨cursorUp_row h _, Nat.zero_le _⟩
  · exact reaches_cursorColumn trivial h _
  · exact reaches_cursorColumn trivial h _
  · exact reaches_cursorForwardTab trivial h _
  · exact reaches_cursorBackwardTab trivial h _
  · exact reaches_cursorPosition trivial h _ _
  · exact reaches_cursorPosition trivial h _ _
  · have herase : (Event.csiDispatch params intermediates 'J').Allows .erase := rfl
    exact reaches_eraseInDisplay trivial trivial herase h _
  · have herase : (Event.csiDispatch params intermediates 'K').Allows .erase := rfl
    exact reaches_eraseInLine herase _
  · exact reaches_insertLines trivial h _
  · exact reaches_deleteLines trivial h _
  · exact reaches_insertChars trivial h (hn _)
  · exact reaches_deleteChars trivial h (hn _)
  · exact reaches_eraseChars trivial h (hn _)
  · exact reaches_scrollUpRegion trivial h _
  · exact .ite (fun _ => reaches_scrollDownRegion trivial h _) fun _ => .refl
  · have hprints : Prints (Event.csiDispatch params intermediates 'b').Allows := ⟨trivial, trivial, rfl, rfl⟩
    exact reaches_repeatGraphic hprints trivial h _
  · exact reaches_cursorLine trivial h _
  · exact .ite (fun _ => reaches_setTabStop trivial h _) fun _ =>
      .ite (fun _ => reaches_clearTabStops trivial h) fun _ => .refl
  · exact reaches_setAttrs trivial h _
  · exact reaches_setScrollRegion trivial trivial h _ _
  · exact .single (k := .save) trivial .save
  · exact reaches_restoreCursorDecrc trivial h
  · exact .refl

theorem reaches_popKittyFlags (hS : S .control) (h : t.WellFormed) (p0 : UInt16) :
    Reaches env S t (t.popKittyFlags p0) := by
  rw [popKittyFlags, sub?_eq_some (Nat.min_le_right ..)]
  exact reaches_outer hS h

theorem reaches_setCursorShapeFromDecscusr (hS : S .control) (h : t.WellFormed) (p : UInt16) :
    Reaches env S t (some (t.setCursorShapeFromDecscusr p)) := by
  unfold setCursorShapeFromDecscusr
  dsimp only
  split_ifs <;> exact reaches_outer hS h

theorem reaches_deviceStatusReport (hS : S .control) (h : t.WellFormed) (p0 : UInt16) :
    Reaches env S t (some (t.deviceStatusReport p0)) := by
  unfold deviceStatusReport
  split
  · exact reaches_outer hS h
  · split
    · exact reaches_outer hS h
    · exact .refl

theorem reaches_csiDispatch (h : t.WellFormed) (params : Params) (intermediates : List UInt8) (action : Char) :
    Reaches env (Event.csiDispatch params intermediates action).Allows t
      (t.csiDispatch env params intermediates action) := by
  unfold csiDispatch
  dsimp only
  refine .ite (fun _ => ?_) fun _ => .ite (fun _ => ?_) fun _ => .ite (fun _ => ?_) fun _ => .ite (fun _ => ?_) fun _ =>
    .ite (fun hdec => ?_) fun _ => .ite (fun _ => ?_) fun _ => .ite (fun _ => ?_) fun _ => .ite (fun _ => ?_) fun _ =>
    .ite (fun _ => ?_) fun _ => reaches_csiAction h params intermediates action
  · exact reaches_outer trivial h
  · exact reaches_popKittyFlags trivial h _
  · exact reaches_outer trivial h
  · exact reaches_outer trivial h
  · refine reaches_setDecModes trivial trivial (fun hl p hp h47 => ?_) h
    obtain ⟨param, hparam, rfl⟩ := List.mem_map.mp hp
    simp only [Event.Allows, Event.isAltExit, hl, hdec, Bool.and_eq_true, decide_eq_true_eq, List.any_eq_true,
      Bool.or_eq_true, or_assoc]
    exact ⟨⟨trivial, trivial⟩, param, hparam, h47⟩
  · exact reaches_setCursorShapeFromDecscusr trivial h _
  · exact reaches_outer trivial h
  · exact reaches_outer trivial h
  · exact reaches_deviceStatusReport trivial h _

/-! ## その他のコールバック -/

theorem reaches_execute (hcontrol : S .control) (hscroll : S .scroll) (h : t.WellFormed) (byte : UInt8) :
    Reaches env S t (t.execute byte) := by
  unfold execute
  refine .ite (fun _ => reaches_outer hcontrol h) fun _ => .ite (fun _ => ?_) fun _ => .ite (fun _ => ?_) fun _ =>
    .ite (fun _ => ?_) fun _ => .ite (fun _ => ?_) fun _ => .ite (fun _ => ?_) fun _ => .ite (fun _ => ?_) fun _ => .refl
  · exact reaches_setCursorCol hcontrol h (Nat.zero_le _)
  · have hcapture : Reaches env S t (some t.captureLine) ∧ t.captureLine.WellFormed := by
      unfold captureLine
      split
      · exact ⟨reaches_outer hcontrol h, h.control rfl h.cursor⟩
      · exact ⟨.refl, h⟩
    exact hcapture.1.trans (reaches_newline hcontrol hscroll hcapture.2)
  · exact reaches_setCursorCol hcontrol h ((Nat.sub_le ..).trans h.cursor.col)
  · exact reaches_control hcontrol rfl ⟨h.cursor.row, h.cursor.col⟩
  · exact reaches_control hcontrol rfl ⟨h.cursor.row, h.cursor.col⟩
  · obtain ⟨next, hnext, hlt⟩ := nextTabStop_eq h t.cursor.col
    rw [hnext]
    exact reaches_setCursorCol hcontrol h hlt.le

theorem reaches_handleOscDefaultColor (hS : S .control) (h : t.WellFormed) (target : DefaultColorTarget)
    (spec : List UInt8) (bellTerminated : Bool) :
    Reaches env S t (some (t.handleOscDefaultColor target spec bellTerminated)) := by
  unfold handleOscDefaultColor
  split
  · exact reaches_outer hS h
  · split
    · cases target with
      | foreground => exact reaches_control hS rfl ⟨h.cursor.row, h.cursor.col⟩
      | background => exact reaches_control hS rfl ⟨h.cursor.row, h.cursor.col⟩
      | cursor => exact reaches_outer hS h
    · exact .refl

theorem reaches_handleOsc6Iterm2TabColor (hS : S .control) (h : t.WellFormed) (params : List (List UInt8)) :
    Reaches env S t (some (t.handleOsc6Iterm2TabColor params)) := by
  unfold handleOsc6Iterm2TabColor
  split
  · dsimp only
    split
    · split_ifs
      · exact reaches_outer hS h
      · exact reaches_outer hS h
      · exact reaches_outer hS h
      · exact .refl
    · exact .refl
  · exact .refl

theorem reaches_handleOsc133PromptMark (hS : S .control) (h : t.WellFormed) (sub : List UInt8)
    (extra : Option (List UInt8)) : Reaches env S t (some (t.handleOsc133PromptMark sub extra)) := by
  unfold handleOsc133PromptMark
  split
  · exact reaches_outer hS h
  · exact .refl

theorem reaches_handleOsc52 (hS : S .control) (h : t.WellFormed) (payload : List UInt8) :
    Reaches env S t (some (t.handleOsc52 env payload)) := by
  unfold handleOsc52
  split
  · exact reaches_outer hS h
  · split
    · exact reaches_outer hS h
    · exact .refl

theorem reaches_oscDispatch (hcontrol : S .control) (hlink : S .link) (h : t.WellFormed) (params : List (List UInt8))
    (bellTerminated : Bool) : Reaches env S t (some (t.oscDispatch env params bellTerminated)) := by
  have hlinks : Reaches env S t (some (t.handleOsc8Hyperlink params)) := .single hlink (.setLink _)
  unfold oscDispatch
  dsimp only
  split
  · refine .some_ite (fun _ => ?_) fun _ => .some_ite (fun _ => ?_) fun _ => .some_ite (fun _ => ?_) fun _ =>
      .some_ite (fun _ => ?_) fun _ => .some_ite (fun _ => ?_) fun _ => .some_ite (fun _ => ?_) fun _ =>
      .some_ite (fun _ => ?_) fun _ => .some_ite (fun _ => hlinks) fun _ => .some_ite (fun _ => ?_) fun _ =>
      .some_ite (fun _ => ?_) fun _ => .refl
    · split
      · exact reaches_outer hcontrol h
      · exact .refl
    · exact reaches_handleOscDefaultColor hcontrol h _ _ _
    · exact reaches_handleOscDefaultColor hcontrol h _ _ _
    · exact reaches_handleOscDefaultColor hcontrol h _ _ _
    · exact reaches_outer hcontrol h
    · split
      · exact reaches_outer hcontrol h
      · exact .refl
    · exact reaches_handleOsc6Iterm2TabColor hcontrol h _
    · exact reaches_handleOsc133PromptMark hcontrol h _ _
    · split
      · exact reaches_handleOsc52 hcontrol h _
      · exact .refl
  · exact .some_ite (fun _ => reaches_outer hcontrol h) fun _ => .some_ite (fun _ => hlinks) fun _ => .refl

theorem reaches_escDispatch (h : t.WellFormed) (ints : List UInt8) (byte : UInt8) :
    Reaches env (Event.escDispatch ints byte).Allows t (t.escDispatch ints byte) := by
  unfold escDispatch
  refine .ite (fun hints => ?_) fun _ => .ite (fun _ => ?_) fun _ => .ite (fun _ => ?_) fun _ => .refl
  · refine .ite (fun _ => ?_) fun _ => .ite (fun hbyte => ?_) fun _ => .ite (fun _ => ?_) fun _ =>
      .ite (fun _ => ?_) fun _ => .ite (fun _ => ?_) fun _ => .ite (fun _ => ?_) fun _ => .ite (fun _ => ?_) fun _ => .refl
    · exact reaches_reverseIndex trivial trivial h
    · have hreset : (Event.escDispatch ints byte).Allows .reset := by simp [Event.Allows, Event.isReset, hints, hbyte]
      exact .single hreset .reset
    · exact .single (k := .save) trivial .save
    · exact reaches_restoreCursorDecrc trivial h
    · exact reaches_setTabStop trivial h true
    · exact reaches_outer trivial h
    · exact reaches_outer trivial h
  · exact reaches_control trivial rfl ⟨h.cursor.row, h.cursor.col⟩
  · exact reaches_control trivial rfl ⟨h.cursor.row, h.cursor.col⟩

theorem panelRateLimitAllows_eq (t : Terminal) (now : Nat) :
    ∃ host, (t.panelRateLimitAllows now).2 = { t with host } := by
  unfold panelRateLimitAllows
  dsimp only
  split_ifs
  · exact ⟨_, rfl⟩
  · exact ⟨t.host, rfl⟩

theorem reaches_dispatchApc (hcontrol : S .control) (hgraphics : S .graphics) (h : t.WellFormed) (payload : List UInt8)
    (now : Nat) : Reaches env S t (t.dispatchApc env payload now) := by
  unfold dispatchApc
  split
  · refine .ite (fun _ => ?_) fun _ => .refl
    obtain ⟨host, hhost⟩ := panelRateLimitAllows_eq t now
    dsimp only
    rw [hhost]
    exact .some_ite (fun _ => reaches_outer hcontrol h) fun _ => reaches_outer hcontrol h
  · exact reaches_placed hcontrol hgraphics (dispatchKittyApc_placed h env payload)

theorem reaches_resizePreservingState (hS : S .resize) (h : t.WellFormed) (cols rows : Nat) :
    Reaches env S t (t.resizePreservingState env cols rows) := by
  rw [resizePreservingState_eq h]
  split
  · exact .refl
  · exact .single hS (.resize _ _ ⟨Nat.le_max_right .., Nat.le_max_right ..⟩)

/-- どの遷移も panic せず、その種類の変化の列で終わる。 -/
theorem reaches_step (h : t.WellFormed) (ev : Event) : Reaches env ev.Allows t (t.step env ev) := by
  cases ev with
  | print c =>
      have hprints : Prints (Event.print c).Allows := ⟨trivial, trivial, rfl, rfl⟩
      exact reaches_print hprints h c
  | execute byte => exact reaches_execute trivial trivial h byte
  | csiDispatch params intermediates action => exact reaches_csiDispatch h params intermediates action
  | oscDispatch params bellTerminated => exact reaches_oscDispatch trivial trivial h params bellTerminated
  | escDispatch ints byte => exact reaches_escDispatch h ints byte
  | hook c => exact reaches_placed trivial trivial (setSixelDecoder_placed h _)
  | put byte => exact reaches_placed trivial trivial (setSixelDecoder_placed h _)
  | unhook => exact reaches_placed trivial trivial (unhook_placed h)
  | apc payload now => exact reaches_dispatchApc trivial trivial h payload now
  | resize cols rows =>
      have hresize : (Event.resize cols rows).Allows .resize := rfl
      exact reaches_resizePreservingState hresize h cols rows

theorem step_wellFormed (env : Env) (h : t.WellFormed) (ev : Event) : ∃ t', t.step env ev = some t' ∧ t'.WellFormed :=
  (reaches_step h ev).wellFormed h

theorem exec_wellFormed (env : Env) (h : t.WellFormed) (events : List Event) :
    ∃ t', t.exec env events = some t' ∧ t'.WellFormed := by
  induction events generalizing t with
  | nil => exact ⟨t, rfl, h⟩
  | cons ev events ih =>
      obtain ⟨u, hstep, hu⟩ := step_wellFormed env h ev
      obtain ⟨t', hexec, ht'⟩ := ih hu
      refine ⟨t', ?_, ht'⟩
      rw [exec, List.foldlM_cons, hstep]
      exact hexec

end Terminal

end IsekaiTerminal.Emulator
