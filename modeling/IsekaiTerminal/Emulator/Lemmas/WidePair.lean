import IsekaiTerminal.Emulator.Lemmas.Dispatch
import IsekaiTerminal.Emulator.WellFormed

/-!
# 組を保つ変化

後始末をした行では対応が成り立ち、区間の端が組を分断しなければ、区間の置き換えは対応を保つ。
-/

namespace IsekaiTerminal.Emulator

open Lib (onRegion)

section

variable {env : Env}

/-! ## 行 -/

/-- 左のセルが本体かどうかを受け取り、行の残りの対応を述べる。最後のセルは本体でない。 -/
def CleanFrom (env : Env) : Bool → Row → Prop
  | head, [] => head = false
  | head, cell :: rest =>
    cell.isWidePlaceholder = head ∧ (head = true → cellDisplayWidth env cell ≠ 2) ∧ CleanFrom env (isWideHead env cell) rest

abbrev Clean (env : Env) (row : Row) : Prop := CleanFrom env false row

namespace CleanFrom

variable {head : Bool} {row row' : Row}

theorem append (h : CleanFrom env head row) (h' : Clean env row') : CleanFrom env head (row ++ row') := by
  induction row generalizing head with
  | nil =>
      obtain rfl : head = false := h
      exact h'
  | cons cell row ih => exact ⟨h.1, h.2.1, ih h.2.2⟩

/-- 組を分断しない位置で、行を分ける。 -/
theorem split (h : CleanFrom env head (row ++ row')) (hboundary : row'.head?.any (·.isWidePlaceholder) = false) :
    CleanFrom env head row ∧ Clean env row' := by
  induction row generalizing head with
  | nil =>
      cases row' with
      | nil => exact ⟨h, rfl⟩
      | cons cell rest =>
          obtain rfl : head = false := h.1.symm.trans hboundary
          exact ⟨rfl, h⟩
  | cons cell row ih =>
      obtain ⟨h₁, h₂⟩ := ih h.2.2
      exact ⟨⟨h.1, h.2.1, h₁⟩, h₂⟩

theorem replicate {blank : TermCell} (hholder : blank.isWidePlaceholder = false) (hwidth : cellDisplayWidth env blank ≠ 2)
    (n : Nat) : Clean env (List.replicate n blank) := by
  have hhead : isWideHead env blank = false := by simp [isWideHead, hwidth]
  induction n with
  | zero => rfl
  | succ n ih =>
      rw [List.replicate_succ]
      refine ⟨hholder, fun h => absurd h Bool.false_ne_true, ?_⟩
      rw [hhead]
      exact ih

/-- 対応は、占有と幅だけで決まる。 -/
theorem congr (h : CleanFrom env head row)
    (heq : row'.map (fun cell => (cell.isWidePlaceholder, cellDisplayWidth env cell = 2)) =
      row.map fun cell => (cell.isWidePlaceholder, cellDisplayWidth env cell = 2)) : CleanFrom env head row' := by
  induction row generalizing head row' with
  | nil =>
      obtain rfl := List.map_eq_nil_iff.mp heq
      exact h
  | cons cell row ih =>
      cases row' with
      | nil => exact nomatch heq
      | cons cell' row' =>
          injection heq with hcell hrest
          injection hcell with hholder hwidth
          have hhead : isWideHead env cell' = isWideHead env cell := by simp only [isWideHead, hholder, hwidth]
          exact ⟨hholder.trans h.1, fun hh => (iff_of_eq hwidth).not.mpr (h.2.1 hh), hhead ▸ ih h.2.2 hrest⟩

theorem holder (h : CleanFrom env head row) {cell : TermCell} (hcell : cell ∈ row)
    (hholder : cell.isWidePlaceholder = true) : cellDisplayWidth env cell ≠ 2 := by
  induction row generalizing head with
  | nil => exact nomatch hcell
  | cons cell' row ih =>
      rcases List.mem_cons.mp hcell with rfl | hcell
      · exact h.2.1 (h.1.symm.trans hholder)
      · exact ih h.2.2 hcell

end CleanFrom

theorem width_blank (hspace : env.width ' ' ≠ some 2) {cell : TermCell} (hch : cell.ch = [' ']) :
    cellDisplayWidth env cell ≠ 2 := by
  rw [cellDisplayWidth, hch]
  simp only [List.head?_cons, Option.bind_some]
  cases hw : env.width ' ' with
  | none => decide
  | some w => exact fun h => hspace (hw.trans (congrArg some h))

/-- 占有のセルは本体でない。 -/
theorem isWideHead_of_holder {cell : TermCell} (h : cell.isWidePlaceholder = true) : isWideHead env cell = false := by
  simp [isWideHead, h]

theorem isWideHead_of_width {cell : TermCell} (h : cellDisplayWidth env cell ≠ 2) : isWideHead env cell = false := by
  simp [isWideHead, h]

/-- 後始末をしたセルが占有であるのは、左が本体であるときに限る。本体の右は占有のセルである。 -/
theorem sanitizeCell_spec (hspace : env.width ' ' ≠ some 2) {left right : Option TermCell} {cell : TermCell}
    (hcell : cell.isWidePlaceholder = true → cellDisplayWidth env cell ≠ 2)
    (hleft : ∀ l ∈ left, cellDisplayWidth env l = 2 ↔ isWideHead env l = true)
    (hnext : left.any (isWideHead env) = true → cell.isWidePlaceholder = true) :
    (sanitizeCell env left cell right).isWidePlaceholder = left.any (isWideHead env) ∧
      (left.any (isWideHead env) = true → cellDisplayWidth env (sanitizeCell env left cell right) ≠ 2) ∧
      (isWideHead env (sanitizeCell env left cell right) = true → right.any (·.isWidePlaceholder) = true) := by
  have hany : (left.any fun l => cellDisplayWidth env l = 2) = left.any (isWideHead env) := by
    cases left with
    | none => rfl
    | some l => exact Bool.eq_iff_iff.mpr (decide_eq_true_iff.trans (hleft l rfl))
  cases hholder : cell.isWidePlaceholder with
  | true =>
      have hwidth := hcell hholder
      cases hhead : left.any (isWideHead env) with
      | true =>
          have heq : sanitizeCell env left cell right = cell := by simp [sanitizeCell, hholder, hany, hhead]
          rw [heq, isWideHead_of_holder hholder]
          exact ⟨hholder, fun _ => hwidth, fun h => absurd h Bool.false_ne_true⟩
      | false =>
          have heq : sanitizeCell env left cell right = { cell with isWidePlaceholder := false } := by
            simp [sanitizeCell, hholder, hany, hhead]
          have hwidth' : cellDisplayWidth env { cell with isWidePlaceholder := false } ≠ 2 := hwidth
          rw [heq, isWideHead_of_width hwidth']
          exact ⟨rfl, fun _ => hwidth, fun h => absurd h Bool.false_ne_true⟩
  | false =>
      have hhead : left.any (isWideHead env) = false :=
        Bool.eq_false_of_not_eq_true fun h => Bool.false_ne_true (hholder.symm.trans (hnext h))
      rw [hhead]
      by_cases hwidth : cellDisplayWidth env cell = 2
      · cases hright : right.any (·.isWidePlaceholder) with
        | true =>
            have heq : sanitizeCell env left cell right = cell := by simp [sanitizeCell, hholder, hwidth, hright]
            rw [heq]
            exact ⟨hholder, fun h => absurd h Bool.false_ne_true, fun _ => rfl⟩
        | false =>
            have heq : sanitizeCell env left cell right = { cell with ch := [' '] } := by
              simp [sanitizeCell, hholder, hwidth, hright]
            rw [heq, isWideHead_of_width (width_blank hspace rfl)]
            exact ⟨hholder, fun h => absurd h Bool.false_ne_true, fun h => h⟩
      · have heq : sanitizeCell env left cell right = cell := by simp [sanitizeCell, hholder, hwidth]
        rw [heq, isWideHead_of_width hwidth]
        exact ⟨hholder, fun h => absurd h Bool.false_ne_true, fun h => absurd h Bool.false_ne_true⟩

theorem sanitizeFrom_clean (hspace : env.width ' ' ≠ some 2) {row : Row}
    (hholders : ∀ cell ∈ row, cell.isWidePlaceholder = true → cellDisplayWidth env cell ≠ 2) {left : Option TermCell}
    (hleft : ∀ l ∈ left, cellDisplayWidth env l = 2 ↔ isWideHead env l = true)
    (hnext : left.any (isWideHead env) = true → row.head?.any (·.isWidePlaceholder) = true) :
    CleanFrom env (left.any (isWideHead env)) (sanitizeFrom env left row) := by
  induction row generalizing left with
  | nil => exact Bool.eq_false_of_not_eq_true fun h => nomatch hnext h
  | cons cell rest ih =>
      obtain ⟨hholder, hwidth, hright⟩ := @sanitizeCell_spec env hspace left rest.head? cell
        (hholders cell List.mem_cons_self) hleft hnext
      rw [sanitizeFrom]
      generalize sanitizeCell env left cell rest.head? = cell' at hholder hwidth hright ⊢
      have hrest : ∀ c ∈ rest, c.isWidePlaceholder = true → cellDisplayWidth env c ≠ 2 :=
        fun c hc => hholders c (List.mem_cons_of_mem _ hc)
      refine ⟨hholder, hwidth, @ih hrest (some cell') ?_ hright⟩
      rintro _ ⟨⟩
      cases hcell : cell'.isWidePlaceholder with
      | true =>
          have hne := hwidth (hholder.symm.trans hcell)
          simp [isWideHead_of_width hne, hne]
      | false => simp [isWideHead, hcell]

/-- 後始末の後は、対応が成り立つ。 -/
theorem sanitizeWideCells_clean (hspace : env.width ' ' ≠ some 2) {row : Row}
    (hholders : ∀ cell ∈ row, cell.isWidePlaceholder = true → cellDisplayWidth env cell ≠ 2) :
    Clean env (sanitizeWideCells env row) :=
  @sanitizeFrom_clean env hspace row hholders none (fun _ h => nomatch h) fun h => nomatch h

/-! ## 添字による対応 -/

theorem CleanFrom.placeholder {head : Bool} {row : Row} (h : CleanFrom env head row) {c : Nat} {cell : TermCell}
    (hcell : row[c]? = some cell) :
    cell.isWidePlaceholder = if c = 0 then head else row[c - 1]?.any (isWideHead env) := by
  induction row generalizing head c with
  | nil => exact nomatch hcell
  | cons first rest ih =>
      cases c with
      | zero =>
          obtain rfl : first = cell := Option.some_inj.mp hcell
          exact h.1
      | succ c =>
          rw [ih h.2.2 hcell, if_neg (Nat.succ_ne_zero c), Nat.add_sub_cancel]
          cases c with
          | zero => rfl
          | succ c => rfl

theorem CleanFrom.next {head : Bool} {row : Row} (h : CleanFrom env head row) {c : Nat} {cell : TermCell}
    (hcell : row[c]? = some cell) : isWideHead env cell = row[c + 1]?.any (·.isWidePlaceholder) := by
  induction row generalizing head c with
  | nil => exact nomatch hcell
  | cons first rest ih =>
      cases c with
      | zero =>
          obtain rfl : first = cell := Option.some_inj.mp hcell
          cases rest with
          | nil => exact h.2.2
          | cons second rest => exact h.2.2.1.symm
      | succ c => exact ih h.2.2 hcell

theorem CleanFrom.paired {row : Row} (h : Clean env row) : PairedRow env row where
  placeholder c cell hcell := by
    rw [CleanFrom.placeholder h hcell]
    cases c with
    | zero => simp
    | succ c => simp [Option.any_eq_true]
  head c cell hcell hhead _ := by
    rw [CleanFrom.next h hcell] at hhead
    simpa [Option.any_eq_true] using hhead

/-- 組を分断しない区間の置き換え。 -/
theorem CleanFrom.replace {row m : Row} {i j : Nat} (h : Clean env row) (hi : row[i]?.any (·.isWidePlaceholder) = false)
    (hj : row[j]?.any (·.isWidePlaceholder) = false) (hm : Clean env m) : Clean env (row.take i ++ m ++ row.drop j) := by
  have hsplit (k : Nat) (hk : row[k]?.any (·.isWidePlaceholder) = false) : Clean env (row.take k) ∧ Clean env (row.drop k) := by
    have hrow : Clean env (row.take k ++ row.drop k) := by rwa [List.take_append_drop]
    exact hrow.split (by rwa [List.head?_drop])
  exact (((hsplit i hi).1).append hm).append (hsplit j hj).2

/-! ## 端末 -/

namespace Terminal

variable {t t' u : Terminal} {S : Kind → Prop}

/-- どの行でも対応が成り立ち、最後の列に本体はない。 -/
structure CleanPairs (env : Env) (t : Terminal) : Prop where
  main : ∀ row ∈ t.mainCells, Clean env row
  alt : ∀ row ∈ t.altCells, Clean env row
  cols : 2 ≤ t.cols

theorem CleanPairs.paired (h : t.CleanPairs env) : t.Paired env :=
  ⟨fun row hrow => (h.main row hrow).paired, fun row hrow => (h.alt row hrow).paired⟩

theorem CleanPairs.cells (h : t.CleanPairs env) : ∀ row ∈ t.cells, Clean env row := by
  unfold Terminal.cells
  split
  · exact h.alt
  · exact h.main

theorem CleanPairs.setCells (h : t.CleanPairs env) {g : Grid} (hg : ∀ row ∈ g, Clean env row) :
    (t.setCells g).CleanPairs env := by
  unfold Terminal.setCells
  split
  · exact { h with alt := hg }
  · exact { h with main := hg }

theorem CleanPairs.setRow (h : t.CleanPairs env) {r : Nat} {row : Row} (hrow : Clean env row) :
    (t.setCells (t.cells.set r row)).CleanPairs env := by
  refine h.setCells fun row' hrow' => ?_
  rcases List.mem_or_eq_of_mem_set hrow' with hold | rfl
  · exact h.cells row' hold
  · exact hrow

theorem blank_clean (hspace : env.width ' ' ≠ some 2) (t : Terminal) (n : Nat) : Clean env (List.replicate n t.blank) :=
  .replicate rfl (width_blank hspace rfl) n

theorem blankGrid_clean (hspace : env.width ' ' ≠ some 2) {blank : TermCell} (hholder : blank.isWidePlaceholder = false)
    (hch : blank.ch = [' ']) (cols rows : Nat) : ∀ row ∈ blankGrid blank cols rows, Clean env row := by
  intro row hrow
  rw [List.eq_of_mem_replicate hrow]
  exact .replicate hholder (width_blank hspace hch) cols

theorem CleanPairs.onRegion (hspace : env.width ' ' ≠ some 2) (h : t.CleanPairs env) {f : List Row → List Row}
    (hmem : ∀ m, ∀ row ∈ f m, row ∈ m ∨ row = t.blankRow) (top stop : Nat) :
    ∀ row ∈ Lib.onRegion f top stop t.cells, Clean env row := by
  intro row hrow
  rcases Lib.mem_onRegion hrow with hold | hnew
  · exact h.cells row hold
  · rcases hmem _ row hnew with hold | rfl
    · exact h.cells row (List.mem_of_mem_take (List.mem_of_mem_drop hold))
    · exact blank_clean hspace t t.cols

theorem CleanPairs.linesUp (hspace : env.width ' ' ≠ some 2) (h : t.CleanPairs env) (top n : Nat) :
    (t.linesUp top n).CleanPairs env := by
  have hdamaged : t.damageAll.CleanPairs env := { h with }
  exact hdamaged.setCells (h.onRegion hspace (fun _ _ => Lib.mem_shiftUp) _ _)

theorem CleanPairs.linesDown (hspace : env.width ' ' ≠ some 2) (h : t.CleanPairs env) (top n : Nat) :
    (t.linesDown top n).CleanPairs env := by
  have hdamaged : t.damageAll.CleanPairs env := { h with }
  exact hdamaged.setCells (h.onRegion hspace (fun _ _ => Lib.mem_shiftDown) _ _)

theorem CleanPairs.scrolledUp (hspace : env.width ' ' ≠ some 2) (h : t.CleanPairs env) (n : Nat) :
    (t.scrolledUp n).CleanPairs env := by
  unfold Terminal.scrolledUp
  split
  · have hpushed : (t.pushedRows (t.scrolledRows n)).CleanPairs env := by
      rw [pushedRows, trimPendingScrollback_eq]
      exact { h with }
    exact hpushed.linesUp hspace _ _
  · exact h.linesUp hspace _ _

/-- 行の中の操作の後には、後始末が続く。 -/
theorem CleanPairs.editedRow (hspace : env.width ' ' ≠ some 2) (h : t.CleanPairs env) {row row' : Row}
    (hrow : t.cells[t.cursor.row]? = some row) (hmem : ∀ cell ∈ row', cell ∈ row ∨ cell = t.blank) :
    (t.editedRow env row').CleanPairs env := by
  refine h.setRow (sanitizeWideCells_clean hspace fun cell hcell hholder => ?_)
  rcases hmem cell hcell with hold | rfl
  · exact (h.cells row (List.mem_of_getElem? hrow)).holder hold hholder
  · exact absurd hholder Bool.false_ne_true

theorem cellDisplayWidth_append {cell : TermCell} {c : Char} (hzero : charWidth env c = 0) :
    (cellDisplayWidth env { cell with ch := cell.ch ++ [c] } = 2) = (cellDisplayWidth env cell = 2) := by
  cases hch : cell.ch with
  | nil =>
      have hnil : cellDisplayWidth env cell = 1 := by simp [cellDisplayWidth, hch]
      have hone : cellDisplayWidth env { cell with ch := [] ++ [c] } = 0 := hzero
      rw [hone, hnil]
      decide
  | cons first rest => simp [cellDisplayWidth, hch]

theorem CleanPairs.combined (h : t.CleanPairs env) {row : Row} {col : Nat} {cell : TermCell} {c : Char}
    (hzero : charWidth env c = 0) (hrow : t.cells[t.cursor.row]? = some row) (hcell : row[col]? = some cell) :
    (t.combined row col cell c).CleanPairs env := by
  refine h.setRow ((h.cells row (List.mem_of_getElem? hrow)).congr (List.ext_getElem? fun i => ?_))
  rw [List.getElem?_map, List.getElem?_map, List.getElem?_set]
  split
  · rename_i heq
    subst heq
    have hlt : col < row.length := (List.getElem?_eq_some_iff.mp hcell).1
    rw [if_pos hlt, hcell, Option.map_some, Option.map_some, cellDisplayWidth_append hzero]
  · rfl

theorem Change.clean {k : Kind} (hspace : env.width ' ' ≠ some 2) (hk : k ≠ .erase ∧ k ≠ .write ∧ k ≠ .resize)
    (h : t.CleanPairs env) (hchange : Change env k t t') : t'.CleanPairs env := by
  cases hchange with
  | control => exact { h with }
  | setLink => exact { h with }
  | activeLink => exact { h with }
  | save =>
      unfold saveCursorDecsc
      split
      · exact { h with }
      · exact { h with }
  | margins => exact { h with }
  | scroll n => exact h.scrolledUp hspace n
  | linesUp top n => exact h.linesUp hspace top n
  | linesDown top n => exact h.linesDown hspace top n
  | edit row row' old _ mem => exact h.editedRow hspace old mem
  | erase => exact (hk.1 rfl).elim
  | write => exact (hk.2.1 rfl).elim
  | combine c row col cell zero old oldCell => exact h.combined zero old oldCell
  | toAlt saveCursor switch =>
      unfold switchToAlt at switch
      split at switch
      · injection switch with switch
        exact switch ▸ h
      · obtain ⟨_, -, heq⟩ := Option.bind_eq_some_iff.mp switch
        injection heq with heq
        subst heq
        exact { h with alt := blankGrid_clean hspace rfl rfl t.cols t.rows }
  | toMain restoreCursor =>
      unfold switchToMain
      split
      · exact h
      · exact { h with }
  | reset =>
      have hblank : ∀ row ∈ blankGrid (blankCellForTheme t.theme) (max t.cols 1) (max t.rows 1), Clean env row :=
        blankGrid_clean hspace rfl rfl _ _
      exact ⟨hblank, hblank, h.cols.trans (Nat.le_max_left ..)⟩
  | graphics => exact { h with }
  | resize => exact (hk.2.2 rfl).elim

theorem Runs.clean (hspace : env.width ' ' ≠ some 2) (hS : ∀ k, S k → k ≠ .erase ∧ k ≠ .write ∧ k ≠ .resize)
    (h : t.CleanPairs env) (hruns : Runs env S t t') : t'.CleanPairs env := by
  induction hruns with
  | refl => exact h
  | tail _ hstep ih =>
      obtain ⟨k, hk, hchange⟩ := hstep
      exact Change.clean hspace (hS k hk) ih hchange

theorem Reaches.clean {r : Option Terminal} (hspace : env.width ' ' ≠ some 2)
    (hS : ∀ k, S k → k ≠ .erase ∧ k ≠ .write ∧ k ≠ .resize) (h : t.CleanPairs env) (hr : Reaches env S t r)
    (heq : r = some t') : t'.CleanPairs env := by
  obtain ⟨u, hu, hruns⟩ := hr
  obtain rfl : t' = u := Option.some_inj.mp (heq.symm.trans hu)
  exact Runs.clean hspace hS h hruns

end Terminal

end

/-!
## 組を保つ遷移

印字、消去、リサイズは、組を分断しないかぎり対応を保つ。残りの遷移はいつも保つ。
-/

namespace Terminal

variable {env : Env} {t t' u : Terminal}

/-! ## 印字 -/

theorem placeholderAt_eq {row : Row} (hrow : t.cells[t.cursor.row]? = some row) (col : Nat) :
    t.placeholderAt t.cursor.row col = row[col]?.any (·.isWidePlaceholder) := by
  rw [placeholderAt, cell?_eq hrow]

theorem set_eq_replace {row : Row} {i : Nat} (hi : i < row.length) (cell : TermCell) :
    row.set i cell = row.take i ++ [cell] ++ row.drop (i + 1) := by
  rw [List.set_eq_take_append_cons_drop, if_pos hi, List.append_assoc]
  rfl

theorem set_set_eq_replace {row : Row} {i : Nat} (hi : i + 1 < row.length) (cell right : TermCell) :
    (row.set i cell).set (i + 1) right = row.take i ++ [cell, right] ++ row.drop (i + 2) := by
  have hlen : (row.take i).length = i := List.length_take_of_le (by omega)
  have hfirst := set_eq_replace (Nat.lt_of_succ_lt hi) cell
  rw [hfirst, List.append_assoc, List.set_append_right _ _ (by omega), hlen, Nat.add_sub_cancel_left,
    List.drop_eq_getElem_cons hi, List.append_assoc]
  rfl

theorem writtenRow_clean (hspace : env.width ' ' ≠ some 2) {row : Row} (hrow : t.cells[t.cursor.row]? = some row)
    (hclean : Clean env row) (hlen : row.length = t.cols) (hcol : t.cursor.col < t.cols) {c : Char}
    (hroom : t.modes.autowrapMode = true → charWidth env c = 2 → t.hasRoomForPlaceholder (charWidth env c) = true)
    (hsplits : t.writeSplits (charWidth env c) = false) : Clean env (t.writtenRow env c (charWidth env c) row) := by
  have hgraphic : isWideHead env (t.graphicCell c) = decide (charWidth env c = 2) := Bool.true_and _
  simp only [writeSplits, placeholderAt_eq hrow] at hsplits
  unfold writtenRow
  cases hfits : t.hasRoomForPlaceholder (charWidth env c) with
  | true =>
      obtain ⟨hwidth, hlt⟩ : charWidth env c = 2 ∧ t.cursor.col + 1 < t.cols := by
        simpa [hasRoomForPlaceholder] using hfits
      simp only [hfits, Bool.not_true, Bool.and_false, Bool.not_false, Bool.true_and, ↓reduceIte, Bool.or_eq_false_iff,
        Bool.false_eq_true] at hsplits ⊢
      rw [set_set_eq_replace (by omega)]
      refine hclean.replace hsplits.1 hsplits.2 ⟨rfl, fun h => absurd h Bool.false_ne_true, ?_⟩
      rw [hgraphic, decide_eq_true hwidth]
      exact ⟨rfl, fun _ => width_blank hspace rfl, isWideHead_of_holder rfl⟩
  | false =>
      by_cases hrepair : (!t.modes.autowrapMode && decide (charWidth env c = 2) && !false) = true
      · simp only [hrepair, Bool.false_eq_true, ↓reduceIte]
        refine sanitizeWideCells_clean hspace fun cell hcell hholder => ?_
        rcases List.mem_or_eq_of_mem_set hcell with hold | rfl
        · exact hclean.holder hold hholder
        · exact absurd hholder Bool.false_ne_true
      · have hwidth : charWidth env c ≠ 2 := by
          intro hwidth
          cases hauto : t.modes.autowrapMode with
          | true => exact Bool.false_ne_true (hfits.symm.trans (hroom hauto hwidth))
          | false => simp [hauto, hwidth] at hrepair
        simp only [hfits, decide_eq_false hwidth, Bool.and_false, Bool.false_and, Bool.not_false, Bool.true_and,
          Bool.false_eq_true, ↓reduceIte, Bool.or_eq_false_iff] at hsplits ⊢
        rw [set_eq_replace (by omega)]
        refine hclean.replace hsplits.1 hsplits.2 ⟨rfl, fun h => absurd h Bool.false_ne_true, ?_⟩
        rw [hgraphic, decide_eq_false hwidth]
        rfl

theorem written_clean (hspace : env.width ' ' ≠ some 2) (hwf : t.WellFormed) (h : t.CleanPairs env) {row : Row}
    (hrow : t.cells[t.cursor.row]? = some row) (hcol : t.cursor.col < t.cols) {c : Char}
    (hroom : t.modes.autowrapMode = true → charWidth env c = 2 → t.hasRoomForPlaceholder (charWidth env c) = true)
    (hsplits : t.writeSplits (charWidth env c) = false) : (t.written env c (charWidth env c) row).CleanPairs env := by
  have hmem := List.mem_of_getElem? hrow
  have hwritten := writtenRow_clean hspace hrow (h.cells row hmem) (hwf.cells.width row hmem) hcol hroom hsplits
  have hgraphic : { t with lastGraphicCell := some (c, t.cursor.attrs, t.links.activeLinkId) }.CleanPairs env := { h with }
  have hset : ({ t with lastGraphicCell := some (c, t.cursor.attrs, t.links.activeLinkId) }.setCells
      (t.cells.set t.cursor.row (t.writtenRow env c (charWidth env c) row))).CleanPairs env :=
    hgraphic.setRow hwritten
  exact { hset with }

/-- 自動折り返しの後には、幅 2 の文字の入る列がある。 -/
theorem wrap_room (hwf : t.WellFormed) (hcols : 2 ≤ t.cols) {width : Nat} (hstep : t.wrap width = some u)
    (hauto : u.modes.autowrapMode = true) (hwidth : width = 2) : u.hasRoomForPlaceholder width = true := by
  suffices hlt : u.cursor.col + 1 < u.cols by simp [hasRoomForPlaceholder, hwidth, hlt]
  unfold wrap at hstep
  split at hstep
  · split at hstep
    · have hstart : (t.setCursorCol 0).WellFormed := hwf.control rfl ⟨hwf.cursor.row, Nat.zero_le _⟩
      obtain ⟨hcol, hsame⟩ := newline_col hstart hstep
      rw [hcol, hsame]
      exact hcols
    · rename_i hoff
      injection hstep with hstep
      subst hstep
      exact absurd hauto hoff
  · rename_i hfits
    injection hstep with hstep
    subst hstep
    simp only [needsWrap, hwidth, decide_true, Bool.true_and, Bool.or_eq_true, Bool.and_eq_true, decide_eq_true_eq, not_or,
      not_and] at hfits
    have := hfits.2 hcols
    omega

theorem wrap_clean (hspace : env.width ' ' ≠ some 2) (hwf : t.WellFormed) (h : t.CleanPairs env) {width : Nat}
    (hstep : t.wrap width = some u) : u.WellFormed ∧ u.CleanPairs env := by
  have hreaches : Reaches env (fun k => k = .control ∨ k = .scroll) t (t.wrap width) :=
    reaches_wrap (.inl rfl) (.inr rfl) hwf width
  obtain ⟨v, hv, hvwf⟩ := Reaches.wellFormed hwf hreaches
  obtain rfl : u = v := Option.some_inj.mp (hstep.symm.trans hv)
  refine ⟨hvwf, Reaches.clean hspace (fun k hk => ?_) h hreaches hstep⟩
  rcases hk with rfl | rfl
  · decide
  · decide

theorem printMapped_clean (hspace : env.width ' ' ≠ some 2) (hwf : t.WellFormed) (h : t.CleanPairs env) {c : Char}
    (hsplits : t.printSplits env c = false) (hstep : t.printMapped env c = some t') : t'.CleanPairs env := by
  by_cases hzero : charWidth env c = 0
  · rw [printMapped, if_pos hzero] at hstep
    have hreaches : Reaches env (Eq .combine) t (t.attachCombining c) := reaches_attachCombining rfl hwf hzero
    refine Reaches.clean hspace (fun k hk => ?_) h hreaches hstep
    subst hk
    decide
  · rw [printMapped, if_neg hzero] at hstep
    obtain ⟨u, hwrap, hwrite⟩ := Option.bind_eq_some_iff.mp hstep
    obtain ⟨huwf, hu⟩ := wrap_clean hspace hwf h hwrap
    obtain ⟨row, hrow, -⟩ := huwf.cursorRow
    have hcol := wrap_col hwf hwrap
    rw [writeGraphic_eq huwf hrow hcol] at hwrite
    injection hwrite with hwrite
    rw [printSplits, hwrap, Option.any_some, Bool.and_eq_false_iff] at hsplits
    have hwriteSplits := hsplits.resolve_left (by simpa using hzero)
    exact hwrite ▸ written_clean hspace huwf hu hrow hcol (wrap_room hwf h.cols hwrap) hwriteSplits

theorem print_clean (hspace : env.width ' ' ≠ some 2) (hwf : t.WellFormed) (h : t.CleanPairs env) {c : Char}
    (hsplits : t.splitsPair env (.print c) = false) (hstep : t.print env c = some t') : t'.CleanPairs env := by
  have hcapture : ∃ prompt, t.captureChar (t.mapCharset c) = { t with prompt } := by
    unfold captureChar
    split
    · exact ⟨_, rfl⟩
    · exact ⟨_, rfl⟩
  obtain ⟨prompt, heq⟩ := hcapture
  have hwf' : { t with prompt }.WellFormed := hwf.control rfl hwf.cursor
  have h' : { t with prompt }.CleanPairs env := { h with }
  rw [splitsPair, heq] at hsplits
  rw [print, heq] at hstep
  exact printMapped_clean hspace hwf' h' hsplits hstep

/-- 印字の繰り返しは、どの印字も組を分断しなければ対応を保つ。 -/
theorem printTimes_clean (hspace : env.width ' ' ≠ some 2) {c : Char} {n : Nat} (hwf : t.WellFormed) (h : t.CleanPairs env)
    (hsplits : ∀ k < n, ∀ u, printTimes env c k t = some u → u.printSplits env c = false)
    (hstep : printTimes env c n t = some t') : t'.CleanPairs env := by
  induction n generalizing t with
  | zero =>
      injection hstep with hstep
      exact hstep ▸ h
  | succ n ih =>
      rw [printTimes] at hstep
      obtain ⟨u, hu, htail⟩ := Option.bind_eq_some_iff.mp hstep
      obtain ⟨v, hv, hvwf⟩ := printMapped_wellFormed env hwf c
      obtain rfl : u = v := Option.some_inj.mp (hu.symm.trans hv)
      have hclean := printMapped_clean hspace hwf h (hsplits 0 (Nat.succ_pos n) t rfl) hu
      refine ih hvwf hclean (fun k hk w hw => hsplits (k + 1) (Nat.succ_lt_succ hk) w ?_) htail
      rw [printTimes, hu]
      exact hw

theorem repeatGraphic_clean (hspace : env.width ' ' ≠ some 2) (hwf : t.WellFormed) (h : t.CleanPairs env) {n : Nat}
    (hsplits : t.repeatSplits env n = false) (hstep : t.repeatGraphic env n = some t') : t'.CleanPairs env := by
  unfold repeatSplits at hsplits
  unfold repeatGraphic at hstep
  split at hsplits
  · rename_i c attrs linkId hgraphic
    rw [hgraphic] at hstep
    have hattrs : (t.setAttrs attrs).WellFormed := hwf.control rfl ⟨hwf.cursor.row, hwf.cursor.col⟩
    have hstart : ((t.setAttrs attrs).setActiveLink linkId).WellFormed := hattrs.setActiveLink (hwf.graphicLink _ hgraphic)
    have hclean : ((t.setAttrs attrs).setActiveLink linkId).CleanPairs env := { h with }
    obtain ⟨v, hv, hrestore⟩ := Option.bind_eq_some_iff.mp hstep
    injection hrestore with hrestore
    have hprinted : v.CleanPairs env := by
      refine printTimes_clean hspace hstart hclean (fun k hk u hu => ?_) hv
      have hk := List.any_eq_false.mp hsplits k (List.mem_range.mpr hk)
      rw [hu, Option.any_some] at hk
      exact Bool.eq_false_of_not_eq_true hk
    exact hrestore ▸ { hprinted with }
  · rename_i hnone
    rw [hnone] at hstep
    injection hstep with hstep
    exact hstep ▸ h

/-! ## 消去 -/

/-- 列 `i` から `j` の手前までを空白にした行。 -/
theorem mapIdx_eq_replace {row : Row} {blank : TermCell} {i j : Nat} (hle : i ≤ j) :
    (row.mapIdx fun c cell => if i ≤ c ∧ c < j then blank else cell) =
      row.take i ++ List.replicate (min j row.length - i) blank ++ row.drop j := by
  refine List.ext_getElem (by simp; omega) fun c hc hc' => ?_
  rw [List.length_mapIdx] at hc
  rw [List.getElem_mapIdx]
  simp only [List.getElem_append, List.length_append, List.length_take, List.length_replicate, List.getElem_take,
    List.getElem_replicate, List.getElem_drop]
  split_ifs
  all_goals try omega
  · rfl
  · rfl
  · congr 1
    omega

theorem eraseRow_clean (hspace : env.width ' ' ≠ some 2) (t : Terminal) {row : Row} (h : Clean env row) {i j : Nat}
    (hle : i ≤ j) (hi : row[i]?.any (·.isWidePlaceholder) = false) (hj : row[j]?.any (·.isWidePlaceholder) = false) :
    Clean env (row.mapIdx fun c cell => if i ≤ c ∧ c < j then t.blank else cell) := by
  rw [mapIdx_eq_replace hle]
  exact h.replace hi hj (blank_clean hspace t _)

/-- 行の先頭と、行の外は、占有のセルでない。 -/
theorem boundary_of_outside {row : Row} (h : Clean env row) {i : Nat} (hi : i = 0 ∨ row.length ≤ i) :
    row[i]?.any (·.isWidePlaceholder) = false := by
  rcases hi with rfl | hlen
  · cases row with
    | nil => rfl
    | cons cell rest => exact h.1
  · rw [List.getElem?_eq_none hlen]
    rfl

/-- 消去は、カーソルの行の境界 `a` と `b` が組を分断しなければ対応を保つ。
境界は、ほかの行では行の端か外になる。 -/
theorem eraseCells_clean (hspace : env.width ' ' ≠ some 2) (h : t.CleanPairs env) {start stop : Nat}
    (hle : start ≤ stop)
    (hstart : ∀ r row, t.cells[r]? = some row → row[start - r * t.cols]?.any (·.isWidePlaceholder) = false)
    (hstop : ∀ r row, t.cells[r]? = some row → row[stop - r * t.cols]?.any (·.isWidePlaceholder) = false) :
    (t.eraseCells start stop).CleanPairs env := by
  refine h.setCells fun row' hrow' => ?_
  obtain ⟨r, hr, rfl⟩ := List.mem_mapIdx.mp hrow'
  have hget := List.getElem?_eq_getElem hr
  have hclean := eraseRow_clean hspace t (h.cells _ (List.mem_of_getElem? hget)) (Nat.sub_le_sub_right hle (r * t.cols))
    (hstart r _ hget) (hstop r _ hget)
  have hindex : (fun c cell => if start - r * t.cols ≤ c ∧ c < stop - r * t.cols then t.blank else cell) =
      fun c cell => if start ≤ r * t.cols + c ∧ r * t.cols + c < stop then t.blank else cell := by
    funext c cell
    exact if_congr (by omega) rfl rfl
  rwa [hindex] at hclean

/-- カーソルの行の列 `col` の境界は、ほかの行では行の先頭か外になる。 -/
theorem boundary_clean (hwf : t.WellFormed) (h : t.CleanPairs env) {col : Nat} (hcol : col ≤ t.cols)
    (hsplits : t.placeholderAt t.cursor.row col = false) (r : Nat) (row : Row) (hrow : t.cells[r]? = some row) :
    row[t.cursor.row * t.cols + col - r * t.cols]?.any (·.isWidePlaceholder) = false := by
  have hmem := List.mem_of_getElem? hrow
  have hlen := hwf.cells.width row hmem
  rcases Nat.lt_trichotomy r t.cursor.row with hlt | rfl | hgt
  · have hmul : (r + 1) * t.cols ≤ t.cursor.row * t.cols := Nat.mul_le_mul_right _ hlt
    rw [Nat.succ_mul] at hmul
    exact boundary_of_outside (h.cells row hmem) (.inr (by omega))
  · rw [Nat.add_sub_cancel_left, ← placeholderAt_eq hrow]
    exact hsplits
  · have hmul : (t.cursor.row + 1) * t.cols ≤ r * t.cols := Nat.mul_le_mul_right _ hgt
    rw [Nat.succ_mul] at hmul
    exact boundary_of_outside (h.cells row hmem) (.inl (by omega))

theorem placeholderAt_outside (hwf : t.WellFormed) (h : t.CleanPairs env) {col : Nat} (hcol : col = 0 ∨ t.cols ≤ col) :
    t.placeholderAt t.cursor.row col = false := by
  obtain ⟨row, hrow, hlen⟩ := hwf.cursorRow
  rw [placeholderAt_eq hrow]
  exact boundary_of_outside (h.cells row (List.mem_of_getElem? hrow)) (hlen ▸ hcol)

theorem eraseInLine_clean (hspace : env.width ' ' ≠ some 2) (hwf : t.WellFormed) (h : t.CleanPairs env) {p0 : UInt16}
    (hsplits : t.eraseSplits p0 = false) : (t.eraseInLine p0).CleanPairs env := by
  have hcol := visibleCol_lt hwf
  have hfirst := boundary_clean hwf h (Nat.zero_le _) (placeholderAt_outside hwf h (.inl rfl))
  have hlast := boundary_clean hwf h (Nat.le_refl _) (placeholderAt_outside hwf h (.inr (Nat.le_refl _)))
  simp only [eraseSplits] at hsplits
  simp only [eraseInLine, Nat.succ_mul]
  split_ifs at hsplits ⊢ with h0 h1 h2
  · exact eraseCells_clean hspace h (by omega) (boundary_clean hwf h hcol.le hsplits) hlast
  · simp only [h1, decide_true, Bool.true_and] at hsplits
    exact eraseCells_clean hspace h (by omega) hfirst (boundary_clean hwf h hcol hsplits)
  · exact eraseCells_clean hspace h (by omega) hfirst hlast
  · exact h

theorem eraseInDisplay_clean (hspace : env.width ' ' ≠ some 2) (hwf : t.WellFormed) (h : t.CleanPairs env) {p0 : UInt16}
    (hsplits : t.eraseSplits p0 = false) : (t.eraseInDisplay p0).CleanPairs env := by
  have hcol := visibleCol_lt hwf
  have hfirst (r : Nat) (row : Row) (hrow : t.cells[r]? = some row) :
      row[0 - r * t.cols]?.any (·.isWidePlaceholder) = false :=
    boundary_of_outside (h.cells row (List.mem_of_getElem? hrow)) (.inl (Nat.zero_sub _))
  have hbelow {r : Nat} (hr : r < t.rows) : r * t.cols + t.cols ≤ t.cols * t.rows := by
    rw [← Nat.succ_mul, Nat.mul_comm t.cols]
    exact Nat.mul_le_mul_right _ hr
  have hlast (r : Nat) (row : Row) (hrow : t.cells[r]? = some row) :
      row[t.cols * t.rows - r * t.cols]?.any (·.isWidePlaceholder) = false := by
    have hmem := List.mem_of_getElem? hrow
    have hr := hbelow (hwf.cells.length ▸ (List.getElem?_eq_some_iff.mp hrow).1)
    have hlen := hwf.cells.width row hmem
    exact boundary_of_outside (h.cells row hmem) (.inr (by omega))
  have hend := hbelow hwf.cursor.row
  simp only [eraseSplits] at hsplits
  simp only [eraseInDisplay]
  split_ifs at hsplits ⊢ with h0 h1 h2
  · exact eraseCells_clean hspace h (by omega) (boundary_clean hwf h hcol.le hsplits) hlast
  · simp only [h1, decide_true, Bool.true_and] at hsplits
    exact eraseCells_clean hspace h (by omega) hfirst (boundary_clean hwf h hcol hsplits)
  · have herased := eraseCells_clean hspace h (Nat.zero_le _) hfirst hlast
    exact { herased with }
  · exact h

/-! ## リサイズ -/

theorem resizeRow_clean (hspace : env.width ' ' ≠ some 2) {row : Row} (h : Clean env row) {oldCols newCols : Nat}
    (hlen : row.length = oldCols) (t : Terminal) : Clean env (resizeRow env oldCols newCols t.blank row) := by
  simp only [resizeRow]
  split
  · refine sanitizeWideCells_clean hspace fun cell hcell hholder => ?_
    rcases List.mem_append.mp hcell with hold | hnew
    · exact h.holder (List.mem_of_mem_take hold) hholder
    · rw [List.eq_of_mem_replicate hnew] at hholder
      exact absurd hholder Bool.false_ne_true
  · rw [List.take_of_length_le (by omega)]
    exact h.append (blank_clean hspace t _)

theorem resizedGrid_clean (hspace : env.width ' ' ≠ some 2) {g : Grid} {cols rows : Nat} (hshape : g.Shape cols rows)
    (h : ∀ row ∈ g, Clean env row) (newCols newRows removed : Nat) (t : Terminal) :
    ∀ row ∈ resizedGrid env g cols rows newCols newRows removed t.blank, Clean env row := by
  intro row hrow
  obtain ⟨old, hold, rfl⟩ := List.mem_map.mp hrow
  rcases List.mem_append.mp hold with hold | hnew
  · have hmem := List.mem_of_mem_drop (List.mem_of_mem_take hold)
    exact resizeRow_clean hspace (h old hmem) (hshape.width old hmem) t
  · rw [List.eq_of_mem_replicate hnew]
    exact resizeRow_clean hspace (blank_clean hspace t cols) List.length_replicate t

theorem resize_clean (hspace : env.width ' ' ≠ some 2) (hwf : t.WellFormed) (h : t.CleanPairs env) {cols rows : Nat}
    (hcols : 2 ≤ cols) (hstep : t.resizePreservingState env cols rows = some t') : t'.CleanPairs env := by
  rw [resizePreservingState_eq hwf] at hstep
  injection hstep with hstep
  subst hstep
  split
  · exact h
  · have hmain := resizedGrid_clean hspace hwf.main h.main (max cols 1) (max rows 1) (t.mainRemoved (max rows 1)) t
    have halt := resizedGrid_clean hspace hwf.alt h.alt (max cols 1) (max rows 1) (t.altRemoved (max rows 1)) t
    refine ⟨?_, ?_, ?_⟩
    all_goals simp only [resized, resizedCells, trimPendingScrollback_eq, clearImages]
    · exact hmain
    · exact halt
    · omega

/-! ## 遷移 -/

theorem csiDispatch_clean (hspace : env.width ' ' ≠ some 2) (hwf : t.WellFormed) (h : t.CleanPairs env) {params : Params}
    {intermediates : List UInt8} {action : Char}
    (hsplits : t.splitsPair env (.csiDispatch params intermediates action) = false)
    (hstep : t.csiDispatch env params intermediates action = some t') : t'.CleanPairs env := by
  by_cases hspecial : action = 'J' ∨ action = 'K' ∨ action = 'b'
  · have hother : action ≠ 'u' ∧ action ≠ 'q' ∧ action ≠ 'c' ∧ action ≠ 'n' := by
      rcases hspecial with rfl | rfl | rfl <;> decide
    by_cases hprivate : intermediates.head? = some 0x3f
    · have hmode : action ≠ 'h' ∧ action ≠ 'l' := by rcases hspecial with rfl | rfl | rfl <;> decide
      simp only [csiDispatch, hother, hprivate, false_and, ↓reduceIte, setDecModes, hmode] at hstep
      injection hstep with hstep
      exact hstep ▸ h
    · simp only [csiDispatch, hother, hprivate, false_and, ↓reduceIte, csiAction] at hstep
      simp only [splitsPair, hprivate, ne_eq, not_false_eq_true, decide_true, Bool.true_and, Bool.or_eq_false_iff] at hsplits
      rcases hspecial with rfl | rfl | rfl
      · injection hstep with hstep
        exact hstep ▸ eraseInDisplay_clean hspace hwf h (by simpa using hsplits.1)
      · injection hstep with hstep
        exact hstep ▸ eraseInLine_clean hspace hwf h (by simpa using hsplits.1)
      · exact repeatGraphic_clean hspace hwf h (by simpa using hsplits.2) hstep
  · refine Reaches.clean hspace (fun k hk => ?_) h (reaches_csiDispatch hwf params intermediates action) hstep
    rw [not_or, not_or] at hspecial
    refine ⟨?_, ?_, ?_⟩
    · rintro rfl
      simp [Event.Allows, Event.isErase, hspecial.1, hspecial.2.1] at hk
    · rintro rfl
      simp [Event.Allows, Event.isPrint, hspecial.2.2] at hk
    · rintro rfl
      simp [Event.Allows, Event.isResize] at hk

/-- 組を分断せず、列を 2 より少なくしない遷移は、対応を保つ。 -/
theorem step_clean (hspace : env.width ' ' ≠ some 2) (hwf : t.WellFormed) (h : t.CleanPairs env) {ev : Event}
    (hsplits : t.splitsPair env ev = false) (hnarrows : narrows ev = false) (hstep : t.step env ev = some t') :
    t'.CleanPairs env := by
  have hplain (hprint : ev.isPrint = false) (herase : ev.isErase = false) (hresize : ev.isResize = false) :
      t'.CleanPairs env := by
    refine Reaches.clean hspace (fun k hk => ?_) h (reaches_step hwf ev) hstep
    refine ⟨?_, ?_, ?_⟩
    · rintro rfl
      exact Bool.false_ne_true (herase.symm.trans hk)
    · rintro rfl
      exact Bool.false_ne_true (hprint.symm.trans hk)
    · rintro rfl
      exact Bool.false_ne_true (hresize.symm.trans hk)
  cases ev with
  | print c => exact print_clean hspace hwf h hsplits hstep
  | csiDispatch params intermediates action => exact csiDispatch_clean hspace hwf h hsplits hstep
  | resize cols rows => exact resize_clean hspace hwf h (Nat.le_of_not_lt (of_decide_eq_false hnarrows)) hstep
  | execute byte => exact hplain rfl rfl rfl
  | oscDispatch params bellTerminated => exact hplain rfl rfl rfl
  | escDispatch ints byte => exact hplain rfl rfl rfl
  | hook c => exact hplain rfl rfl rfl
  | put byte => exact hplain rfl rfl rfl
  | unhook => exact hplain rfl rfl rfl
  | apc payload now => exact hplain rfl rfl rfl

theorem exec_clean (hspace : env.width ' ' ≠ some 2) {events : List Event} (hwf : t.WellFormed) (h : t.CleanPairs env)
    (hkeeps : t.KeepsPairs env events) (hexec : t.exec env events = some t') : t'.CleanPairs env := by
  induction events generalizing t with
  | nil =>
      injection hexec with hexec
      exact hexec ▸ h
  | cons ev events ih =>
      obtain ⟨hsplits, hnarrows, htail⟩ := hkeeps
      obtain ⟨u, hu, huwf⟩ := step_wellFormed env hwf ev
      rw [Terminal.exec, List.foldlM_cons, hu] at hexec
      exact ih huwf (step_clean hspace hwf h hsplits hnarrows hu) (htail u hu) hexec

theorem new_clean (hspace : env.width ' ' ≠ some 2) {cols : Nat} (hcols : 2 ≤ cols) (rows : Nat) (theme : Theme) :
    (Terminal.new cols rows theme).CleanPairs env := by
  have hblank : ∀ row ∈ blankGrid (blankCellForTheme theme) (max cols 1) (max rows 1), Clean env row :=
    blankGrid_clean hspace rfl rfl _ _
  exact ⟨hblank, hblank, hcols.trans (Nat.le_max_left ..)⟩

end Terminal

end IsekaiTerminal.Emulator
