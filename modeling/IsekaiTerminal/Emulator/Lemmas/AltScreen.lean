import IsekaiTerminal.Emulator.Lemmas.Dispatch

/-!
# alt の画面の隔離

alt の画面の間、main の画面とその保存されたカーソルは、リサイズだけに従う。
-/

namespace IsekaiTerminal.Emulator

variable {env : Env}

/-! ## 余白の属性を除いた一致 -/

section Rows

variable {k : Nat} {ks ls : List Nat} {row row' : Row} {rows rows' g g' : List Row}

theorem padding_append (attrs attrs' : List TermAttrs) : padding (attrs ++ attrs') = padding attrs ++ padding attrs' :=
  List.map_append

theorem take_padding (n : Nat) (attrs : List TermAttrs) : (padding attrs).take n = padding (attrs.take n) :=
  List.map_take.symm

theorem replicate_toCell (n : Nat) (a : TermAttrs) : List.replicate n (a.toCell [' ']) = padding (List.replicate n a) := by
  rw [padding, List.map_replicate]

theorem length_padding (attrs : List TermAttrs) : (padding attrs).length = attrs.length := List.length_map _

/-- 余白のセルは占有でも全角でもない。 -/
theorem sanitizeCell_padding (env : Env) (left right : Option TermCell) (a : TermAttrs) :
    sanitizeCell env left (a.toCell [' ']) right = a.toCell [' '] := by
  simp [sanitizeCell, TermAttrs.toCell]

theorem sanitizeFrom_padding (env : Env) (left : Option TermCell) (attrs : List TermAttrs) :
    sanitizeFrom env left (padding attrs) = padding attrs := by
  induction attrs generalizing left with
  | nil => rfl
  | cons a attrs ih =>
      rw [padding, List.map_cons, sanitizeFrom, sanitizeCell_padding]
      exact congrArg _ (ih _)

theorem any_head?_padding (attrs : List TermAttrs) : (padding attrs).head?.any (·.isWidePlaceholder) = false := by
  cases attrs with
  | nil => rfl
  | cons a attrs => rfl

/-- 後始末は左右のセルの文字と占有だけを見るので、余白の属性によらず、余白の手前のセルを同じに直す。 -/
theorem exists_sanitizeFrom (env : Env) (kept : Row) (left : Option TermCell) :
    ∃ kept' : Row, kept'.length = kept.length ∧
      ∀ attrs, sanitizeFrom env left (kept ++ padding attrs) = kept' ++ padding attrs := by
  induction kept generalizing left with
  | nil => exact ⟨[], rfl, fun attrs => sanitizeFrom_padding env left attrs⟩
  | cons cell kept ih =>
      have hright (attrs : List TermAttrs) : sanitizeCell env left cell (kept ++ padding attrs).head? =
          sanitizeCell env left cell kept.head? := by
        cases kept with
        | nil =>
            simp only [sanitizeCell, List.nil_append, any_head?_padding]
            rfl
        | cons next kept => rfl
      obtain ⟨kept', hlen, hkept⟩ := ih (some (sanitizeCell env left cell kept.head?))
      refine ⟨sanitizeCell env left cell kept.head? :: kept', by simp [hlen], ?_⟩
      intro attrs
      rw [List.cons_append, sanitizeFrom, hright, hkept]
      rfl

theorem RowMatch.refl (row : Row) : RowMatch row.length row row :=
  ⟨row, [], [], rfl, rfl, (List.append_nil _).symm, (List.append_nil _).symm⟩

theorem RowMatch.replicate (n : Nat) (a a' : TermAttrs) :
    RowMatch 0 (List.replicate n (a.toCell [' '])) (List.replicate n (a'.toCell [' '])) :=
  ⟨[], List.replicate n a, List.replicate n a', rfl, by simp, replicate_toCell n a, replicate_toCell n a'⟩

theorem RowMatch.sanitizeWideCells (env : Env) (h : RowMatch k row row') :
    RowMatch k (sanitizeWideCells env row) (sanitizeWideCells env row') := by
  obtain ⟨kept, attrs, attrs', hlen, hattrs, rfl, rfl⟩ := h
  obtain ⟨kept', hlen', hkept⟩ := exists_sanitizeFrom env kept none
  exact ⟨kept', attrs, attrs', hlen'.trans hlen, hattrs, hkept attrs, hkept attrs'⟩

theorem RowMatch.resizeRow (env : Env) (h : RowMatch k row row') (oldCols newCols : Nat) (a a' : TermAttrs) :
    RowMatch (min newCols k) (resizeRow env oldCols newCols (a.toCell [' ']) row)
      (resizeRow env oldCols newCols (a'.toCell [' ']) row') := by
  have hpad : RowMatch (min newCols k) (row.take newCols ++ List.replicate (newCols - row.length) (a.toCell [' ']))
      (row'.take newCols ++ List.replicate (newCols - row'.length) (a'.toCell [' '])) := by
    obtain ⟨kept, attrs, attrs', rfl, hattrs, rfl, rfl⟩ := h
    have htake (b : TermAttrs) (bs : List TermAttrs) :
        (kept ++ padding bs).take newCols ++ List.replicate (newCols - (kept ++ padding bs).length) (b.toCell [' ']) =
          kept.take newCols ++ padding (bs.take (newCols - kept.length) ++
            List.replicate (newCols - (kept ++ padding bs).length) b) := by
      rw [List.take_append, take_padding, replicate_toCell, List.append_assoc, ← padding_append]
    refine ⟨kept.take newCols, _, _, List.length_take, ?_, htake a attrs, htake a' attrs'⟩
    simp only [List.length_append, List.length_take, List.length_replicate, length_padding, hattrs]
  simp only [Emulator.resizeRow]
  split
  · exact hpad.sanitizeWideCells env
  · exact hpad

theorem RowMatch.chars (h : RowMatch k row row') : row.map (·.ch) = row'.map (·.ch) := by
  obtain ⟨kept, attrs, attrs', -, hattrs, rfl, rfl⟩ := h
  have hpad (bs : List TermAttrs) : (padding bs).map (·.ch) = List.replicate bs.length [' '] := by
    simp [padding, TermAttrs.toCell, Function.comp_def]
  rw [List.map_append, List.map_append, hpad, hpad, hattrs]

namespace RowsMatch

theorem refl (rows : List Row) : RowsMatch (rows.map List.length) rows rows := by
  induction rows with
  | nil => exact .nil
  | cons row rows ih => exact .cons (.refl row) ih

theorem length_eq (h : RowsMatch ks rows rows') : rows.length = ks.length ∧ rows'.length = ks.length := by
  induction h with
  | nil => exact ⟨rfl, rfl⟩
  | cons _ _ ih => exact ⟨congrArg _ ih.1, congrArg _ ih.2⟩

theorem append (h : RowsMatch ks rows rows') (h' : RowsMatch ls g g') :
    RowsMatch (ks ++ ls) (rows ++ g) (rows' ++ g') := by
  induction h with
  | nil => exact h'
  | cons hrow _ ih => exact .cons hrow ih

theorem take (h : RowsMatch ks rows rows') (n : Nat) : RowsMatch (ks.take n) (rows.take n) (rows'.take n) := by
  induction h generalizing n with
  | nil =>
      simp only [List.take_nil]
      exact .nil
  | cons hrow _ ih =>
      cases n with
      | zero => exact .nil
      | succ n => exact .cons hrow (ih n)

theorem drop (h : RowsMatch ks rows rows') (n : Nat) : RowsMatch (ks.drop n) (rows.drop n) (rows'.drop n) := by
  induction h generalizing n with
  | nil =>
      simp only [List.drop_nil]
      exact .nil
  | cons hrow hrows ih =>
      cases n with
      | zero => exact .cons hrow hrows
      | succ n => exact ih n

theorem replicate (h : RowMatch k row row') (n : Nat) :
    RowsMatch (List.replicate n k) (List.replicate n row) (List.replicate n row') := by
  induction n with
  | zero => exact .nil
  | succ n ih => exact .cons h ih

theorem map {f : Nat → Nat} {r r' : Row → Row} (hf : ∀ k row row', RowMatch k row row' → RowMatch (f k) (r row) (r' row'))
    (h : RowsMatch ks rows rows') : RowsMatch (ks.map f) (rows.map r) (rows'.map r') := by
  induction h with
  | nil => exact .nil
  | cons hrow _ ih => exact .cons (hf _ _ _ hrow) ih

theorem chars (h : RowsMatch ks rows rows') : chars rows = Emulator.chars rows' := by
  induction h with
  | nil => rfl
  | cons hrow _ ih =>
      rw [Emulator.chars, Emulator.chars, List.map_cons, List.map_cons, hrow.chars]
      exact congrArg _ ih

theorem resizedGrid (env : Env) (h : RowsMatch ks g g') (oldCols oldRows newCols newRows removed : Nat) (a a' : TermAttrs) :
    RowsMatch (((ks.drop removed).take newRows ++ List.replicate (newRows - oldRows) 0).map fun n => min newCols n)
      (resizedGrid env g oldCols oldRows newCols newRows removed (a.toCell [' ']))
      (resizedGrid env g' oldCols oldRows newCols newRows removed (a'.toCell [' '])) := by
  have hrows := ((h.drop removed).take newRows).append
    (RowsMatch.replicate (RowMatch.replicate oldCols a a') (newRows - oldRows))
  exact hrows.map fun _ _ _ hrow => hrow.resizeRow env oldCols newCols a a'

theorem trimmed (h : RowsMatch ks rows rows') :
    RowsMatch (if ks.length > 2 * scrollbackLimit then ks.drop (ks.length - scrollbackLimit) else ks) (trimmed rows)
      (trimmed rows') := by
  unfold Emulator.trimmed
  rw [h.length_eq.1, h.length_eq.2]
  split
  · exact h.drop _
  · exact h

end RowsMatch

end Rows

namespace Terminal

variable {k : Kept} {t t' u u' : Terminal}

/-! ## alt の画面の間の遷移 -/

/-- alt の画面の間、隠れている側の欄が変わらない。 -/
structure SameHidden (t t' : Terminal) : Prop where
  altActive : t'.altActive = true
  cols : t'.cols = t.cols
  rows : t'.rows = t.rows
  mainCells : t'.mainCells = t.mainCells
  savedCursorMain : t'.savedCursorMain = t.savedCursorMain
  pendingScrollback : t'.pendingScrollback = t.pendingScrollback
  totalScrolledLines : t'.totalScrolledLines = t.totalScrolledLines

theorem SameHidden.refl (h : t.altActive = true) : SameHidden t t := ⟨h, rfl, rfl, rfl, rfl, rfl, rfl⟩

theorem SameHidden.trans {v : Terminal} (h : SameHidden t u) (h' : SameHidden u v) : SameHidden t v :=
  { altActive := h'.altActive
    cols := h'.cols.trans h.cols
    rows := h'.rows.trans h.rows
    mainCells := h'.mainCells.trans h.mainCells
    savedCursorMain := h'.savedCursorMain.trans h.savedCursorMain
    pendingScrollback := h'.pendingScrollback.trans h.pendingScrollback
    totalScrolledLines := h'.totalScrolledLines.trans h.totalScrolledLines }

theorem SameHidden.setCells (h : t.altActive = true) (g : Grid) : SameHidden t (t.setCells g) := by
  rw [Terminal.setCells, if_pos h]
  exact { SameHidden.refl h with }

theorem SameHidden.damageAll (h : t.altActive = true) : SameHidden t t.damageAll := { SameHidden.refl h with }

theorem SameHidden.damagedCells (h : t.altActive = true) (g : Grid) : SameHidden t (t.damageAll.setCells g) :=
  (SameHidden.damageAll h).trans (SameHidden.setCells (t := t.damageAll) h g)

theorem SameHidden.setCursorCol (h : t.altActive = true) (col : Nat) : SameHidden t (t.setCursorCol col) :=
  { SameHidden.refl h with }

/-- alt の画面の操作は、隠れている側に触れない。 -/
theorem Change.sameHidden {k : Kind} (h : t.altActive = true) (hk : k ≠ .toMain ∧ k ≠ .reset ∧ k ≠ .resize)
    (hchange : Change env k t t') : SameHidden t t' := by
  cases hchange with
  | control => exact { SameHidden.refl h with }
  | setLink => exact { SameHidden.refl h with }
  | activeLink => exact { SameHidden.refl h with }
  | save => rw [saveCursorDecsc, if_pos h]; exact { SameHidden.refl h with }
  | margins => exact { SameHidden.refl h with }
  | scroll n =>
      have hmain : ¬(t.scrollTop = 0 ∧ t.altActive = false) := by simp [h]
      rw [scrolledUp, if_neg hmain]
      exact SameHidden.damagedCells h _
  | linesUp => exact SameHidden.damagedCells h _
  | linesDown => exact SameHidden.damagedCells h _
  | edit => exact SameHidden.setCells h _
  | erase => exact SameHidden.setCells h _
  | write c row =>
      have hgraphic : SameHidden t { t with lastGraphicCell := some (c, t.cursor.attrs, t.links.activeLinkId) } :=
        { SameHidden.refl h with }
      have hset := hgraphic.trans (SameHidden.setCells hgraphic.altActive
        (t.cells.set t.cursor.row (t.writtenRow env c (charWidth env c) row)))
      exact hset.trans (SameHidden.setCursorCol hset.altActive _)
  | combine => exact SameHidden.setCells h _
  | toAlt _ switch =>
      rw [switchToAlt, if_pos h] at switch
      injection switch with switch
      exact switch ▸ SameHidden.refl h
  | toMain => exact (hk.1 rfl).elim
  | reset => exact (hk.2.1 rfl).elim
  | graphics => exact { SameHidden.refl h with }
  | resize => exact (hk.2.2 rfl).elim

theorem Runs.sameHidden {S : Kind → Prop} (h : t.altActive = true)
    (hS : ∀ k, S k → k ≠ .toMain ∧ k ≠ .reset ∧ k ≠ .resize) (hruns : Runs env S t t') : SameHidden t t' := by
  induction hruns with
  | refl => exact .refl h
  | tail _ hstep ih =>
      obtain ⟨k, hk, hchange⟩ := hstep
      exact ih.trans (Change.sameHidden ih.altActive (hS k hk) hchange)

/-- alt の画面から出るシーケンスでも RIS でもリサイズでもない遷移。 -/
theorem step_sameHidden (hwf : t.WellFormed) (h : t.altActive = true) {ev : Event} (hexit : ev.isAltExit = false)
    (hreset : ev.isReset = false) (hresize : ev.isResize = false) (hstep : t.step env ev = some t') :
    SameHidden t t' := by
  have hreaches : Reaches env ev.Allows t (t.step env ev) := reaches_step hwf ev
  obtain ⟨u, hu, hruns⟩ := hreaches
  obtain rfl : t' = u := Option.some_inj.mp (hstep.symm.trans hu)
  refine Runs.sameHidden h (fun k hk => ⟨?_, ?_, ?_⟩) hruns
  · rintro rfl
    exact Bool.false_ne_true (hexit.symm.trans hk)
  · rintro rfl
    exact Bool.false_ne_true (hreset.symm.trans hk)
  · rintro rfl
    exact Bool.false_ne_true (hresize.symm.trans hk)

/-! ## 元の main の画面との対応 -/

/-- `t` は alt の画面を、`u` はリサイズだけを受けた元の main の画面を表示している。 -/
structure Shadows (k : Kept) (t u : Terminal) : Prop where
  wellFormed : t.WellFormed
  wellFormed' : u.WellFormed
  alt : t.altActive = true
  main : u.altActive = false
  cols : t.cols = u.cols
  rows : t.rows = u.rows
  cells : RowsMatch k.cells t.mainCells u.mainCells
  saved : t.savedCursorMain = some u.cursor
  scrollback : RowsMatch k.pushed t.pendingScrollback u.pendingScrollback
  total : t.totalScrolledLines = u.totalScrolledLines

theorem Shadows.sameHidden (h : Shadows k t u) (hwf : t'.WellFormed) (hsame : SameHidden t t') : Shadows k t' u :=
  { h with
    wellFormed := hwf
    alt := hsame.altActive
    cols := hsame.cols.trans h.cols
    rows := hsame.rows.trans h.rows
    cells := hsame.mainCells ▸ h.cells
    saved := hsame.savedCursorMain.trans h.saved
    scrollback := hsame.pendingScrollback ▸ h.scrollback
    total := hsame.totalScrolledLines.trans h.total }

theorem Shadows.resized (h : Shadows k t u) {cols rows : Nat} (hpos : 1 ≤ cols ∧ 1 ≤ rows) :
    Shadows (k.resized u.rows cols rows (u.mainRemoved rows)) (t.resized env cols rows) (u.resized env cols rows) := by
  have hremoved : t.mainRemoved rows = u.mainRemoved rows := by
    simp [mainRemoved, mainReferenceRow, h.alt, h.main, h.saved, h.rows]
  have hpushed : RowsMatch (k.pushed ++ k.cells.take (u.mainRemoved rows)) (t.pendingScrollback ++ t.mainCells.take (t.mainRemoved rows))
      (u.pendingScrollback ++ u.mainCells.take (u.mainRemoved rows)) := by
    rw [hremoved]
    exact h.scrollback.append (h.cells.take _)
  have hcells := h.cells.resizedGrid env t.cols t.rows cols rows (t.mainRemoved rows) t.cursor.attrs u.cursor.attrs
  refine ⟨h.wellFormed.resized env hpos, h.wellFormed'.resized env hpos, ?_, ?_, ?_, ?_, ?_, ?_, ?_, ?_⟩
  all_goals simp only [Terminal.resized, resizedCells, trimPendingScrollback_eq, clearImages]
  · exact h.alt
  · exact h.main
  · rw [h.cols, h.rows, hremoved] at hcells ⊢
    exact hcells
  · simp [h.saved, h.cols, h.main, hremoved]
  · exact hpushed.trimmed
  · rw [h.total, hremoved]

theorem Shadows.resize (h : Shadows k t u) {cols rows : Nat} (hstep : t.step env (.resize cols rows) = some t') :
    ∃ u', u.step env (.resize cols rows) = some u' ∧ Shadows (u.keptBy k (.resize cols rows)) t' u' := by
  rw [step, resizePreservingState_eq h.wellFormed] at hstep
  injection hstep with hstep
  refine ⟨_, resizePreservingState_eq h.wellFormed' env cols rows, ?_⟩
  rw [← hstep, keptBy, h.cols, h.rows]
  split
  · exact h
  · exact h.resized ⟨Nat.le_max_right .., Nat.le_max_right ..⟩

/-- alt の画面の間の実行は、リサイズだけの実行に従う。 -/
theorem Shadows.exec {events : List Event} (hexit : ∀ ev ∈ events, ev.isAltExit = false ∧ ev.isReset = false)
    (h : Shadows k t u) (hexec : t.exec env events = some t') :
    ∃ u', u.exec env (events.filter Event.isResize) = some u' ∧ Shadows (u.keptAfter env k (events.filter Event.isResize)) t' u' := by
  induction events generalizing k t u with
  | nil =>
      injection hexec with hexec
      exact ⟨u, rfl, hexec ▸ h⟩
  | cons ev events ih =>
      rw [Terminal.exec, List.foldlM_cons] at hexec
      obtain ⟨v, hstep, htail⟩ := Option.bind_eq_some_iff.mp hexec
      have hrest := fun ev hev => hexit ev (List.mem_cons_of_mem _ hev)
      cases hresize : ev.isResize with
      | false =>
          obtain ⟨hnoExit, hnoReset⟩ := hexit ev List.mem_cons_self
          obtain ⟨w, hw, hwf⟩ := step_wellFormed env h.wellFormed ev
          obtain rfl : v = w := Option.some_inj.mp (hstep.symm.trans hw)
          rw [List.filter_cons_of_neg (by simp [hresize])]
          exact ih hrest (h.sameHidden hwf (step_sameHidden h.wellFormed h.alt hnoExit hnoReset hresize hstep)) htail
      | true =>
          obtain ⟨cols, rows, rfl⟩ : ∃ cols rows, ev = .resize cols rows := by
            cases ev <;> simp_all [Event.isResize]
          obtain ⟨w, hw, hshadows⟩ := h.resize hstep
          obtain ⟨u', hu', ht'⟩ := ih hrest hshadows htail
          rw [List.filter_cons_of_pos hresize, Terminal.exec, List.foldlM_cons, keptAfter, hw]
          exact ⟨u', hu', ht'⟩

end Terminal

end IsekaiTerminal.Emulator
