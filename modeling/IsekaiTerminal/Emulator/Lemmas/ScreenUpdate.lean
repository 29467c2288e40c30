import IsekaiTerminal.Emulator.Lemmas.Damage

/-!
# 2 つの発行の対応

発行 `f` の後の状態 `s` が `g` を発行するとき、`g` の損傷が覆う位置を定める。
-/

namespace IsekaiTerminal.Emulator

/-! ## 並べ替え -/

section Order

def lineLe (a b : LineDamage) : Prop := a.line ≤ b.line

instance : DecidableRel lineLe := fun a b => inferInstanceAs (Decidable (a.line ≤ b.line))

instance : Std.Total lineLe := ⟨fun a b => UInt16.le_total a.line b.line⟩

instance : IsTrans LineDamage lineLe := ⟨fun _ _ _ => UInt16.le_trans⟩

variable {damages : List LineDamage}

theorem damaged_perm {damages' : List LineDamage} (h : damages.Perm damages') (row col : Nat) :
    Damaged damages row col ↔ Damaged damages' row col := by
  simp only [Damaged, h.mem_iff]

/-- 行の重ならない損傷は、並べ替えると行が真に増える。 -/
theorem insertionSort_increasing (h : (damages.map (·.line)).Nodup) :
    (damages.insertionSort lineLe).Pairwise fun a b => a.line < b.line := by
  have hsorted := List.pairwise_insertionSort lineLe damages
  have hnodup : ((damages.insertionSort lineLe).map (·.line)).Nodup :=
    ((List.perm_insertionSort lineLe damages).map _).nodup_iff.mpr h
  rw [List.Nodup, List.pairwise_map] at hnodup
  refine (hsorted.and hnodup).imp fun {a b} hab => ?_
  rw [UInt16.lt_iff_toNat_lt]
  exact Nat.lt_of_le_of_ne (UInt16.le_iff_toNat_le.mp hab.1) fun heq => hab.2 (UInt16.toNat_inj.mp heq)

end Order

/-! ## カーソルの行 -/

theorem forceCursorRowDirty_eq {damages : List LineDamage} {row col cols rows : Nat} (hrow : row < rows) (hcol : col < cols) :
    forceCursorRowDirty damages row col cols rows = widenLine (UInt16.ofNat row) (UInt16.ofNat col) damages := by
  rw [forceCursorRowDirty, if_neg (by omega), Nat.min_eq_left (by omega)]

namespace SessionState

variable {s : SessionState} {last : Terminal}

/-- `last` を発行した後の、同じ大きさで構造の変わっていない状態。 -/
structure Follows (s : SessionState) (last : Terminal) : Prop where
  wellFormed : s.terminal.WellFormed
  lastWellFormed : last.WellFormed
  flag : s.terminal.fullDamagePending = false
  cols : s.terminal.cols = last.cols
  rows : s.terminal.rows = last.rows
  cells : s.lastEmittedCells = some last.screenCells
  lastCols : s.lastEmittedCols = last.cols
  lastRows : s.lastEmittedRows = last.rows
  cursor : s.lastCursor = last.cursorLook

namespace Follows

theorem length_current (h : s.Follows last) : s.terminal.screenCells.length = s.terminal.cols * s.terminal.rows :=
  h.wellFormed.cells.length_flatten

theorem length_last (h : s.Follows last) : last.screenCells.length = s.terminal.cols * s.terminal.rows := by
  rw [h.cols, h.rows]
  exact h.lastWellFormed.cells.length_flatten

theorem lookInside (h : s.Follows last) :
    (s.lastCursor.row < s.terminal.rows ∧ s.lastCursor.col < s.terminal.cols) ∧
      s.terminal.cursorLook.row < s.terminal.rows ∧ s.terminal.cursorLook.col < s.terminal.cols := by
  refine ⟨?_, h.wellFormed.cursor.row, Terminal.visibleCol_lt h.wellFormed⟩
  rw [h.cursor, h.rows, h.cols]
  exact ⟨h.lastWellFormed.cursor.row, Terminal.visibleCol_lt h.lastWellFormed⟩

end Follows

/-- セルの変化だけの損傷。 -/
def cellDamages (s : SessionState) (prev : List TermCell) : List LineDamage :=
  (List.range s.terminal.rows).filterMap (rowDamage s.terminal.screenCells prev s.terminal.cols)

/-- 並べ替える前の損傷。 -/
def rawDamages (s : SessionState) (prev : List TermCell) : List LineDamage :=
  if s.terminal.cursorLook ≠ s.lastCursor then
    widenLine (UInt16.ofNat s.terminal.cursorLook.row) (UInt16.ofNat s.terminal.cursorLook.col)
      (widenLine (UInt16.ofNat s.lastCursor.row) (UInt16.ofNat s.lastCursor.col) (s.cellDamages prev))
  else s.cellDamages prev

theorem Follows.dirtyRows_eq (h : s.Follows last) :
    s.dirtyRows = some (some ((s.rawDamages last.screenCells).insertionSort lineLe)) := by
  have hdims : s.dimsMatch = true := by
    rw [dimsMatch, h.cells, h.lastCols, h.lastRows]
    simp [h.length_last, h.cols, h.rows]
  obtain ⟨⟨hrow, hcol⟩, hrow', hcol'⟩ := h.lookInside
  rw [dirtyRows, h.flag, hdims, if_neg (by simp), h.cells]
  simp only [damages, diffRows_eq h.length_current h.length_last, Option.bind_eq_bind, Option.bind_some,
    forceCursorRowDirty_eq hrow hcol, forceCursorRowDirty_eq hrow' hcol', rawDamages]
  rfl

variable {prev : List TermCell}

theorem changed_iff {row col : Nat} :
    differs s.terminal.screenCells prev s.terminal.cols row col = true ↔ s.Changed prev row col := decide_eq_true_iff

theorem Untruncated.fits (h : s.Untruncated prev) : Fits s.terminal.screenCells prev s.terminal.cols s.terminal.rows :=
  fun row hrow col hcol hdiffers => h.cells row hrow col hcol (changed_iff.mp hdiffers)

/-- 2^16 行 2^16 列までの画面では、切り詰めは起こらない。 -/
theorem Follows.untruncated (h : s.Follows last) (hcols : s.terminal.cols ≤ 2 ^ 16) (hrows : s.terminal.rows ≤ 2 ^ 16) :
    s.Untruncated prev := by
  obtain ⟨hlast, hnow⟩ := h.lookInside
  refine ⟨by omega, fun row hrow col hcol _ => by omega, fun _ => by omega⟩

/-! ## 損傷の列 -/

theorem cellDamages_nodup (h : s.Untruncated prev) : ((s.cellDamages prev).map (·.line)).Nodup := by
  refine List.pairwise_map.mpr ((rowDamages_increasing h.fits).imp fun {a b} hlt heq => ?_)
  rw [heq] at hlt
  exact UInt16.lt_irrefl _ hlt

theorem rawDamages_nodup (h : s.Untruncated prev) : ((s.rawDamages prev).map (·.line)).Nodup := by
  unfold rawDamages
  split
  · exact widenLine_nodup (widenLine_nodup (cellDamages_nodup h))
  · exact cellDamages_nodup h

theorem rawDamages_inside (h : s.Untruncated prev) (hfollows : s.Follows last) :
    ∀ d ∈ s.rawDamages prev, d.Inside s.terminal.cols s.terminal.rows := by
  obtain ⟨⟨hrow, hcol⟩, hrow', hcol'⟩ := hfollows.lookInside
  have hcells : ∀ d ∈ s.cellDamages prev, d.Inside s.terminal.cols s.terminal.rows := rowDamages_inside h.fits
  unfold rawDamages
  split
  · rename_i hlook
    obtain ⟨⟨hr, hc⟩, hr', hc'⟩ := h.cursor hlook
    refine widenLine_inside (widenLine_inside hcells ?_ ?_) ?_ ?_
    · rwa [UInt16.toNat_ofNat_of_lt' hr]
    · rwa [UInt16.toNat_ofNat_of_lt' hc]
    · rwa [UInt16.toNat_ofNat_of_lt' hr']
    · rwa [UInt16.toNat_ofNat_of_lt' hc']
  · exact hcells

theorem cellDamages_damaged {row col : Nat} (hdamaged : Damaged (s.cellDamages prev) row col) :
    Damaged (s.rawDamages prev) row col := by
  unfold rawDamages
  split
  · exact hdamaged.widenLine.widenLine
  · exact hdamaged

/-- 変わったセルは損傷に含まれる。 -/
theorem changed_damaged (h : s.Untruncated prev) {row col : Nat} (hrow : row < s.terminal.rows) (hcol : col < s.terminal.cols)
    (hchanged : s.Changed prev row col) : Damaged (s.cellDamages prev) row col := by
  have hdiffers := changed_iff.mpr hchanged
  cases hspan : span (differs s.terminal.screenCells prev s.terminal.cols row) s.terminal.cols with
  | none => exact absurd (hdiffers.symm.trans (span_eq_none.mp hspan col hcol)) (Bool.false_ne_true ∘ Eq.symm)
  | some range =>
      obtain ⟨left, right⟩ := range
      obtain ⟨-, -, -, -, hall⟩ := span_eq_some hspan
      exact (rowDamages_damaged h.fits).mpr ⟨hrow, left, right, hspan, hall col hcol hdiffers⟩

/-- カーソルの見た目が変われば、前と今の位置が損傷に含まれる。 -/
theorem look_damaged (h : s.Untruncated prev) (hfollows : s.Follows last) (hlook : s.terminal.cursorLook ≠ s.lastCursor) :
    Damaged (s.rawDamages prev) s.lastCursor.row s.lastCursor.col ∧
      Damaged (s.rawDamages prev) s.terminal.cursorLook.row s.terminal.cursorLook.col := by
  obtain ⟨⟨hr, hc⟩, hr', hc'⟩ := h.cursor hlook
  obtain ⟨⟨hrow, hcol⟩, -⟩ := hfollows.lookInside
  have hinside : ∀ d ∈ s.cellDamages prev, d.Inside s.terminal.cols s.terminal.rows := rowDamages_inside h.fits
  have hinside' : ∀ d ∈ widenLine (UInt16.ofNat s.lastCursor.row) (UInt16.ofNat s.lastCursor.col) (s.cellDamages prev),
      d.Inside s.terminal.cols s.terminal.rows := by
    refine widenLine_inside hinside ?_ ?_
    · rwa [UInt16.toNat_ofNat_of_lt' hr]
    · rwa [UInt16.toNat_ofNat_of_lt' hc]
  have hold : Damaged (widenLine (UInt16.ofNat s.lastCursor.row) (UInt16.ofNat s.lastCursor.col) (s.cellDamages prev))
      _ _ := widenLine_damaged fun d hd => (hinside d hd).1
  have hnew : Damaged (widenLine (UInt16.ofNat s.terminal.cursorLook.row) (UInt16.ofNat s.terminal.cursorLook.col) _)
      _ _ := widenLine_damaged fun d hd => (hinside' d hd).1
  rw [UInt16.toNat_ofNat_of_lt' hr, UInt16.toNat_ofNat_of_lt' hc] at hold
  rw [UInt16.toNat_ofNat_of_lt' hr', UInt16.toNat_ofNat_of_lt' hc'] at hnew
  rw [rawDamages, if_pos hlook]
  exact ⟨hold.widenLine, hnew⟩

end SessionState

/-! ## 発行 -/

/-- 発行は、端末の今の画面とカーソルを写す。 -/
structure ScreenUpdate.Shows (g : ScreenUpdate) (t : Terminal) : Prop where
  cells : g.cells = t.screenCells.map toCellData
  cols : g.cols = UInt32.ofNat t.cols
  rows : g.rows = UInt32.ofNat t.rows
  row : g.cursorRow = UInt32.ofNat t.cursorLook.row
  col : g.cursorCol = UInt32.ofNat t.cursorLook.col
  visible : g.cursorVisible = t.cursorLook.visible
  shape : g.cursorShape = t.cursorLook.shape
  blink : g.cursorBlink = t.cursorLook.blink
  color : g.cursorColor = t.host.cursorColor

theorem SessionState.makeScreenUpdate_eq {s s' : SessionState} {g : ScreenUpdate}
    (h : s.makeScreenUpdate = some (g, s')) : s' = s.emitted ∧ s.dirtyRows = some g.dirtyRows ∧ g.Shows s.terminal := by
  obtain ⟨dirty, hdirty, heq⟩ := Option.bind_eq_some_iff.mp h
  cases heq
  exact ⟨rfl, hdirty, rfl, rfl, rfl, rfl, rfl, rfl, rfl, rfl, rfl⟩

theorem SessionState.makeScreenUpdate_some {s : SessionState} (h : s.dirtyRows ≠ none) :
    ∃ g, s.makeScreenUpdate = some (g, s.emitted) := by
  obtain ⟨dirty, hdirty⟩ := Option.ne_none_iff_exists'.mp h
  rw [makeScreenUpdate, hdirty]
  exact ⟨_, rfl⟩

/-- 位置 `(row, col)` に描かれるカーソル。 -/
theorem ScreenUpdate.Shows.drawnCursor_eq {g : ScreenUpdate} {t : Terminal} (h : g.Shows t)
    (hrow : t.cursorLook.row < 2 ^ 32) (hcol : t.cursorLook.col < 2 ^ 32) (row col : Nat) :
    g.drawnCursor row col =
      if t.cursorLook.visible = true ∧ t.cursorLook.row = row ∧ t.cursorLook.col = col then
        some (t.cursorLook.shape, t.cursorLook.blink, t.host.cursorColor)
      else none := by
  rw [ScreenUpdate.drawnCursor, h.visible, h.row, h.col, h.shape, h.blink, h.color, UInt32.toNat_ofNat_of_lt' hrow,
    UInt32.toNat_ofNat_of_lt' hcol]

namespace SessionState

variable {s : SessionState} {last : Terminal} {f g : ScreenUpdate} {damages : List LineDamage}

/-- 損傷の位置だけを置き換えると、今の画面になる。 -/
theorem patched_eq (hfollows : s.Follows last) (h : s.Untruncated last.screenCells) (hf : f.Shows last)
    (hg : g.Shows s.terminal)
    (hcells : ∀ row col, Damaged (s.cellDamages last.screenCells) row col → Damaged damages row col) :
    f.patched g damages = g.cells := by
  have hcols : g.cols.toNat = s.terminal.cols := by rw [hg.cols, UInt32.toNat_ofNat_of_lt' h.size.1]
  have hpos := hfollows.wellFormed.cols
  have hlen := hfollows.length_current.trans hfollows.length_last.symm
  refine List.ext_getElem? fun i => ?_
  rw [ScreenUpdate.patched, List.getElem?_mapIdx, hcols, hf.cells, hg.cells, List.getElem?_map, List.getElem?_map]
  rcases Nat.lt_or_ge i last.screenCells.length with hi | hi
  · obtain ⟨old, hold⟩ : ∃ old, last.screenCells[i]? = some old := ⟨_, List.getElem?_eq_getElem hi⟩
    obtain ⟨new, hnew⟩ : ∃ new, s.terminal.screenCells[i]? = some new := ⟨_, List.getElem?_eq_getElem (hlen ▸ hi)⟩
    rw [hold, hnew]
    simp only [Option.map_some, Option.getD_some, Option.some_inj]
    split
    · rfl
    · rename_i hdamaged
      have hindex : i / s.terminal.cols * s.terminal.cols + i % s.terminal.cols = i := Nat.div_add_mod' ..
      have hrow : i / s.terminal.cols < s.terminal.rows := by
        refine Nat.div_lt_of_lt_mul ?_
        rw [← hfollows.length_last]
        exact hi
      have hsame : ¬s.Changed last.screenCells (i / s.terminal.cols) (i % s.terminal.cols) := fun hchanged =>
        hdamaged (hcells _ _ (changed_damaged h hrow (Nat.mod_lt _ hpos) hchanged))
      rw [Changed, not_not, hindex, hold, hnew] at hsame
      rw [Option.some_inj.mp hsame]
  · rw [List.getElem?_eq_none hi, List.getElem?_eq_none (hlen ▸ hi)]
    rfl

/-- カーソルの違う位置は、カーソルの見た目が変わったか、見えているカーソルの色だけが変わった位置である。 -/
theorem drawnCursor_ne (hfollows : s.Follows last) (h : s.Untruncated last.screenCells) (hf : f.Shows last)
    (hg : g.Shows s.terminal) {row col : Nat} (hne : f.drawnCursor row col ≠ g.drawnCursor row col) :
    (s.terminal.cursorLook ≠ s.lastCursor ∧ (row = s.lastCursor.row ∧ col = s.lastCursor.col ∨
        row = s.terminal.cursorLook.row ∧ col = s.terminal.cursorLook.col)) ∨
      s.terminal.host.cursorColor ≠ last.host.cursorColor ∧ s.terminal.cursorLook.visible = true ∧
        row = s.terminal.cursorLook.row ∧ col = s.terminal.cursorLook.col := by
  obtain ⟨⟨hrow, hcol⟩, hrow', hcol'⟩ := hfollows.lookInside
  have hsize := h.size
  rw [hg.drawnCursor_eq (by omega) (by omega), hf.drawnCursor_eq, ← hfollows.cursor] at hne
  · by_cases hlook : s.terminal.cursorLook = s.lastCursor
    · right
      rw [hlook] at hne ⊢
      split at hne
      · rename_i hdrawn
        refine ⟨fun hcolor => hne ?_, hdrawn.1, hdrawn.2.1.symm, hdrawn.2.2.symm⟩
        rw [hcolor]
      · exact absurd rfl hne
    · left
      refine ⟨hlook, ?_⟩
      by_contra hneither
      rw [not_or] at hneither
      rw [if_neg fun hdrawn => hneither.1 ⟨hdrawn.2.1.symm, hdrawn.2.2.symm⟩,
        if_neg fun hdrawn => hneither.2 ⟨hdrawn.2.1.symm, hdrawn.2.2.symm⟩] at hne
      exact hne rfl
  · rw [← hfollows.cursor]
    omega
  · rw [← hfollows.cursor]
    omega

/-- 色だけが変わった見えているカーソルの位置では、描かれるカーソルが違う。 -/
theorem drawnCursor_color (hfollows : s.Follows last) (h : s.Untruncated last.screenCells) (hf : f.Shows last)
    (hg : g.Shows s.terminal) (hcolor : s.terminal.host.cursorColor ≠ last.host.cursorColor)
    (hvisible : s.terminal.cursorLook.visible = true) (hlook : s.terminal.cursorLook = s.lastCursor) :
    f.drawnCursor s.terminal.cursorLook.row s.terminal.cursorLook.col ≠
      g.drawnCursor s.terminal.cursorLook.row s.terminal.cursorLook.col := by
  obtain ⟨-, hrow, hcol⟩ := hfollows.lookInside
  have hsize := h.size
  have hlast : last.cursorLook = s.terminal.cursorLook := hfollows.cursor.symm.trans hlook.symm
  rw [hg.drawnCursor_eq (by omega) (by omega), hf.drawnCursor_eq (by rw [hlast]; omega) (by rw [hlast]; omega), hlast,
    if_pos ⟨hvisible, rfl, rfl⟩, if_pos ⟨hvisible, rfl, rfl⟩]
  intro heq
  injection heq with heq
  injection heq with _ heq
  injection heq with _ heq
  exact hcolor heq.symm

/-- 損傷が変化を隠さないのは、カーソルの色の変化が覆われるときに限る。 -/
theorem damageCovers_iff (hfollows : s.Follows last) (h : s.Untruncated last.screenCells) (hf : f.Shows last)
    (hg : g.Shows s.terminal) :
    f.DamageCovers g ((s.rawDamages last.screenCells).insertionSort lineLe) ↔
      s.ColorCovered last.screenCells last.host.cursorColor := by
  have hperm (row col : Nat) : Damaged ((s.rawDamages last.screenCells).insertionSort lineLe) row col ↔
      Damaged (s.rawDamages last.screenCells) row col := damaged_perm (List.perm_insertionSort ..) row col
  constructor
  · intro hcovers
    by_contra hnot
    simp only [ColorCovered, not_or] at hnot
    obtain ⟨hcolor, hvisible, hlook, hrange⟩ := hnot
    have hlook := not_not.mp hlook
    have hne := drawnCursor_color hfollows h hf hg hcolor (Bool.eq_true_of_not_eq_false hvisible) hlook
    have hdamaged := (hperm _ _).mp (hcovers.cursor _ _ hne)
    rw [rawDamages, if_neg (not_not.mpr hlook)] at hdamaged
    obtain ⟨-, left, right, hspan, hleft, hright⟩ := (rowDamages_damaged h.fits).mp hdamaged
    obtain ⟨-, hlt, hl, hr, -⟩ := span_eq_some hspan
    exact hrange ⟨left, right, hleft, hright, hlt, changed_iff.mp hl, changed_iff.mp hr⟩
  · intro hcolor
    refine ⟨patched_eq hfollows h hf hg fun row col hdamaged => (hperm row col).mpr (cellDamages_damaged hdamaged), ?_,
      insertionSort_increasing (rawDamages_nodup h), ?_, ?_⟩
    · intro row col hne
      rw [hperm]
      rcases drawnCursor_ne hfollows h hf hg hne with ⟨hlook, hpos⟩ | ⟨hcolors, hvisible, rfl, rfl⟩
      · obtain ⟨hold, hnew⟩ := look_damaged h hfollows hlook
        rcases hpos with ⟨rfl, rfl⟩ | ⟨rfl, rfl⟩
        · exact hold
        · exact hnew
      · rcases hcolor with hsame | hinvisible | hlook | ⟨left, right, hleft, hright, hlt, hl, hr⟩
        · exact absurd hsame hcolors
        · exact absurd (hvisible.symm.trans hinvisible) (Bool.false_ne_true ∘ Eq.symm)
        · exact (look_damaged h hfollows hlook).2
        · refine cellDamages_damaged ((rowDamages_damaged h.fits).mpr ⟨hfollows.lookInside.2.1, ?_⟩)
          have hdiffers := changed_iff.mpr hr
          cases hspan : span (differs s.terminal.screenCells last.screenCells s.terminal.cols s.terminal.cursorLook.row)
              s.terminal.cols with
          | none => exact absurd (hdiffers.symm.trans (span_eq_none.mp hspan right hlt)) (Bool.false_ne_true ∘ Eq.symm)
          | some range =>
              obtain ⟨-, -, -, -, hall⟩ := span_eq_some hspan
              have hfirst := hall left (by omega) (changed_iff.mpr hl)
              have hlast := hall right hlt hdiffers
              exact ⟨range.1, range.2, rfl, hfirst.1.trans hleft, hright.trans hlast.2⟩
    · intro d hd
      obtain ⟨hle, hright, -⟩ := rawDamages_inside h hfollows d ((List.perm_insertionSort ..).mem_iff.mp hd)
      rw [hg.cols, UInt32.toNat_ofNat_of_lt' h.size.1]
      exact ⟨hle, hright⟩
    · intro d hd
      obtain ⟨-, -, hline⟩ := rawDamages_inside h hfollows d ((List.perm_insertionSort ..).mem_iff.mp hd)
      rwa [hg.rows, UInt32.toNat_ofNat_of_lt' h.size.2]

/-! ## 操作を挟んだ発行 -/

theorem dirtyRows_ne_none (h : s.Consistent) : s.dirtyRows ≠ none := by
  unfold dirtyRows
  split
  · exact Option.some_ne_none _
  · rename_i hdiff
    simp only [dimsMatch, Bool.or_eq_true, Bool.not_eq_true', not_or, Bool.not_eq_false, Bool.and_eq_true,
      decide_eq_true_eq, Option.any_eq_true] at hdiff
    obtain ⟨-, -, prev, hprev, hlen⟩ := hdiff
    rw [hprev]
    simp only [SessionState.damages, diffRows_eq h.terminal.cells.length_flatten hlen, Terminal.screenCells,
      Option.bind_eq_bind, Option.bind_some]
    exact Option.some_ne_none _

theorem dirtyRows_of_flag (h : s.terminal.fullDamagePending = true) : s.dirtyRows = some none := by
  rw [dirtyRows, h, Bool.true_or, if_pos rfl]

/-- 発行の後、構造が変わらなければ、次の発行は差分を取る。 -/
theorem run_follows {s' : SessionState} {env : Env} {ops : List Op} (h : s.terminal.WellFormed)
    (hrun : s.emitted.run env ops = some s') (hflag : s'.terminal.fullDamagePending = false) : s'.Follows s.terminal := by
  have hwf : s.emitted.terminal.WellFormed := { h with }
  obtain ⟨u, hu, huwf, hsame⟩ := run_some env hwf ops
  obtain rfl : s' = u := Option.some_inj.mp (hrun.symm.trans hu)
  have hkeeps := run_keepsDamage hwf hrun
  obtain ⟨hcols, hrows⟩ := hkeeps.size.resolve_left (by simp [hflag])
  exact ⟨huwf, h, hflag, hcols, hrows, hsame.cells, hsame.cols, hsame.rows, hsame.cursor⟩

theorem rawDamages_self (h : s.terminal.cursorLook = s.lastCursor) : s.rawDamages s.terminal.screenCells = [] := by
  rw [rawDamages, if_neg (not_not.mpr h), cellDamages, List.filterMap_eq_nil_iff]
  intro row _
  have hspan : span (differs s.terminal.screenCells s.terminal.screenCells s.terminal.cols row) s.terminal.cols = none :=
    span_eq_none.mpr fun col _ => by simp [differs]
  rw [rowDamage, hspan]
  rfl

end SessionState

/-- 構造が変わるか、カーソルの色の変化が覆われるとき、かつそのときに限り、次の発行は変化を隠さない。 -/
theorem hidesNothing_iff {env : Env} {s s' s'' : SessionState} {ops : List SessionState.Op} {f g : ScreenUpdate}
    (h : s.terminal.WellFormed) (hf : f.Shows s.terminal) (hrun : s.emitted.run env ops = some s')
    (hg : s'.makeScreenUpdate = some (g, s''))
    (hfits : s'.terminal.fullDamagePending = true ∨ s'.Untruncated s.terminal.screenCells) :
    HidesNothing env s.emitted ops f g ↔
      s'.terminal.fullDamagePending = true ∨ s'.ColorCovered s.terminal.screenCells s.terminal.host.cursorColor := by
  obtain ⟨-, hdirty, hshows⟩ := SessionState.makeScreenUpdate_eq hg
  have hwf : s.emitted.terminal.WellFormed := { h with }
  have hnone (hflag : s'.terminal.fullDamagePending = true) : g.dirtyRows = none :=
    Option.some_inj.mp (hdirty.symm.trans (SessionState.dirtyRows_of_flag hflag))
  have hrestructured (hre : Restructured env s.emitted ops) : g.dirtyRows = none := hnone (hre.damaged hwf hrun)
  have hresized (hne : (f.cols, f.rows) ≠ (g.cols, g.rows)) : g.dirtyRows = none := by
    refine hnone (Bool.eq_true_of_not_eq_false fun hflag => hne ?_)
    have hfollows := SessionState.run_follows h hrun hflag
    rw [hf.cols, hf.rows, hshows.cols, hshows.rows, hfollows.cols, hfollows.rows]
  have hidle (hops : ops = []) : g.dirtyRows = some [] := by
    subst hops
    obtain rfl : s.emitted = s' := Option.some_inj.mp hrun
    have hfollows := SessionState.run_follows h hrun rfl
    have heq := hdirty.symm.trans hfollows.dirtyRows_eq
    rw [show s.terminal.screenCells = s.emitted.terminal.screenCells from rfl,
      SessionState.rawDamages_self hfollows.cursor.symm] at heq
    exact Option.some_inj.mp heq
  cases hflag : s'.terminal.fullDamagePending with
  | true =>
      refine iff_of_true ⟨fun damages hdamages => ?_, hrestructured, hresized, hidle⟩ (.inl rfl)
      exact absurd (hdamages.symm.trans (hnone hflag)) (Option.some_ne_none _)
  | false =>
      have hfollows := SessionState.run_follows h hrun hflag
      have hsorted := Option.some_inj.mp (hdirty.symm.trans hfollows.dirtyRows_eq)
      have hiff := SessionState.damageCovers_iff hfollows (hfits.resolve_left (by simp [hflag])) hf hshows
      refine ⟨fun hhides => .inr (hiff.mp (hhides.covers _ hsorted)), fun hcolor => ?_⟩
      refine ⟨fun damages hdamages => ?_, hrestructured, hresized, hidle⟩
      obtain rfl := Option.some_inj.mp (hdamages.symm.trans hsorted)
      exact hiff.mpr (hcolor.resolve_left Bool.false_ne_true)

end IsekaiTerminal.Emulator
