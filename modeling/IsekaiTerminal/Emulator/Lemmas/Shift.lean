import IsekaiTerminal.Emulator.Shift
import IsekaiTerminal.Emulator.Lemmas.Reaches

/-!
# ずらす操作の補題

どの操作も、行の列の操作と、触れない欄の枠とに分かれる。
-/

namespace IsekaiTerminal.Lib

variable {α : Type}

theorem getElem?_onRegion_of_ge {f : List α → List α} (hf : ∀ m, (f m).length = m.length) {start stop : Nat} {l : List α}
    {i : Nat} (hle : start ≤ stop) (hi : stop ≤ i) (hl : stop ≤ l.length) : (onRegion f start stop l)[i]? = l[i]? := by
  have hfront : (l.take start ++ f ((l.take stop).drop start)).length = stop := by
    rw [List.length_append, hf, List.length_take, length_region hl]
    omega
  rw [onRegion, List.getElem?_append_right (by omega), hfront, List.getElem?_drop, Nat.add_sub_cancel' hi]

/-- 区間の外は、上も下も変わらない。 -/
theorem getElem?_onRegion_outside {f : List α → List α} (hf : ∀ m, (f m).length = m.length) {start last : Nat}
    {l : List α} {i : Nat} (hle : start ≤ last) (hl : last < l.length) (hi : ¬(start ≤ i ∧ i ≤ last)) :
    (onRegion f start (last + 1) l)[i]? = l[i]? := by
  by_cases hbefore : i < start
  · exact getElem?_onRegion_of_lt hbefore (by omega)
  · exact getElem?_onRegion_of_ge hf (by omega) (by omega) hl

theorem onRegion_shiftUp_min {start last : Nat} {l : List α} (hle : start ≤ last) (hl : last < l.length) (n : Nat)
    (x : α) :
    onRegion (shiftUp (min n (last - start + 1)) x) start (last + 1) l = onRegion (shiftUp n x) start (last + 1) l := by
  have hsize : ((l.take (last + 1)).drop start).length = last - start + 1 := by
    rw [length_region hl]
    omega
  rw [onRegion, onRegion, ← shiftUp_min n, hsize]

end IsekaiTerminal.Lib

namespace IsekaiTerminal.Emulator

open Lib (onRegion shiftUp shiftDown)

namespace Terminal

variable {t t' u : Terminal}

/-! ## 触れない欄 -/

/-- 見えている画面のほかの欄のうち、ずらす操作が触れないもの。 -/
structure Framed (t t' : Terminal) : Prop where
  hidden : if t.altActive then t'.mainCells = t.mainCells else t'.altCells = t.altCells
  cursor : t'.cursor = t.cursor
  margins : t'.scrollTop = t.scrollTop ∧ t'.scrollBottom = t.scrollBottom

theorem Framed.refl (t : Terminal) : Framed t t := by
  refine ⟨?_, rfl, rfl, rfl⟩
  split <;> rfl

theorem framed_setCells (t : Terminal) (g : Grid) : Framed t (t.setCells g) := by
  unfold setCells
  by_cases halt : t.altActive = true
  · rw [if_pos halt]
    exact ⟨by rw [if_pos halt], rfl, rfl, rfl⟩
  · rw [if_neg halt]
    exact ⟨by rw [if_neg halt], rfl, rfl, rfl⟩

/-- 行をずらす前の、画像の消去と履歴への追加は、枠に触れない。 -/
theorem framed_damaged (hmain : u.mainCells = t.mainCells) (halt : u.altCells = t.altCells)
    (hactive : u.altActive = t.altActive) (hcursor : u.cursor = t.cursor)
    (hmargins : u.scrollTop = t.scrollTop ∧ u.scrollBottom = t.scrollBottom) (g : Grid) :
    Framed t (u.damageAll.setCells g) := by
  obtain ⟨hidden, hcursor', htop, hbottom⟩ := framed_setCells u.damageAll g
  refine ⟨?_, hcursor'.trans hcursor, htop.trans hmargins.1, hbottom.trans hmargins.2⟩
  rw [← hactive, ← hmain, ← halt]
  exact hidden

@[simp] theorem setCells_pendingScrollback (t : Terminal) (g : Grid) :
    (t.setCells g).pendingScrollback = t.pendingScrollback := by unfold setCells; split <;> rfl

theorem pendingScrollback_pushedRows (t : Terminal) (k : Nat) :
    (t.pushedRows k).pendingScrollback = trimmed (t.pendingScrollback ++ t.mainCells.take k) := by
  rw [pushedRows, trimPendingScrollback_eq]

theorem cells_of_main (h : t.altActive = false) : t.cells = t.mainCells := by
  rw [cells, if_neg (by rw [h]; exact Bool.false_ne_true)]

/-! ## 行 -/

theorem framed_linesUp (t : Terminal) (top n : Nat) : Framed t (t.linesUp top n) :=
  framed_damaged rfl rfl rfl rfl ⟨rfl, rfl⟩ _

theorem framed_linesDown (t : Terminal) (top n : Nat) : Framed t (t.linesDown top n) :=
  framed_damaged rfl rfl rfl rfl ⟨rfl, rfl⟩ _

theorem framed_scrolledUp (t : Terminal) (n : Nat) : Framed t (t.scrolledUp n) := by
  unfold scrolledUp
  split
  · rw [linesUp]
    refine framed_damaged ?_ ?_ ?_ ?_ ⟨?_, ?_⟩ _ <;> rw [pushedRows, trimPendingScrollback_eq]
  · exact framed_linesUp t _ _

theorem cells_linesUp (t : Terminal) (top n : Nat) :
    (t.linesUp top n).cells = onRegion (shiftUp n t.blankRow) top (t.scrollBottom + 1) t.cells := cells_setCells _ _

theorem cells_linesDown (t : Terminal) (top n : Nat) :
    (t.linesDown top n).cells = onRegion (shiftDown n t.blankRow) top (t.scrollBottom + 1) t.cells := cells_setCells _ _

/-- 領域の行数を超える個数は、領域の全体を空白にする。 -/
theorem cells_scrolledUp (h : t.WellFormed) (n : Nat) :
    (t.scrolledUp n).cells = onRegion (shiftUp n t.blankRow) t.scrollTop (t.scrollBottom + 1) t.cells := by
  have hclamp : onRegion (shiftUp (t.scrolledRows n) t.blankRow) t.scrollTop (t.scrollBottom + 1) t.cells =
      onRegion (shiftUp n t.blankRow) t.scrollTop (t.scrollBottom + 1) t.cells :=
    Lib.onRegion_shiftUp_min h.top (by rw [h.cells.length]; exact h.bottom) n t.blankRow
  unfold scrolledUp
  split
  · rw [cells_linesUp, ← hclamp, pushedRows, trimPendingScrollback_eq]
    rfl
  · rw [cells_linesUp, hclamp]

theorem scrolledUp_pushed (hscrolls : t.scrollTop = 0 ∧ t.altActive = false) (n : Nat) :
    (t.scrolledUp n).pendingScrollback =
      trimmed (t.pendingScrollback ++ t.cells.take (min n (t.scrollBottom - t.scrollTop + 1))) := by
  rw [scrolledUp, if_pos hscrolls, linesUp, setCells_pendingScrollback, cells_of_main hscrolls.2]
  exact pendingScrollback_pushedRows t _

theorem scrolledUp_unpushed (hscrolls : ¬(t.scrollTop = 0 ∧ t.altActive = false)) (n : Nat) :
    (t.scrolledUp n).pendingScrollback = t.pendingScrollback := by
  rw [scrolledUp, if_neg hscrolls, linesUp, setCells_pendingScrollback]
  rfl

theorem pendingScrollback_linesUp (t : Terminal) (top n : Nat) :
    (t.linesUp top n).pendingScrollback = t.pendingScrollback := setCells_pendingScrollback _ _

theorem pendingScrollback_linesDown (t : Terminal) (top n : Nat) :
    (t.linesDown top n).pendingScrollback = t.pendingScrollback := setCells_pendingScrollback _ _

end Terminal

/-! ## 操作の結果 -/

namespace Shift

open Terminal

variable {env : Env} {t t' : Terminal} {s : Shift}

theorem cursorInRegion_iff : CursorInRegion t ↔ ¬(t.cursor.row < t.scrollTop ∨ t.cursor.row > t.scrollBottom) := by
  rw [not_or, Nat.not_lt, gt_iff_lt, Nat.not_lt]
  rfl

/-- 履歴へ送らない操作。 -/
theorem shifted_of_framed (hframed : Framed t t') (hcells : t'.cells = s.onRows env t t.cells)
    (houtside : ∀ r, ¬s.Touches t r → (s.onRows env t t.cells)[r]? = t.cells[r]?) (hscrolls : ¬s.Scrolls t)
    (hpending : t'.pendingScrollback = t.pendingScrollback) : Shifted env s t t' :=
  { cells := hcells
    hidden := hframed.hidden
    outside := fun r hr => by rw [hcells, houtside r hr]
    cursor := hframed.cursor
    margins := hframed.margins
    pushed := fun h => absurd h hscrolls
    unpushed := fun _ => hpending }

/-- 領域の外の行は、変わらない。 -/
theorem outside_region (h : t.WellFormed) {f : List Row → List Row} (hf : ∀ m, (f m).length = m.length) {top r : Nat}
    (htop : top ≤ t.scrollBottom) (hr : ¬(top ≤ r ∧ r ≤ t.scrollBottom)) :
    (onRegion f top (t.scrollBottom + 1) t.cells)[r]? = t.cells[r]? :=
  Lib.getElem?_onRegion_outside hf htop (by rw [h.cells.length]; exact h.bottom) hr

theorem shifted_scrolledUp (h : t.WellFormed) {n : Nat}
    (hs : s = .su n ∨ s = .lf ∧ n = 1) : Shifted env s t (t.scrolledUp n) := by
  have hcells := cells_scrolledUp h n
  have hframed := framed_scrolledUp t n
  have houtside (r : Nat) (hr : ¬(t.scrollTop ≤ r ∧ r ≤ t.scrollBottom)) : (t.scrolledUp n).cells[r]? = t.cells[r]? := by
    rw [hcells]
    exact outside_region h (fun _ => Lib.length_shiftUp ..) h.top hr
  obtain rfl | ⟨rfl, rfl⟩ := hs
  · exact ⟨hcells, hframed.hidden, houtside, hframed.cursor, hframed.margins, fun hscrolls => scrolledUp_pushed hscrolls n,
      fun hscrolls => scrolledUp_unpushed hscrolls n⟩
  · exact ⟨hcells, hframed.hidden, houtside, hframed.cursor, hframed.margins, fun hscrolls => scrolledUp_pushed hscrolls 1,
      fun hscrolls => scrolledUp_unpushed hscrolls 1⟩

theorem modify_eq_set {α : Type} {l : List α} {i : Nat} {x : α} (h : l[i]? = some x) (f : α → α) :
    l.modify i f = l.set i (f x) := by
  refine List.ext_getElem? fun j => ?_
  rw [List.getElem?_modify, List.getElem?_set]
  by_cases hij : i = j
  · subst hij
    rw [if_pos rfl, if_pos (List.getElem?_eq_some_iff.1 h).1, h]
    simp only [if_true, Option.map_eq_map, Option.map_some]
  · rw [if_neg hij]
    simp only [if_neg hij, Option.map_eq_map, Option.map_id_fun', id_eq]

/-- カーソルの行だけを書き換える操作。 -/
theorem shifted_edit {row : Row} (hrow : t.cells[t.cursor.row]? = some row) {f : Row → Row}
    (hrows : s.onRows env t = fun rows => rows.modify t.cursor.row fun old => sanitizeWideCells env (f old))
    (htouches : ∀ r, s.Touches t r ↔ r = t.cursor.row) (hscrolls : ¬s.Scrolls t) :
    Shifted env s t (t.setCells (t.cells.set t.cursor.row (sanitizeWideCells env (f row)))) := by
  refine shifted_of_framed (framed_setCells t _) ?_ (fun r hr => ?_) hscrolls (setCells_pendingScrollback _ _)
  · rw [cells_setCells, hrows]
    exact (modify_eq_set hrow fun old => sanitizeWideCells env (f old)).symm
  · have hne : t.cursor.row ≠ r := fun heq => hr ((htouches r).2 heq.symm)
    rw [hrows, List.getElem?_modify]
    simp only [if_neg hne, Option.map_eq_map, Option.map_id_fun', id_eq]

/-- どの操作も失敗せず、列の操作に等しい。 -/
theorem exists_shifted (h : t.WellFormed) (s : Shift) (hcount : 1 ≤ s.count) (hat : s.AtMargin t) :
    ∃ t', t.shift env s = some t' ∧ Shifted env s t t' := by
  obtain ⟨row, hrow, -⟩ := h.cursorRow
  cases s with
  | su n => exact ⟨_, scrollUpRegion_eq h n, shifted_scrolledUp h (Or.inl rfl)⟩
  | lf =>
      have hbottom : t.cursor.row = t.scrollBottom := hat
      refine ⟨_, ?_, shifted_scrolledUp h (Or.inr ⟨rfl, rfl⟩)⟩
      rw [Terminal.shift, newline, if_pos hbottom]
      exact scrollUpRegion_eq h 1
  | sd n =>
      refine ⟨_, shiftRowsDown_damageAll h h.top n, ?_⟩
      exact shifted_of_framed (framed_linesDown t _ _) (cells_linesDown t _ _)
        (fun r hr => outside_region h (fun _ => Lib.length_shiftDown ..) h.top hr) id (pendingScrollback_linesDown t _ _)
  | ri =>
      have htop : t.cursor.row = t.scrollTop := hat
      refine ⟨t.linesDown t.scrollTop 1, ?_, ?_⟩
      · rw [Terminal.shift, reverseIndex, if_pos htop]
        exact shiftRowsDown_damageAll h h.top 1
      · exact shifted_of_framed (framed_linesDown t _ _) (cells_linesDown t _ _)
          (fun r hr => outside_region h (fun _ => Lib.length_shiftDown ..) h.top hr) id (pendingScrollback_linesDown t _ _)
  | il n =>
      rw [Terminal.shift, insertLines]
      by_cases hin : CursorInRegion t
      · refine ⟨t.linesDown t.cursor.row n, ?_, ?_⟩
        · rw [if_neg (cursorInRegion_iff.1 hin)]
          exact shiftRowsDown_damageAll h hin.2 n
        · refine shifted_of_framed (framed_linesDown t _ _) ?_ (fun r hr => ?_) id (pendingScrollback_linesDown t _ _)
          · exact (cells_linesDown t _ _).trans (if_pos hin).symm
          · exact (congrArg (·[r]?) (if_pos hin)).trans
              (outside_region h (fun _ => Lib.length_shiftDown ..) hin.2 fun hr' => hr ⟨hin, hr'⟩)
      · refine ⟨t, if_pos (not_not.1 (mt cursorInRegion_iff.2 hin)), ?_⟩
        exact shifted_of_framed (Framed.refl t) (if_neg hin).symm (fun r _ => congrArg (·[r]?) (if_neg hin)) id rfl
  | dl n =>
      rw [Terminal.shift, deleteLines]
      by_cases hin : CursorInRegion t
      · refine ⟨t.linesUp t.cursor.row n, ?_, ?_⟩
        · rw [if_neg (cursorInRegion_iff.1 hin)]
          exact shiftRowsUp_damageAll h hin.2 n
        · refine shifted_of_framed (framed_linesUp t _ _) ?_ (fun r hr => ?_) id (pendingScrollback_linesUp t _ _)
          · exact (cells_linesUp t _ _).trans (if_pos hin).symm
          · exact (congrArg (·[r]?) (if_pos hin)).trans
              (outside_region h (fun _ => Lib.length_shiftUp ..) hin.2 fun hr' => hr ⟨hin, hr'⟩)
      · refine ⟨t, if_pos (not_not.1 (mt cursorInRegion_iff.2 hin)), ?_⟩
        exact shifted_of_framed (Framed.refl t) (if_neg hin).symm (fun r _ => congrArg (·[r]?) (if_neg hin)) id rfl
  | ich n => exact ⟨_, insertChars_eq hrow h.cells h.cols hcount, shifted_edit hrow rfl (fun _ => Iff.rfl) id⟩
  | dch n => exact ⟨_, deleteChars_eq hrow h.cells h.cols hcount, shifted_edit hrow rfl (fun _ => Iff.rfl) id⟩
  | ech n => exact ⟨_, eraseChars_eq hrow h.cells h.cols hcount, shifted_edit hrow rfl (fun _ => Iff.rfl) id⟩

/-! ## 遷移 -/

theorem Sends.count_pos {ev : Event} (h : Sends ev s) : 1 ≤ s.count := by
  cases h with
  | lf => exact Nat.le_refl 1
  | ri => exact Nat.le_refl 1
  | su | sd | il | dl | ich | dch | ech => exact Nat.le_max_right _ _

theorem Sends.step_eq {ev : Event} (h : Sends ev s) (hlf : s ≠ .lf) : t.step env ev = t.shift env s := by
  cases h with
  | lf => exact absurd rfl hlf
  | sd hcount =>
      rename_i params
      have hguard : ([] : List UInt8).isEmpty = true ∧ params.count ≤ 1 := ⟨rfl, hcount⟩
      exact if_pos hguard
  | su | ri | il | dl | ich | dch | ech => rfl

/-- LF は、OSC 133 の出力の取り込みの後で、改行を行う。 -/
theorem step_lf {byte : UInt8} (h : byte = 0x0A ∨ byte = 0x0B ∨ byte = 0x0C) :
    ∃ prompt, t.step env (.execute byte) = ({ t with prompt } : Terminal).newline := by
  have hcapture : ∃ prompt, t.captureLine = { t with prompt } := by
    unfold captureLine
    split
    · exact ⟨_, rfl⟩
    · exact ⟨_, rfl⟩
  obtain ⟨prompt, heq⟩ := hcapture
  have hother : byte ≠ 0x07 ∧ byte ≠ 0x0D := by
    rcases h with rfl | rfl | rfl <;> decide
  refine ⟨prompt, ?_⟩
  rw [Terminal.step, execute, if_neg hother.1, if_neg hother.2, if_pos h, heq]

theorem Sends.exists_shifted {ev : Event} (hsends : Sends ev s) (h : t.WellFormed) (hat : s.AtMargin t) :
    ∃ t', t.step env ev = some t' ∧ Shifted env s t t' := by
  by_cases hlf : s = .lf
  · subst hlf
    cases hsends with
    | lf hbyte =>
        obtain ⟨prompt, hstep⟩ := @step_lf env t _ hbyte
        have hwf : ({ t with prompt } : Terminal).WellFormed := h.control rfl h.cursor
        obtain ⟨t', hshift, hshifted⟩ := @Shift.exists_shifted env _ hwf .lf (Nat.le_refl 1) hat
        exact ⟨t', hstep.trans hshift, hshifted.cells, hshifted.hidden, hshifted.outside, hshifted.cursor,
          hshifted.margins, hshifted.pushed, hshifted.unpushed⟩
  · rw [hsends.step_eq hlf]
    exact Shift.exists_shifted h s hsends.count_pos hat

end Shift

end IsekaiTerminal.Emulator
