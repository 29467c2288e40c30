import IsekaiTerminal.Emulator.Lemmas.Images
import IsekaiTerminal.Emulator.Lemmas.SixelParse

/-!
# Sixel の描画の補題

命令の実行は、描画の 1 つずつを図に描くことに等しい。描いた図は、中断しないかぎり、描画が述べる図を表す。
-/

namespace IsekaiTerminal.Emulator

open Sixel

/-! ## 1 つの描画 -/

namespace Canvas

def blank : Canvas := { rows := [], maxX := 0, maxY := 0, aborted := false }

/-- 中断した後は、何も描かない。 -/
def paint (c : Canvas) : Stroke → Canvas
  | .dot x y argb =>
      if c.aborted then c
      else if x ≥ maxSixelDim ∨ y ≥ maxSixelDim then { c with aborted := true }
      else if (max c.maxX x + 1) * (max c.maxY y + 1) > maxSixelArea then { c with aborted := true }
      else
        { c with
          maxX := max c.maxX x
          maxY := max c.maxY y
          rows := SixelDecoder.setAt [] c.rows y fun row => SixelDecoder.setAt 0 row x fun _ => argb }
  | .advance x => if c.aborted then c else { c with aborted := decide (x ≥ maxSixelDim) }

def paintAll (c : Canvas) (drawn : List Stroke) : Canvas := drawn.foldl paint c

theorem paintAll_append (c : Canvas) (first second : List Stroke) :
    c.paintAll (first ++ second) = (c.paintAll first).paintAll second := List.foldl_append

theorem paintAll_of_aborted {c : Canvas} (h : c.aborted = true) (drawn : List Stroke) : c.paintAll drawn = c := by
  induction drawn with
  | nil => rfl
  | cons s drawn ih =>
      have hs : c.paint s = c := by cases s <;> exact if_pos h
      exact (congrArg (paintAll · drawn) hs).trans ih

end Canvas

/-! ## 命令の実行 -/

namespace SixelDecoder

variable {env : Env} {d : SixelDecoder}

def pen (d : SixelDecoder) : Pen := { palette := d.palette, color := d.currentColor, x := d.x, y := d.y }

theorem pen_setPixel (x y : Nat) (argb : UInt32) : (d.setPixel x y argb).pen = d.pen := by
  rw [setPixel]
  split
  · rfl
  · dsimp only
    split <;> rfl

theorem canvas_setPixel (hrun : d.aborted = false) (x y : Nat) (argb : UInt32) :
    (d.setPixel x y argb).canvas = d.canvas.paint (.dot x y argb) := by
  have hcanvas : ¬d.canvas.aborted = true := by
    rw [show d.canvas.aborted = false from hrun]
    exact Bool.false_ne_true
  rw [setPixel, Canvas.paint, if_neg hcanvas]
  by_cases hdim : x ≥ maxSixelDim ∨ y ≥ maxSixelDim
  · rw [if_pos hdim, if_pos hdim]
    rfl
  · rw [if_neg hdim, if_neg hdim]
    exact apply_ite canvas _ _ _

theorem pen_drawBits (argb : UInt32) (bits : Nat) (is : List Nat) : (drawBits argb bits is d).pen = d.pen := by
  induction is generalizing d with
  | nil => rfl
  | cons i is ih =>
      rw [drawBits]
      split
      · dsimp only
        split
        · exact pen_setPixel _ _ _
        · exact ih.trans (pen_setPixel _ _ _)
      · exact ih

/-- 立っているビットの点を、順に描く。 -/
theorem canvas_drawBits (hrun : d.aborted = false) (argb : UInt32) (bits : Nat) (is : List Nat) :
    (drawBits argb bits is d).canvas = d.canvas.paintAll
      (is.filterMap fun i => if bits.testBit i then some (.dot d.pen.x (d.pen.y + i) argb) else none) := by
  induction is generalizing d with
  | nil => rfl
  | cons i is ih =>
      rw [drawBits, List.filterMap_cons]
      by_cases hbit : bits.testBit i = true
      · have hdot := canvas_setPixel hrun d.x (d.y + i) argb
        rw [if_pos hbit, if_pos hbit]
        dsimp only
        rw [Canvas.paintAll, List.foldl_cons, ← Canvas.paintAll, show d.pen.x = d.x from rfl,
          show d.pen.y = d.y from rfl, ← hdot]
        by_cases habort : (d.setPixel d.x (d.y + i) argb).aborted = true
        · rw [if_pos habort, Canvas.paintAll_of_aborted habort]
        · have hpen : (d.setPixel d.x (d.y + i) argb).pen = d.pen := pen_setPixel _ _ _
          rw [if_neg habort, ih (Bool.eq_false_iff.2 habort), hpen]
          rfl
      · rw [if_neg hbit, if_neg hbit]
        exact ih hrun

/-- 1 つの sixel 文字。 -/
theorem drawSixelChar_spec (hrun : d.aborted = false) (byte : UInt8) :
    (d.drawSixelChar byte).canvas = d.canvas.paintAll (charStrokes d.pen d.x byte) ∧
      ((d.drawSixelChar byte).aborted = false → (d.drawSixelChar byte).pen = { d.pen with x := d.x + 1 }) := by
  have hbits := canvas_drawBits hrun d.currentArgb (byte.toNat - 0x3f) (List.range 6)
  have hpen := @pen_drawBits d d.currentArgb (byte.toNat - 0x3f) (List.range 6)
  have hargb : d.pen.argb = d.currentArgb := rfl
  have hx : (drawBits d.currentArgb (byte.toNat - 0x3f) (List.range 6) d).x = d.x := congrArg Pen.x hpen
  rw [charStrokes, Canvas.paintAll_append, hargb, show d.x = d.pen.x from rfl, ← hbits, drawSixelChar]
  generalize drawBits d.currentArgb (byte.toNat - 0x3f) (List.range 6) d = e at hpen hx
  dsimp only
  by_cases habort : e.aborted = true
  · rw [if_pos habort, Canvas.paintAll_of_aborted habort]
    exact ⟨rfl, fun h => absurd (habort.symm.trans h) Bool.noConfusion⟩
  · have hcanvas : ¬e.canvas.aborted = true := habort
    rw [if_neg habort, hx]
    refine ⟨?_, fun _ => ?_⟩
    · rw [Canvas.paintAll, List.foldl_cons, List.foldl_nil, Canvas.paint, if_neg hcanvas]
      rfl
    · rw [← hpen, ← hx]
      rfl

/-- 繰り返しの sixel 文字。 -/
theorem drawRepeated_spec (hrun : d.aborted = false) (byte : UInt8) (n : Nat) :
    (drawRepeated byte n d).canvas =
        d.canvas.paintAll ((List.range n).flatMap fun j => charStrokes d.pen (d.x + j) byte) ∧
      ((drawRepeated byte n d).aborted = false → (drawRepeated byte n d).pen = { d.pen with x := d.x + n }) := by
  induction n generalizing d with
  | zero => exact ⟨rfl, fun _ => rfl⟩
  | succ n ih =>
      obtain ⟨hcanvas, hpen⟩ := drawSixelChar_spec hrun byte
      rw [List.range_succ_eq_map, List.flatMap_cons, List.flatMap_map, Canvas.paintAll_append, Nat.add_zero d.x, ← hcanvas,
        drawRepeated]
      dsimp only
      by_cases habort : (d.drawSixelChar byte).aborted = true
      · rw [if_pos habort, Canvas.paintAll_of_aborted habort]
        exact ⟨rfl, fun h => absurd (habort.symm.trans h) Bool.noConfusion⟩
      · have hnext := hpen (Bool.eq_false_iff.2 habort)
        have hx : (d.drawSixelChar byte).x = d.x + 1 := congrArg Pen.x hnext
        obtain ⟨hrest, hlast⟩ := ih (Bool.eq_false_iff.2 habort)
        -- 1 文字の色と行は、ペンの列によらない。
        have hsame (j : Nat) :
            charStrokes (d.drawSixelChar byte).pen ((d.drawSixelChar byte).x + j) byte =
              charStrokes d.pen (d.x + (j + 1)) byte := by
          rw [hnext, hx, Nat.add_assoc, Nat.add_comm 1 j]
          rfl
        rw [if_neg habort]
        refine ⟨hrest.trans ?_, fun h => (hlast h).trans ?_⟩
        · simp only [hsame]
        · rw [hnext, hx, Nat.add_assoc, Nat.add_comm 1 n]

theorem pen_define (num : UInt16) (params : List UInt32) :
    (d.defineAndSelectColor env num params).pen = d.pen.define env num params := by
  obtain _ | ⟨pu, _ | ⟨a, _ | ⟨b, _ | ⟨c, rest⟩⟩⟩⟩ := params
  · rfl
  · rfl
  · rfl
  · rfl
  · unfold defineAndSelectColor Pen.define
    dsimp only
    by_cases hrgb : pu = 2
    · rw [if_pos hrgb, if_pos hrgb]
      rfl
    · rw [if_neg hrgb, if_neg hrgb]
      exact apply_ite pen _ _ _

theorem exec_spec (hrun : d.aborted = false) (c : Command) :
    (d.exec env c).canvas = d.canvas.paintAll (strokes d.pen c) ∧
      ((d.exec env c).aborted = false → (d.exec env c).pen = d.pen.after env c) := by
  cases c with
  | draw n byte => exact drawRepeated_spec hrun byte n
  | select num => exact ⟨rfl, fun _ => rfl⟩
  | define num params => exact ⟨canvas_define _ _, fun _ => pen_define _ _⟩
  | newline => exact ⟨rfl, fun _ => rfl⟩
  | carriage => exact ⟨rfl, fun _ => rfl⟩

/-- 命令を順に実行した図は、命令の描画を順に描いた図である。 -/
theorem canvas_execAll (hrun : d.aborted = false) (cs : List Command) :
    (execAll env d cs).canvas = d.canvas.paintAll (drawing env d.pen cs) := by
  induction cs generalizing d with
  | nil => rfl
  | cons c cs ih =>
      obtain ⟨hcanvas, hpen⟩ := @exec_spec env d hrun c
      rw [execAll, drawing, Canvas.paintAll_append, ← hcanvas]
      by_cases habort : (d.exec env c).aborted = true
      · rw [if_pos habort, Canvas.paintAll_of_aborted habort]
      · rw [if_neg habort, ih (Bool.eq_false_iff.2 habort), hpen (Bool.eq_false_iff.2 habort)]

/-- 読み終えた図は、文法が読む描画を順に描いた図である。 -/
theorem canvas_new {input : List UInt8} {cs : List Command} (h : Reads input cs) :
    (feedAll env .new input).canvas = Canvas.blank.paintAll (drawing env .start cs) :=
  (canvas_feedAll h ⟨rfl, rfl⟩).trans (canvas_execAll rfl cs)

end SixelDecoder

/-! ## 伸ばして書く -/

section SetAt

variable {α : Type} {default : α} {l : List α}

theorem SixelDecoder.length_setAt (i : Nat) (f : α → α) : (setAt default l i f).length = max l.length (i + 1) := by
  rw [setAt, List.length_modify, List.length_append, List.length_replicate]
  omega

theorem SixelDecoder.getD_setAt (i j : Nat) (f : α → α) :
    (setAt default l i f).getD j default = if i = j then f (l.getD i default) else l.getD j default := by
  have hgrown : (l ++ List.replicate (i + 1 - l.length) default).getD j default = l.getD j default := by
    by_cases hj : j < l.length
    · exact List.getD_append l _ default j hj
    · rw [List.getD_append_right l _ default j (Nat.le_of_not_lt hj), List.getD_eq_default l default (Nat.le_of_not_lt hj)]
      by_cases hk : j - l.length < i + 1 - l.length
      · exact List.getD_replicate default hk
      · exact List.getD_eq_default _ _ (by rw [List.length_replicate]; exact Nat.le_of_not_lt hk)
  rw [setAt, List.getD_eq_getElem?_getD, List.getElem?_modify]
  by_cases hij : i = j
  · subst hij
    have hlt : i < (l ++ List.replicate (i + 1 - l.length) default).length := by
      rw [List.length_append, List.length_replicate]
      omega
    rw [if_pos rfl, ← hgrown, List.getD_eq_getElem _ _ hlt, List.getElem?_eq_getElem hlt]
    simp only [if_true, Option.map_eq_map, Option.map_some, Option.getD_some]
  · rw [if_neg hij, ← hgrown, List.getD_eq_getElem?_getD]
    simp only [if_neg hij, Option.map_eq_map, Option.map_id_fun', id_eq]

end SetAt

/-- 行の並びの幅は、どの行の長さも超えない最小の数である。 -/
theorem foldr_max_le_iff (rows : List (List UInt32)) (n : Nat) :
    (rows.map List.length).foldr max 0 ≤ n ↔ ∀ y, (rows.getD y []).length ≤ n := by
  induction rows with
  | nil => exact ⟨fun _ _ => Nat.zero_le n, fun _ => Nat.zero_le n⟩
  | cons row rows ih =>
      rw [List.map_cons, List.foldr_cons, max_le_iff, ih]
      refine ⟨fun h y => ?_, fun h => ⟨h 0, fun y => h (y + 1)⟩⟩
      cases y with
      | zero => exact h.1
      | succ y => exact h.2 y

theorem foldr_max_concat (ns : List Nat) (n : Nat) : (ns ++ [n]).foldr max 0 = max (ns.foldr max 0) n := by
  induction ns with
  | nil => exact Nat.max_comm n 0
  | cons m ns ih => rw [List.cons_append, List.foldr_cons, List.foldr_cons, ih, Nat.max_assoc]

/-! ## 描画の一覧 -/

namespace Sixel

variable {drawn : List Stroke}

theorem dots_dot (x y : Nat) (argb : UInt32) : dots (drawn ++ [.dot x y argb]) = dots drawn ++ [(x, y)] := by
  rw [dots, List.filterMap_append]
  rfl

theorem dots_advance (x : Nat) : dots (drawn ++ [.advance x]) = dots drawn := by
  rw [dots, List.filterMap_append]
  exact List.append_nil _

theorem maxX_dot (x y : Nat) (argb : UInt32) : maxX (drawn ++ [.dot x y argb]) = max (maxX drawn) x := by
  rw [maxX, dots_dot, List.map_append, List.map_singleton, foldr_max_concat]
  rfl

theorem maxY_dot (x y : Nat) (argb : UInt32) : maxY (drawn ++ [.dot x y argb]) = max (maxY drawn) y := by
  rw [maxY, dots_dot, List.map_append, List.map_singleton, foldr_max_concat]
  rfl

theorem maxX_advance (x : Nat) : maxX (drawn ++ [.advance x]) = maxX drawn := by rw [maxX, dots_advance, maxX]

theorem maxY_advance (x : Nat) : maxY (drawn ++ [.advance x]) = maxY drawn := by rw [maxY, dots_advance, maxY]

theorem colorAt_dot (x y x' y' : Nat) (argb : UInt32) :
    colorAt (drawn ++ [.dot x y argb]) x' y' = if x = x' ∧ y = y' then some argb else colorAt drawn x' y' := by
  rw [colorAt, List.reverse_append, List.reverse_singleton, List.singleton_append, List.findSome?_cons]
  dsimp only
  by_cases h : x = x' ∧ y = y'
  · rw [if_pos h, if_pos h]
  · rw [if_neg h, if_neg h]
    rfl

theorem colorAt_advance (x x' y' : Nat) : colorAt (drawn ++ [.advance x]) x' y' = colorAt drawn x' y' := by
  rw [colorAt, List.reverse_append, List.reverse_singleton, List.singleton_append, List.findSome?_cons]
  rfl

/-- 復号器が最後まで描ける描画。ペンは、上限の列にも達しない。 -/
structure Paintable (drawn : List Stroke) : Prop where
  inside : ∀ p ∈ dots drawn, p.1 < maxSixelDim ∧ p.2 < maxSixelDim
  pen : ∀ x, .advance x ∈ drawn → x < maxSixelDim
  area : (maxX drawn + 1) * (maxY drawn + 1) ≤ maxSixelArea

theorem paintable_dot_iff (x y : Nat) (argb : UInt32) :
    Paintable (drawn ++ [.dot x y argb]) ↔ Paintable drawn ∧ (x < maxSixelDim ∧ y < maxSixelDim) ∧
      (max (maxX drawn) x + 1) * (max (maxY drawn) y + 1) ≤ maxSixelArea := by
  constructor
  · rintro ⟨hinside, hpen, harea⟩
    rw [maxX_dot, maxY_dot] at harea
    rw [dots_dot] at hinside
    refine ⟨⟨fun p hp => hinside p (List.mem_append_left _ hp), fun x hx => hpen x (List.mem_append_left _ hx), ?_⟩,
      hinside (x, y) (List.mem_append_right _ List.mem_cons_self), harea⟩
    exact (Nat.mul_le_mul (Nat.succ_le_succ (Nat.le_max_left _ _)) (Nat.succ_le_succ (Nat.le_max_left _ _))).trans harea
  · rintro ⟨h, hxy, harea⟩
    refine ⟨fun p hp => ?_, fun x hx => ?_, by rw [maxX_dot, maxY_dot]; exact harea⟩
    · rw [dots_dot] at hp
      obtain hp | hp := List.mem_append.1 hp
      · exact h.inside p hp
      · rw [List.mem_singleton.1 hp]
        exact hxy
    · obtain hx | hx := List.mem_append.1 hx
      · exact h.pen x hx
      · cases List.mem_singleton.1 hx

theorem paintable_advance_iff (x : Nat) : Paintable (drawn ++ [.advance x]) ↔ Paintable drawn ∧ x < maxSixelDim := by
  constructor
  · rintro ⟨hinside, hpen, harea⟩
    rw [maxX_advance, maxY_advance] at harea
    rw [dots_advance] at hinside
    exact ⟨⟨hinside, fun x hx => hpen x (List.mem_append_left _ hx), harea⟩,
      hpen x (List.mem_append_right _ List.mem_cons_self)⟩
  · rintro ⟨h, hx⟩
    refine ⟨by rw [dots_advance]; exact h.inside, fun x' hx' => ?_, by rw [maxX_advance, maxY_advance]; exact h.area⟩
    obtain hx' | hx' := List.mem_append.1 hx'
    · exact h.pen x' hx'
    · cases List.mem_singleton.1 hx'
      exact hx

end Sixel

/-! ## 図が表すもの -/

namespace Canvas

/-- 図は、描画の結果を表す。 -/
structure Shows (c : Canvas) (drawn : List Stroke) : Prop where
  maxX : c.maxX = Sixel.maxX drawn
  maxY : c.maxY = Sixel.maxY drawn
  height : c.rows.length = if dots drawn = [] then 0 else Sixel.maxY drawn + 1
  width : (c.rows.map List.length).foldr max 0 = if dots drawn = [] then 0 else Sixel.maxX drawn + 1
  pixel : ∀ x y, (c.rows.getD y []).getD x 0 = (colorAt drawn x y).getD 0

/-- 保持する画素の数。 -/
def stored (c : Canvas) : Nat := (c.rows.map List.length).sum

theorem Shows.blank : blank.Shows [] where
  maxX := rfl
  maxY := rfl
  height := rfl
  width := rfl
  pixel _ _ := rfl

theorem Shows.advance {c : Canvas} {drawn : List Stroke} (h : c.Shows drawn) (x : Nat) (aborted : Bool) :
    ({ c with aborted } : Canvas).Shows (drawn ++ [.advance x]) where
  maxX := h.maxX.trans (maxX_advance x).symm
  maxY := h.maxY.trans (maxY_advance x).symm
  height := by rw [dots_advance, maxY_advance]; exact h.height
  width := by rw [dots_advance, maxX_advance]; exact h.width
  pixel x' y' := by rw [colorAt_advance]; exact h.pixel x' y'

theorem max_succ_of_empty {done : Prop} [Decidable done] {m n : Nat} (h : done → m = 0) :
    max (if done then 0 else m + 1) (n + 1) = max m n + 1 := by
  by_cases hdone : done
  · rw [if_pos hdone, h hdone, Nat.zero_max, Nat.zero_max]
  · rw [if_neg hdone]
    omega

theorem Shows.dot {c : Canvas} {drawn : List Stroke} (h : c.Shows drawn) (x y : Nat) (argb : UInt32) (aborted : Bool) :
    ({ rows := SixelDecoder.setAt [] c.rows y fun row => SixelDecoder.setAt 0 row x fun _ => argb
       maxX := max c.maxX x, maxY := max c.maxY y, aborted } : Canvas).Shows (drawn ++ [.dot x y argb]) := by
  have hne : dots drawn ++ [(x, y)] ≠ [] := List.append_ne_nil_of_right_ne_nil _ (List.cons_ne_nil _ _)
  refine ⟨?_, ?_, ?_, ?_, fun x' y' => ?_⟩
  · rw [maxX_dot, ← h.maxX]
  · rw [maxY_dot, ← h.maxY]
  · rw [dots_dot, if_neg hne, maxY_dot]
    dsimp only
    rw [SixelDecoder.length_setAt, h.height, max_succ_of_empty]
    intro hdots
    rw [Sixel.maxY, hdots]
    rfl
  · rw [dots_dot, if_neg hne, maxX_dot]
    dsimp only
    refine Eq.trans ?_ (@max_succ_of_empty (dots drawn = []) _ (Sixel.maxX drawn) x ?_)
    · rw [← h.width]
      refine eq_of_forall_ge_iff fun n => ?_
      rw [max_le_iff, foldr_max_le_iff, foldr_max_le_iff]
      constructor
      · intro hall
        have hy := hall y
        rw [SixelDecoder.getD_setAt, if_pos rfl, SixelDecoder.length_setAt, max_le_iff] at hy
        refine ⟨fun y' => ?_, hy.2⟩
        by_cases heq : y = y'
        · rw [← heq]
          exact hy.1
        · have hy' := hall y'
          rwa [SixelDecoder.getD_setAt, if_neg heq] at hy'
      · rintro ⟨hall, hx⟩ y'
        rw [SixelDecoder.getD_setAt]
        by_cases heq : y = y'
        · rw [if_pos heq, SixelDecoder.length_setAt, max_le_iff]
          exact ⟨hall y, hx⟩
        · rw [if_neg heq]
          exact hall y'
    · intro hdots
      rw [Sixel.maxX, hdots]
      rfl
  · dsimp only
    rw [colorAt_dot, SixelDecoder.getD_setAt]
    by_cases hy : y = y'
    · subst hy
      rw [if_pos rfl, SixelDecoder.getD_setAt]
      by_cases hx : x = x'
      · rw [if_pos hx, if_pos ⟨hx, rfl⟩]
        rfl
      · rw [if_neg hx, if_neg (fun hxy => hx hxy.1)]
        exact h.pixel x' y
    · rw [if_neg hy, if_neg (fun hxy => hy hxy.2)]
      exact h.pixel x' y'

/-- 図が表す描画の面積は、保持する画素の数を抑える。 -/
theorem Shows.stored_le {c : Canvas} {drawn : List Stroke} (h : c.Shows drawn) (hfits : Paintable drawn) :
    c.stored ≤ maxSixelArea := by
  have hrow : ∀ n ∈ c.rows.map List.length, n ≤ Sixel.maxX drawn + 1 := by
    intro n hn
    obtain ⟨row, hrow, rfl⟩ := List.mem_map.1 hn
    obtain ⟨y, hy⟩ := List.getElem?_of_mem hrow
    have hwidth : (c.rows.map List.length).foldr max 0 ≤ Sixel.maxX drawn + 1 := by
      rw [h.width]
      split
      · exact Nat.zero_le _
      · exact Nat.le_refl _
    have hle := (foldr_max_le_iff c.rows _).1 hwidth y
    rwa [List.getD_eq_getElem?_getD, hy, Option.getD_some] at hle
  have hheight : c.rows.length ≤ Sixel.maxY drawn + 1 := by
    rw [h.height]
    split
    · exact Nat.zero_le _
    · exact Nat.le_refl _
  calc
    c.stored ≤ (c.rows.map List.length).length * (Sixel.maxX drawn + 1) := List.sum_le_card_nsmul _ _ hrow
    _ = c.rows.length * (Sixel.maxX drawn + 1) := by rw [List.length_map]
    _ ≤ (Sixel.maxY drawn + 1) * (Sixel.maxX drawn + 1) := Nat.mul_le_mul_right _ hheight
    _ = (Sixel.maxX drawn + 1) * (Sixel.maxY drawn + 1) := Nat.mul_comm _ _
    _ ≤ maxSixelArea := hfits.area

/-- 描いた結果の条件。中断しないことと、描画が収まることは同じである。 -/
structure Painted (c : Canvas) (drawn : List Stroke) : Prop where
  running_iff : c.aborted = false ↔ Paintable drawn
  shows : c.aborted = false → c.Shows drawn
  stored : c.stored ≤ maxSixelArea

theorem Painted.blank : blank.Painted [] where
  running_iff := iff_of_true rfl ⟨fun p hp => absurd hp List.not_mem_nil, fun x hx => absurd hx List.not_mem_nil, by decide⟩
  shows _ := Shows.blank
  stored := Nat.zero_le _

theorem Painted.paint {c : Canvas} {drawn : List Stroke} (h : c.Painted drawn) (s : Stroke) :
    (c.paint s).Painted (drawn ++ [s]) := by
  by_cases habort : c.aborted = true
  · have hfits : ¬Paintable drawn := fun hf => Bool.noConfusion (habort.symm.trans (h.running_iff.2 hf))
    have hsame : c.paint s = c := by cases s <;> exact if_pos habort
    have hlater : ¬Paintable (drawn ++ [s]) := by
      cases s with
      | dot x y argb => exact fun hf => hfits ((paintable_dot_iff x y argb).1 hf).1
      | advance x => exact fun hf => hfits ((paintable_advance_iff x).1 hf).1
    rw [hsame]
    exact ⟨iff_of_false (by rw [habort]; exact Bool.noConfusion) hlater, fun hrun => absurd (habort.symm.trans hrun)
      Bool.noConfusion, h.stored⟩
  · have hrun := Bool.eq_false_iff.2 habort
    have hfits := h.running_iff.1 hrun
    have hshows := h.shows hrun
    have hstop {p : Prop} (hp : ¬p) : ({ c with aborted := true } : Canvas).aborted = false ↔ p :=
      iff_of_false Bool.noConfusion hp
    cases s with
    | advance x =>
        rw [Canvas.paint, if_neg habort]
        refine ⟨?_, fun _ => hshows.advance x _, h.stored⟩
        rw [paintable_advance_iff, ← Nat.not_le]
        exact decide_eq_false_iff_not.trans (and_iff_right hfits).symm
    | dot x y argb =>
        rw [Canvas.paint, if_neg habort]
        by_cases hdim : x ≥ maxSixelDim ∨ y ≥ maxSixelDim
        · rw [if_pos hdim]
          refine ⟨hstop fun hf => ?_, Bool.noConfusion, h.stored⟩
          have hxy := ((paintable_dot_iff x y argb).1 hf).2.1
          omega
        · rw [if_neg hdim]
          by_cases harea : (max c.maxX x + 1) * (max c.maxY y + 1) > maxSixelArea
          · rw [if_pos harea]
            rw [hshows.maxX, hshows.maxY] at harea
            exact ⟨hstop fun hf => Nat.not_lt.2 ((paintable_dot_iff x y argb).1 hf).2.2 harea, Bool.noConfusion, h.stored⟩
          · rw [if_neg harea]
            have hlater : Paintable (drawn ++ [.dot x y argb]) := by
              rw [hshows.maxX, hshows.maxY, Nat.not_lt] at harea
              rw [not_or, Nat.not_le, Nat.not_le] at hdim
              exact (paintable_dot_iff x y argb).2 ⟨hfits, hdim, harea⟩
            have hdot := hshows.dot x y argb c.aborted
            exact ⟨iff_of_true hrun hlater, fun _ => hdot, hdot.stored_le hlater⟩

/-- 描画の並びを描いた図。 -/
theorem painted (drawn : List Stroke) : (blank.paintAll drawn).Painted drawn := by
  induction drawn using List.reverseRecOn with
  | nil => exact Painted.blank
  | append_singleton drawn s ih =>
      rw [paintAll_append]
      exact ih.paint s

end Canvas

/-! ## 画像 -/

theorem map_getD_range {α : Type} (l : List α) (default : α) : (List.range l.length).map (l.getD · default) = l := by
  refine List.ext_getElem (by rw [List.length_map, List.length_range]) fun i hi hi' => ?_
  rw [List.getElem_map, List.getElem_range, List.getD_eq_getElem l default hi']

theorem Sixel.length_picture (drawn : List Stroke) :
    (picture drawn).rgba.length = 4 * ((picture drawn).width * (picture drawn).height) := by
  have hrow (y : Nat) :
      ((List.range (maxX drawn + 1)).flatMap fun x => SixelDecoder.pixelRgba ((colorAt drawn x y).getD 0)).length =
        4 * (maxX drawn + 1) := by
    rw [length_flatMap_eq (k := 4) fun _ _ => rfl, List.length_range]
  rw [picture, length_flatMap_eq fun y _ => hrow y, List.length_range, Nat.mul_assoc]

namespace SixelDecoder

variable {d : SixelDecoder} {drawn : List Stroke}

theorem finish_of_shows (hrun : d.aborted = false) (h : d.canvas.Shows drawn) (hfits : Paintable drawn)
    (hne : dots drawn ≠ []) : d.finish = some (picture drawn) := by
  have hheight : d.rows.length = Sixel.maxY drawn + 1 := h.height.trans (if_neg hne)
  have hwidth : (d.rows.map List.length).foldr max 0 = Sixel.maxX drawn + 1 := h.width.trans (if_neg hne)
  have hpixels : (d.rows.flatMap fun row => (List.range (Sixel.maxX drawn + 1)).flatMap fun x => pixelRgba (row[x]?.getD 0)) =
      (picture drawn).rgba := by
    conv_lhs => rw [← map_getD_range d.rows [], hheight, List.flatMap_map]
    rw [picture]
    simp only [← List.getD_eq_getElem?_getD]
    simp only [show ∀ x y, (d.rows.getD y []).getD x 0 = (colorAt drawn x y).getD 0 from h.pixel]
  rw [finish, if_neg (by rw [hrun]; exact Bool.false_ne_true)]
  dsimp only
  rw [hwidth, hheight, if_neg (by omega), if_neg (Nat.not_lt.2 hfits.area), hpixels]
  rfl

theorem finish_of_empty (h : d.canvas.Shows drawn) (hdots : dots drawn = []) : d.finish = none := by
  have hheight : d.rows.length = 0 := h.height.trans (if_pos hdots)
  rw [finish]
  split
  · rfl
  · exact if_pos (Or.inr hheight)

theorem finish_of_aborted (h : d.aborted = true) : d.finish = none := by rw [finish, if_pos h]

/-- 画像が得られるのは、描画が収まり、点があるときである。得られる画像は、描画が述べる図である。 -/
theorem finish_eq_some_iff (h : d.canvas.Painted drawn) (img : SixelImage) :
    d.finish = some img ↔ (Paintable drawn ∧ dots drawn ≠ []) ∧ img = picture drawn := by
  by_cases habort : d.aborted = true
  · rw [finish_of_aborted habort]
    refine iff_of_false (fun hnone => Option.some_ne_none img hnone.symm) fun hall => ?_
    exact Bool.noConfusion (habort.symm.trans (h.running_iff.2 hall.1.1))
  · have hrun := Bool.eq_false_iff.2 habort
    have hfits := h.running_iff.1 hrun
    by_cases hdots : dots drawn = []
    · rw [finish_of_empty (h.shows hrun) hdots]
      exact iff_of_false (fun hnone => Option.some_ne_none img hnone.symm) fun hall => hall.1.2 hdots
    · rw [finish_of_shows hrun (h.shows hrun) hfits hdots, Option.some.injEq]
      exact ⟨fun heq => ⟨⟨hfits, hdots⟩, heq.symm⟩, fun hall => hall.2.symm⟩

end SixelDecoder

end IsekaiTerminal.Emulator
