import IsekaiTerminal.Emulator.Sixel

/-!
# Sixel の構文の補題

5 つの状態の復号器は、文法が読む命令の並びを順に実行する。数を読み終えたバイトは、通常の状態で読み直される。
-/

namespace IsekaiTerminal.Emulator

open Sixel

/-! ## 文法 -/

namespace Sixel

/-- 条件を満たすバイトを、続くかぎり読む。 -/
theorem exists_span (p : UInt8 → Prop) [DecidablePred p] (input : List UInt8) :
    ∃ front rest, input = front ++ rest ∧ (∀ b ∈ front, p b) ∧ StopsAt p rest := by
  induction input with
  | nil => exact ⟨[], [], rfl, fun b hb => absurd hb List.not_mem_nil, fun b hb => by cases hb⟩
  | cons b input ih =>
      by_cases hb : p b
      · obtain ⟨front, rest, rfl, hfront, hstop⟩ := ih
        refine ⟨b :: front, rest, rfl, fun x hx => ?_, hstop⟩
        obtain rfl | hx := List.mem_cons.1 hx
        · exact hb
        · exact hfront x hx
      · refine ⟨[], b :: input, rfl, fun x hx => absurd hx List.not_mem_nil, fun x hx => ?_⟩
        cases hx
        exact hb

/-- 数字で始まらない入力の先頭を、`;` に続く引数の並びとして読む。 -/
theorem exists_params (input : List UInt8) (hstart : StopsAt (fun b => isDigit b = true) input) :
    ∃ params rest, input = paramsText params ++ rest ∧ (∀ param ∈ params, Digits param) ∧
      StopsAt (fun b => isDigit b = true ∨ b = semicolon) rest := by
  induction hn : input.length using Nat.strong_induction_on generalizing input with
  | _ n ih =>
    by_cases hsemi : ∃ tail, input = semicolon :: tail
    · obtain ⟨tail, rfl⟩ := hsemi
      obtain ⟨param, rest, rfl, hparam, hstop⟩ := exists_span (fun b => isDigit b = true) tail
      rw [List.length_cons, List.length_append] at hn
      obtain ⟨params, last, rfl, hparams, hlast⟩ := ih rest.length (by omega) rest hstop rfl
      refine ⟨param :: params, last, ?_, fun x hx => ?_, hlast⟩
      · rw [paramsText, paramsText, List.flatMap_cons, List.cons_append, List.cons_append, List.append_assoc]
      · obtain rfl | hx := List.mem_cons.1 hx
        · exact hparam
        · exact hparams x hx
    · refine ⟨[], input, rfl, fun x hx => absurd hx List.not_mem_nil, fun b hb => ?_⟩
      rw [not_or]
      refine ⟨hstart b hb, ?_⟩
      rintro rfl
      obtain ⟨tail, htail⟩ := List.head?_eq_some_iff.1 hb
      exact hsemi ⟨tail, htail⟩

/-- どの入力も、命令の並びに読める。 -/
theorem exists_reads (input : List UInt8) : ∃ cs, Reads input cs := by
  induction hn : input.length using Nat.strong_induction_on generalizing input with
  | _ n ih =>
    have hshort : ∀ later : List UInt8, later.length < n → ∃ cs, Reads later cs :=
      fun later hlt => ih later.length hlt later rfl
    obtain _ | ⟨b, input⟩ := input
    · exact ⟨_, .nil⟩
    · rw [List.length_cons] at hn
      by_cases hnum : b = 0x23
      · obtain ⟨digits, rest, rfl, hd, hstop⟩ := exists_span (fun b => isDigit b = true) input
        obtain ⟨params, later, rfl, hp, hlater⟩ := exists_params rest hstop
        simp only [List.length_append] at hn
        obtain ⟨cs, h⟩ := hshort later (by omega)
        subst hnum
        by_cases hnil : params = []
        · subst hnil
          exact ⟨_, .select hd hlater h⟩
        · exact ⟨_, .define hd hnil hp hlater h⟩
      · by_cases hrep : b = 0x21
        · obtain ⟨digits, rest, rfl, hd, hstop⟩ := exists_span (fun b => isDigit b = true) input
          subst hrep
          rw [List.length_append] at hn
          by_cases hsixel : ∃ c later, rest = c :: later ∧ isSixel c = true
          · obtain ⟨c, later, rfl, hc⟩ := hsixel
            rw [List.length_cons] at hn
            obtain ⟨cs, h⟩ := hshort later (by omega)
            exact ⟨_, .repeated hd hc h⟩
          · obtain ⟨cs, h⟩ := hshort rest (by omega)
            refine ⟨_, .stray hd (fun c hc => ?_) h⟩
            rw [not_or]
            refine ⟨hstop c hc, fun hs => ?_⟩
            obtain ⟨later, hlater⟩ := List.head?_eq_some_iff.1 hc
            exact hsixel ⟨c, later, hlater, hs⟩
        · by_cases hraster : b = 0x22
          · obtain ⟨text, rest, rfl, htext, hstop⟩ := exists_span (fun b => isDigit b = true ∨ b = semicolon) input
            rw [List.length_append] at hn
            obtain ⟨cs, h⟩ := hshort rest (by omega)
            subst hraster
            exact ⟨_, .raster htext hstop h⟩
          · obtain ⟨cs, h⟩ := hshort input (by omega)
            by_cases hnew : b = 0x2d
            · subst hnew
              exact ⟨_, .newline h⟩
            · by_cases hcar : b = 0x24
              · subst hcar
                exact ⟨_, .carriage h⟩
              · by_cases hsixel : isSixel b = true
                · exact ⟨_, .sixel hsixel h⟩
                · exact ⟨_, .other ⟨hnum, hrep, hraster, hnew, hcar, Bool.eq_false_iff.2 hsixel⟩ h⟩

end Sixel

/-! ## 図の状態 -/

/-- 復号器のうち、図に関わる部分。 -/
structure Canvas where
  rows : List (List UInt32)
  maxX : Nat
  maxY : Nat
  aborted : Bool
deriving DecidableEq

namespace SixelDecoder

def canvas (d : SixelDecoder) : Canvas := { rows := d.rows, maxX := d.maxX, maxY := d.maxY, aborted := d.aborted }

variable {env : Env} {d : SixelDecoder}

theorem feedAll_cons (b : UInt8) (input : List UInt8) :
    feedAll env d (b :: input) = feedAll env (d.feed env b) input := rfl

theorem feedAll_append (first second : List UInt8) :
    feedAll env d (first ++ second) = feedAll env (feedAll env d first) second := List.foldl_append

theorem feedAll_of_aborted (h : d.aborted = true) (input : List UInt8) : feedAll env d input = d := by
  induction input with
  | nil => rfl
  | cons b input ih => rw [feedAll_cons, feed, if_pos h, ih]

/-! ## 命令の実行 -/

/-- 1 つの命令を実行する。 -/
def exec (env : Env) (d : SixelDecoder) : Command → SixelDecoder
  | .draw times byte => drawRepeated byte times d
  | .select num => { d with currentColor := num.toUInt16 }
  | .define num params => d.defineAndSelectColor env num.toUInt16 params
  | .newline => { d with y := d.y + 6, x := 0 }
  | .carriage => { d with x := 0 }

/-- 中断するまで、命令を順に実行する。 -/
def execAll (env : Env) (d : SixelDecoder) : List Command → SixelDecoder
  | [] => d
  | c :: cs => if (d.exec env c).aborted then d.exec env c else execAll env (d.exec env c) cs

/-- 命令を待つ状態。 -/
structure Ready (d : SixelDecoder) : Prop where
  mode : d.mode = .normal
  running : d.aborted = false

theorem feed_of_mode {mode : SixelMode} (hrun : d.aborted = false) (b : UInt8) :
    ({ d with mode } : SixelDecoder).feed env b =
      match mode with
      | .normal => d.stepNormal b
      | .repeat count => ({ d with mode } : SixelDecoder).stepRepeat b count
      | .colorNum num => ({ d with mode } : SixelDecoder).stepColorNum b num
      | .colorSpec pc params cur hasDigit =>
          ({ d with mode } : SixelDecoder).stepColorSpec env b pc params cur hasDigit
      | .raster cur => ({ d with mode } : SixelDecoder).stepRaster b cur := by
  rw [feed, if_neg (by rw [hrun]; exact Bool.false_ne_true)]
  cases mode <;> rfl

theorem Ready.feed (h : Ready d) (b : UInt8) : d.feed env b = d.stepNormal b := by
  rw [SixelDecoder.feed, if_neg (by rw [h.running]; exact Bool.false_ne_true), h.mode]

/-- 途中の状態 `d` が、終わりのバイトを `e` の通常の状態で読み直すなら、続きの図は `e` からの図に等しい。 -/
theorem feedAll_pending {e : SixelDecoder} {p : UInt8 → Prop} (hfeed : ∀ b, ¬p b → d.feed env b = e.feed env b)
    (hcanvas : d.canvas = e.canvas) {input : List UInt8} (hstop : StopsAt p input) :
    (feedAll env d input).canvas = (feedAll env e input).canvas := by
  obtain _ | ⟨b, input⟩ := input
  · exact hcanvas
  · rw [feedAll_cons, feedAll_cons, hfeed b (hstop b rfl)]

theorem mode_setPixel (x y : Nat) (argb : UInt32) : (d.setPixel x y argb).mode = d.mode := by
  rw [setPixel]
  split
  · rfl
  · dsimp only
    split <;> rfl

theorem mode_drawBits (argb : UInt32) (bits : Nat) (is : List Nat) : (drawBits argb bits is d).mode = d.mode := by
  induction is generalizing d with
  | nil => rfl
  | cons i is ih =>
      rw [drawBits]
      split
      · dsimp only
        split
        · exact mode_setPixel _ _ _
        · exact ih.trans (mode_setPixel _ _ _)
      · exact ih

theorem mode_drawSixelChar (byte : UInt8) : (d.drawSixelChar byte).mode = d.mode := by
  rw [drawSixelChar]
  split <;> exact mode_drawBits _ _ _

theorem mode_drawRepeated (byte : UInt8) (n : Nat) : (drawRepeated byte n d).mode = d.mode := by
  induction n generalizing d with
  | zero => rfl
  | succ n ih =>
      rw [drawRepeated]
      split
      · exact mode_drawSixelChar byte
      · exact ih.trans (mode_drawSixelChar byte)

theorem drawRepeated_one (byte : UInt8) : drawRepeated byte 1 d = d.drawSixelChar byte := by
  rw [drawRepeated]
  exact ite_self _

theorem Ready.define (h : Ready d) (num : UInt16) (params : List UInt32) :
    Ready (d.defineAndSelectColor env num params) := by
  unfold defineAndSelectColor
  dsimp only
  split
  · split
    · exact ⟨h.mode, h.running⟩
    · split
      · exact ⟨h.mode, h.running⟩
      · exact ⟨h.mode, h.running⟩
  · exact ⟨h.mode, h.running⟩

theorem canvas_define (num : UInt16) (params : List UInt32) :
    (d.defineAndSelectColor env num params).canvas = d.canvas := by
  unfold defineAndSelectColor
  dsimp only
  split
  · split
    · rfl
    · split <;> rfl
  · rfl

/-! ## 数の読み取り -/

theorem feedAll_repeat (hrun : d.aborted = false) (count : UInt32) {digits : List UInt8} (hd : Digits digits) :
    feedAll env { d with mode := .repeat count } digits =
      { d with mode := .repeat (digits.foldl pushDigit count) } := by
  induction digits generalizing count with
  | nil => rfl
  | cons b digits ih =>
      have hb := hd b List.mem_cons_self
      rw [feedAll_cons, feed_of_mode hrun]
      dsimp only
      rw [stepRepeat, if_pos hb]
      exact ih _ fun x hx => hd x (List.mem_cons_of_mem _ hx)

theorem feedAll_colorNum (hrun : d.aborted = false) (num : UInt32) {digits : List UInt8} (hd : Digits digits) :
    feedAll env { d with mode := .colorNum num } digits =
      { d with mode := .colorNum (digits.foldl pushDigit num) } := by
  induction digits generalizing num with
  | nil => rfl
  | cons b digits ih =>
      have hb := hd b List.mem_cons_self
      rw [feedAll_cons, feed_of_mode hrun]
      dsimp only
      rw [stepColorNum, if_pos hb]
      exact ih _ fun x hx => hd x (List.mem_cons_of_mem _ hx)

theorem feedAll_colorSpec (hrun : d.aborted = false) (pc : UInt32) (params : List UInt32) (cur : UInt32)
    (hasDigit : Bool) {digits : List UInt8} (hd : Digits digits) :
    feedAll env { d with mode := .colorSpec pc params cur hasDigit } digits =
      { d with mode := .colorSpec pc params (digits.foldl pushDigit cur) (hasDigit || !digits.isEmpty) } := by
  induction digits generalizing cur hasDigit with
  | nil => rw [List.isEmpty_nil, Bool.not_true, Bool.or_false]; rfl
  | cons b digits ih =>
      have hb := hd b List.mem_cons_self
      rw [feedAll_cons, feed_of_mode hrun]
      dsimp only
      rw [stepColorSpec, if_pos hb]
      refine (ih _ _ fun x hx => hd x (List.mem_cons_of_mem _ hx)).trans ?_
      rw [Bool.true_or, List.isEmpty_cons, Bool.not_false, Bool.or_true]
      rfl

theorem feedAll_raster (hrun : d.aborted = false) (cur : UInt32) {text : List UInt8}
    (htext : ∀ b ∈ text, isDigit b = true ∨ b = semicolon) :
    ∃ last, feedAll env { d with mode := .raster cur } text = { d with mode := .raster last } := by
  induction text generalizing cur with
  | nil => exact ⟨cur, rfl⟩
  | cons b text ih =>
      have hrest := fun x hx => htext x (List.mem_cons_of_mem _ hx)
      rw [feedAll_cons, feed_of_mode hrun]
      dsimp only
      rw [stepRaster]
      obtain hb | hb := htext b List.mem_cons_self
      · rw [if_pos hb]
        exact ih _ hrest
      · rw [if_neg (by rw [hb]; decide), if_pos hb]
        exact ih _ hrest

/-- 引数の並びを読み終えると、最後の 1 つを除いて積まれている。 -/
theorem feedAll_params (hrun : d.aborted = false) (pc : UInt32) (before : List UInt32) (param : List UInt8)
    (params : List (List UInt8)) (hp : ∀ param ∈ params, Digits param) :
    ∃ init last, before ++ (param :: params).map number = init ++ [number last] ∧
      feedAll env { d with mode := .colorSpec pc before (number param) (!param.isEmpty) } (paramsText params) =
        { d with mode := .colorSpec pc init (number last) (!last.isEmpty) } := by
  induction params generalizing before param with
  | nil => exact ⟨before, param, rfl, rfl⟩
  | cons next params ih =>
      obtain ⟨init, last, heq, hfeed⟩ := ih (before ++ [number param]) next
        fun x hx => hp x (List.mem_cons_of_mem _ hx)
      refine ⟨init, last, by rw [← heq, List.append_assoc]; rfl, ?_⟩
      have hparam : (if (!param.isEmpty) = true then number param else 0) = number param := by
        cases param <;> rfl
      have hnext := @feedAll_colorSpec env d hrun pc (before ++ [number param]) 0 false next
        (hp next List.mem_cons_self)
      rw [paramsText, List.flatMap_cons, List.cons_append, feedAll_cons, feed_of_mode hrun]
      dsimp only
      rw [stepColorSpec, if_neg (by decide), hparam, if_pos rfl, feedAll_append]
      refine (congrArg (feedAll env · _) hnext).trans ?_
      exact hfeed

theorem feedAll_paramsText (hrun : d.aborted = false) (num : UInt32) {param : List UInt8} {params : List (List UInt8)}
    (hp : ∀ p ∈ param :: params, Digits p) :
    ∃ init last, (param :: params).map number = init ++ [number last] ∧
      feedAll env { d with mode := .colorNum num } (paramsText (param :: params)) =
        { d with mode := .colorSpec num init (number last) (!last.isEmpty) } := by
  obtain ⟨init, last, heq, hparams⟩ := @feedAll_params env d hrun num [] param params
    fun x hx => hp x (List.mem_cons_of_mem _ hx)
  refine ⟨init, last, heq, ?_⟩
  have hfirst := @feedAll_colorSpec env d hrun num [] 0 false param (hp param List.mem_cons_self)
  rw [paramsText, List.flatMap_cons, List.cons_append, feedAll_cons, feed_of_mode hrun]
  dsimp only
  rw [stepColorNum, if_neg (by decide), if_pos rfl, feedAll_append]
  exact (congrArg (feedAll env · _) hfirst).trans hparams

theorem define_mode (mode : SixelMode) (num : UInt16) (params : List UInt32) :
    ({ d with mode } : SixelDecoder).defineAndSelectColor env num params =
      { d.defineAndSelectColor env num params with mode } := by
  unfold defineAndSelectColor
  dsimp only
  split
  · split
    · rfl
    · split <;> rfl
  · rfl

/-! ## 構文 -/

theorem Ready.with_mode (h : Ready d) : ({ d with mode := .normal } : SixelDecoder) = d := by
  rw [← h.mode]

theorem execAll_of_running {c : Command} (h : (d.exec env c).aborted = false) (cs : List Command) :
    execAll env d (c :: cs) = execAll env (d.exec env c) cs := by
  rw [execAll, if_neg (by rw [h]; exact Bool.false_ne_true)]

theorem Ready.stepNormal_newline (h : Ready d) : d.stepNormal 0x2d = { d with y := d.y + 6, x := 0 } := by
  conv_rhs => rw [← h.with_mode]
  rfl

theorem Ready.stepNormal_carriage (h : Ready d) : d.stepNormal 0x24 = { d with x := 0 } := by
  conv_rhs => rw [← h.with_mode]
  rfl

theorem ne_of_isSixel {b c : UInt8} (hb : isSixel b = true) (hc : isSixel c = false) : b ≠ c := by
  rintro rfl
  rw [hb] at hc
  cases hc

theorem not_isDigit_of_isSixel {b : UInt8} (hb : isSixel b = true) : ¬isDigit b = true := by
  simp only [isSixel, isDigit, Bool.and_eq_true, decide_eq_true_eq, UInt8.le_iff_toNat_le] at hb ⊢
  intro h
  have hlo : (0x3f : UInt8).toNat ≤ b.toNat := hb.1
  have hhi : b.toNat ≤ (0x39 : UInt8).toNat := h.2
  exact absurd (hlo.trans hhi) (by decide)

theorem Ready.stepNormal_sixel (h : Ready d) {b : UInt8} (hb : isSixel b = true) :
    d.stepNormal b = drawRepeated b 1 d := by
  rw [drawRepeated_one, stepNormal, h.with_mode]
  rw [if_neg (ne_of_isSixel hb rfl), if_neg (ne_of_isSixel hb rfl), if_neg (ne_of_isSixel hb rfl),
    if_neg (ne_of_isSixel hb rfl), if_neg (ne_of_isSixel hb rfl), if_pos hb]

theorem Ready.stepNormal_other (h : Ready d) {b : UInt8} (hb : IsOther b) : d.stepNormal b = d := by
  obtain ⟨h1, h2, h3, h4, h5, h6⟩ := hb
  rw [stepNormal, h.with_mode, if_neg h1, if_neg h2, if_neg h3, if_neg h4, if_neg h5, h6]
  rfl

/-- 描画の後も、中断していなければ命令を待つ。 -/
theorem Ready.draw (h : Ready d) {n : Nat} {b : UInt8} (hrun : (drawRepeated b n d).aborted = false) :
    Ready (drawRepeated b n d) :=
  ⟨(mode_drawRepeated b n).trans h.mode, hrun⟩

/-- 描画の命令の後の、続きの図。 -/
theorem canvas_draw {input : List UInt8} {cs : List Command} {n : Nat} {b : UInt8} (hready : Ready d)
    (ih : ∀ {d : SixelDecoder}, Ready d → (feedAll env d input).canvas = (execAll env d cs).canvas) :
    (feedAll env (drawRepeated b n d) input).canvas = (execAll env d (.draw n b :: cs)).canvas := by
  by_cases hrun : (drawRepeated b n d).aborted = true
  · rw [feedAll_of_aborted hrun, execAll, exec, if_pos hrun]
  · have hfalse := Bool.eq_false_iff.2 hrun
    rw [execAll_of_running (c := .draw n b) hfalse]
    exact ih (hready.draw hfalse)

/-- 命令を待つ状態から読むと、図は、命令の並びを順に実行した図になる。 -/
theorem canvas_feedAll {input : List UInt8} {cs : List Command} (h : Reads input cs) (hready : Ready d) :
    (feedAll env d input).canvas = (execAll env d cs).canvas := by
  induction h generalizing d with
  | nil => rfl
  | newline h ih =>
      rw [feedAll_cons, hready.feed, hready.stepNormal_newline, execAll_of_running (c := .newline) hready.running]
      exact ih ⟨hready.mode, hready.running⟩
  | carriage h ih =>
      rw [feedAll_cons, hready.feed, hready.stepNormal_carriage, execAll_of_running (c := .carriage) hready.running]
      exact ih ⟨hready.mode, hready.running⟩
  | sixel hb h ih =>
      rw [feedAll_cons, hready.feed, hready.stepNormal_sixel hb]
      exact canvas_draw hready ih
  | other hb h ih =>
      rw [feedAll_cons, hready.feed, hready.stepNormal_other hb]
      exact ih hready
  | @repeated digits b input cs hd hb h ih =>
      have hstart : d.stepNormal 0x21 = { d with mode := .repeat 0 } := rfl
      have hdigit : ¬isDigit b = true := not_isDigit_of_isSixel hb
      rw [feedAll_cons, hready.feed, hstart, feedAll_append, feedAll_repeat hready.running 0 hd, feedAll_cons,
        feed_of_mode hready.running]
      dsimp only
      rw [stepRepeat, if_neg hdigit, if_pos hb, show digits.foldl pushDigit 0 = number digits from rfl]
      dsimp only
      rw [hready.with_mode]
      exact canvas_draw hready ih
  | @stray digits input cs hd hstop h ih =>
      have hstart : d.stepNormal 0x21 = { d with mode := .repeat 0 } := rfl
      rw [feedAll_cons, hready.feed, hstart, feedAll_append, feedAll_repeat hready.running 0 hd, ← ih hready]
      refine feedAll_pending (fun b hb => ?_) (by rfl) hstop
      rw [not_or] at hb
      rw [feed_of_mode hready.running, hready.feed]
      dsimp only
      rw [stepRepeat, if_neg hb.1]
      dsimp only
      rw [if_neg hb.2]
      rfl
  | @select digits input cs hd hstop h ih =>
      have hstart : d.stepNormal 0x23 = { d with mode := .colorNum 0 } := rfl
      have hselected : Ready ({ d with currentColor := (number digits).toUInt16 } : SixelDecoder) :=
        ⟨hready.mode, hready.running⟩
      rw [feedAll_cons, hready.feed, hstart, feedAll_append, feedAll_colorNum hready.running 0 hd,
        execAll_of_running (c := .select (number digits)) hready.running, exec, ← ih hselected]
      refine feedAll_pending (fun b hb => ?_) (by rfl) hstop
      rw [not_or] at hb
      rw [feed_of_mode hready.running, hselected.feed]
      dsimp only
      rw [stepColorNum, if_neg hb.1, if_neg hb.2]
      rfl
  | @define digits params input cs hd hne hp hstop h ih =>
      have hstart : d.stepNormal 0x23 = { d with mode := .colorNum 0 } := rfl
      obtain ⟨param, params, rfl⟩ := List.exists_cons_of_ne_nil hne
      have hdefined : Ready (d.defineAndSelectColor env (number digits).toUInt16 ((param :: params).map number)) :=
        hready.define _ _
      obtain ⟨init, last, heq, hparams⟩ := feedAll_paramsText hready.running (number digits) hp
      have hhas : (if (!last.isEmpty) = true then number last else 0) = number last := by cases last <;> rfl
      rw [feedAll_cons, hready.feed, hstart, feedAll_append, feedAll_colorNum hready.running 0 hd, feedAll_append,
        show digits.foldl pushDigit 0 = number digits from rfl, hparams,
        execAll_of_running (c := .define _ _) hdefined.running, exec, ← ih hdefined]
      refine feedAll_pending (fun b hb => ?_) (by rw [canvas_define]; rfl) hstop
      rw [not_or] at hb
      rw [feed_of_mode hready.running, hdefined.feed]
      dsimp only
      rw [stepColorSpec, if_neg hb.1]
      dsimp only
      rw [if_neg hb.2, hhas, ← heq, define_mode]
      rfl
  | @raster text input cs htext hstop h ih =>
      have hstart : d.stepNormal 0x22 = { d with mode := .raster 0 } := rfl
      obtain ⟨last, hlast⟩ := feedAll_raster (d := d) hready.running 0 htext
      rw [feedAll_cons, hready.feed, hstart, feedAll_append, hlast, ← ih hready]
      refine feedAll_pending (fun b hb => ?_) (by rfl) hstop
      rw [not_or] at hb
      rw [feed_of_mode hready.running, hready.feed]
      dsimp only
      rw [stepRaster, if_neg hb.1, if_neg hb.2]
      rfl

end SixelDecoder

end IsekaiTerminal.Emulator
