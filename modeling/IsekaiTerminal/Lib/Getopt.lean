import Mathlib

/-!
# getopt

1 文字のオプションの列の読み方を定める。値を取らない文字は 1 つの引数にまとめられ、値は、付けても次の引数にしてもよい。
`--` と、最初のオプションでない引数で、オプションが終わる。
-/

namespace IsekaiTerminal.Lib

abbrev Arg := List Char

/-- オプションの引数。 -/
def isOptionArg (arg : Arg) : Bool := arg.head? = some '-' && arg ≠ ['-'] && arg ≠ ['-', '-']

/-- `-` の後の文字の列。値を取る文字までの旗と、値を取る文字と、その後に付いた列。 -/
def bundle (takesValue : Char → Bool) : List Char → List Char × Option (Char × List Char)
  | [] => ([], none)
  | c :: cs =>
      if takesValue c then ([], some (c, cs))
      else (c :: (bundle takesValue cs).1, (bundle takesValue cs).2)

/-- 読んだオプションの列と、残りの引数。値の足りない最後のオプションは、値を持たない。 -/
structure Parsed where
  options : List (Char × Option Arg)
  operands : List Arg
deriving DecidableEq

def Parsed.prepend (options : List (Char × Option Arg)) (p : Parsed) : Parsed := ⟨options ++ p.options, p.operands⟩

/-- 値の無い旗の列。 -/
def flagOptions (flags : List Char) : List (Char × Option Arg) := flags.map fun c => (c, none)

def getopt (takesValue : Char → Bool) : List Arg → Parsed
  | [] => ⟨[], []⟩
  | arg :: rest =>
      if arg = ['-', '-'] then ⟨[], rest⟩
      else if isOptionArg arg then
        match bundle takesValue arg.tail with
        | (flags, none) => (getopt takesValue rest).prepend (flagOptions flags)
        | (flags, some (c, [])) =>
            match rest with
            | [] => ⟨flagOptions flags ++ [(c, none)], []⟩
            | value :: rest => (getopt takesValue rest).prepend (flagOptions flags ++ [(c, some value)])
        | (flags, some (c, a :: attached)) =>
            (getopt takesValue rest).prepend (flagOptions flags ++ [(c, some (a :: attached))])
      else ⟨[], arg :: rest⟩

variable {takesValue : Char → Bool}

/-- 旗と、値を取る文字と、付いた列で、もとの列になる。 -/
theorem bundle_eq (takesValue : Char → Bool) (cs : List Char) :
    cs = (bundle takesValue cs).1 ++ ((bundle takesValue cs).2.elim [] fun v => v.1 :: v.2) := by
  induction cs with
  | nil => rfl
  | cons c cs ih =>
      rw [bundle]
      split
      · rfl
      · simp only [List.cons_append]
        rw [← ih]

/-- 値を取る文字が無い。 -/
theorem takesValue_of_mem_flags {cs : List Char} {c : Char} (h : c ∈ (bundle takesValue cs).1) : takesValue c = false := by
  induction cs with
  | nil => cases h
  | cons d cs ih =>
      rw [bundle] at h
      split at h
      · cases h
      · next hd =>
          rcases List.mem_cons.mp h with rfl | h
          · exact Bool.eq_false_iff.mpr hd
          · exact ih h

theorem takesValue_of_bundle {cs : List Char} {v : Char × List Char} (h : (bundle takesValue cs).2 = some v) :
    takesValue v.1 = true := by
  induction cs with
  | nil => cases h
  | cons d cs ih =>
      rw [bundle] at h
      split at h
      · next hd =>
          cases h
          exact hd
      · exact ih h

/-! ## 読み方の 1 歩 -/

section
variable {arg : Arg} {flags : List Char} {c : Char} {rest : List Arg}

theorem ne_dashdash_of_isOptionArg (h : isOptionArg arg = true) : arg ≠ ['-', '-'] := by
  rintro rfl
  exact absurd h (by decide)

theorem getopt_flags (harg : isOptionArg arg = true) (hb : bundle takesValue arg.tail = (flags, none)) :
    getopt takesValue (arg :: rest) = (getopt takesValue rest).prepend (flagOptions flags) := by
  simp [getopt, ne_dashdash_of_isOptionArg harg, harg, hb]

theorem getopt_attached {a : Char} {attached : List Char} (harg : isOptionArg arg = true)
    (hb : bundle takesValue arg.tail = (flags, some (c, a :: attached))) :
    getopt takesValue (arg :: rest) =
      (getopt takesValue rest).prepend (flagOptions flags ++ [(c, some (a :: attached))]) := by
  simp [getopt, ne_dashdash_of_isOptionArg harg, harg, hb]

theorem getopt_value {value : Arg} (harg : isOptionArg arg = true)
    (hb : bundle takesValue arg.tail = (flags, some (c, []))) :
    getopt takesValue (arg :: value :: rest) =
      (getopt takesValue rest).prepend (flagOptions flags ++ [(c, some value)]) := by
  simp [getopt, ne_dashdash_of_isOptionArg harg, harg, hb]

theorem getopt_valueMissing (harg : isOptionArg arg = true) (hb : bundle takesValue arg.tail = (flags, some (c, []))) :
    getopt takesValue [arg] = ⟨flagOptions flags ++ [(c, none)], []⟩ := by
  simp [getopt, ne_dashdash_of_isOptionArg harg, harg, hb]

theorem getopt_dashdash : getopt takesValue (['-', '-'] :: rest) = ⟨[], rest⟩ := by
  rw [getopt.eq_def]
  simp

theorem getopt_operand (harg : isOptionArg arg = false) (hne : arg ≠ ['-', '-']) :
    getopt takesValue (arg :: rest) = ⟨[], arg :: rest⟩ := by
  simp [getopt, hne, harg]

end

end IsekaiTerminal.Lib
