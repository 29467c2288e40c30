import IsekaiTerminal.Lib.PrefixCode

/-!
# JSON の書き出し

空白を入れない JSON の文字列、整数、文字列の配列の書き出しと、書いた値が続きの文字から独立に読み終えられること。
-/

namespace IsekaiTerminal.Lib.Json

/-! ## 書き出し -/

def hexDigit (n : Nat) : Char := "0123456789abcdef".toList.getD n '0'

def escapeChar (c : Char) : List Char :=
  if c = '"' then ['\\', '"']
  else if c = '\\' then ['\\', '\\']
  else if c = '\x08' then ['\\', 'b']
  else if c = '\t' then ['\\', 't']
  else if c = '\n' then ['\\', 'n']
  else if c = '\x0c' then ['\\', 'f']
  else if c = '\r' then ['\\', 'r']
  else if c.toNat < 0x20 then ['\\', 'u', '0', '0', hexDigit (c.toNat / 16), hexDigit (c.toNat % 16)]
  else [c]

def string (s : List Char) : List Char := '"' :: (s.flatMap escapeChar ++ ['"'])

def int (n : Int) : List Char :=
  if n < 0 then '-' :: Nat.toDigits 10 n.natAbs else Nat.toDigits 10 n.natAbs

/-- 文字列の配列。 -/
def strings : List (List Char) → List Char
  | [] => ['[', ']']
  | s :: rest => '[' :: (string s ++ (rest.flatMap (fun t => ',' :: string t) ++ [']']))

/-! ## 1 文字の符号語 -/

def hexValue (c : Char) : Nat := "0123456789abcdef".toList.idxOf c

/-- 始まりの符号語が表す文字。 -/
def unescape : List Char → Option Char
  | [] => none
  | c :: rest =>
      if c = '\\' then
        match rest with
        | 'b' :: _ => some '\x08'
        | 't' :: _ => some '\t'
        | 'n' :: _ => some '\n'
        | 'f' :: _ => some '\x0c'
        | 'r' :: _ => some '\r'
        | 'u' :: _ :: _ :: a :: b :: _ => some (Char.ofNat (hexValue a * 16 + hexValue b))
        | e :: _ => some e
        | [] => none
      else some c

theorem hexValue_hexDigit {n : Nat} (h : n < 16) : hexValue (hexDigit n) = n := by
  have hall : ∀ k < 16, hexValue (hexDigit k) = k := by decide +kernel
  exact hall n h

/-- 逃がさない文字。 -/
def Plain (c : Char) : Prop := c ≠ '"' ∧ c ≠ '\\' ∧ 0x20 ≤ c.toNat

theorem escapeChar_of_plain {c : Char} (h : Plain c) : escapeChar c = [c] := by
  obtain ⟨hquote, hback, hlow⟩ := h
  have hne : ∀ d : Char, d.toNat < 0x20 → c ≠ d := by
    rintro d hd rfl
    omega
  rw [escapeChar, if_neg hquote, if_neg hback, if_neg (hne _ (by decide)), if_neg (hne _ (by decide)),
    if_neg (hne _ (by decide)), if_neg (hne _ (by decide)), if_neg (hne _ (by decide)), if_neg (by omega)]

theorem escapeChar_of_not_plain {c : Char} (h : ¬ Plain c) :
    ∃ e rest, escapeChar c = '\\' :: e :: rest ∧ ∀ xs, unescape ('\\' :: e :: (rest ++ xs)) = some c := by
  unfold escapeChar
  split_ifs with hquote hback hb ht hn hf hr hlow
  · exact ⟨_, _, rfl, fun xs => by subst hquote; rfl⟩
  · exact ⟨_, _, rfl, fun xs => by subst hback; rfl⟩
  · exact ⟨_, _, rfl, fun xs => by subst hb; rfl⟩
  · exact ⟨_, _, rfl, fun xs => by subst ht; rfl⟩
  · exact ⟨_, _, rfl, fun xs => by subst hn; rfl⟩
  · exact ⟨_, _, rfl, fun xs => by subst hf; rfl⟩
  · exact ⟨_, _, rfl, fun xs => by subst hr; rfl⟩
  · refine ⟨_, _, rfl, fun xs => ?_⟩
    have hvalue : hexValue (hexDigit (c.toNat / 16)) * 16 + hexValue (hexDigit (c.toNat % 16)) = c.toNat := by
      rw [hexValue_hexDigit (by omega), hexValue_hexDigit (by omega)]
      omega
    calc unescape ('\\' :: 'u' :: '0' :: '0' :: hexDigit (c.toNat / 16) :: hexDigit (c.toNat % 16) :: xs)
        = some (Char.ofNat (hexValue (hexDigit (c.toNat / 16)) * 16 + hexValue (hexDigit (c.toNat % 16)))) := rfl
      _ = some c := by rw [hvalue, Char.ofNat_toNat]
  · exact absurd ⟨hquote, hback, by omega⟩ h

theorem unescape_escapeChar (c : Char) (rest : List Char) : unescape (escapeChar c ++ rest) = some c := by
  by_cases h : Plain c
  · simp [escapeChar_of_plain h, unescape, h.2.1]
  · obtain ⟨e, tail, hword, hread⟩ := escapeChar_of_not_plain h
    rw [hword]
    exact hread rest

theorem escapeChar_ne_nil (c : Char) : escapeChar c ≠ [] := by
  intro hnil
  have hread := unescape_escapeChar c []
  rw [hnil] at hread
  cases hread

theorem head?_escapeChar (c : Char) : (escapeChar c).head? ≠ some '"' := by
  by_cases h : Plain c
  · rw [escapeChar_of_plain h, List.head?_cons]
    exact fun heq => h.1 (Option.some.inj heq)
  · obtain ⟨e, tail, hword, -⟩ := escapeChar_of_not_plain h
    rw [hword, List.head?_cons]
    decide

theorem prefixCode_escapeChar : PrefixCode escapeChar Set.univ := by
  refine .of_append (fun c _ => escapeChar_ne_nil c) ?_
  intro a _ b _ rest heq
  have ha := unescape_escapeChar a rest
  have hb := unescape_escapeChar b []
  rw [heq] at ha
  rw [List.append_nil] at hb
  exact Option.some.inj (ha.symm.trans hb)

theorem length_escapeChar_le (c : Char) : (escapeChar c).length ≤ 6 := by
  unfold escapeChar
  split_ifs <;> simp

theorem newline_notMem_escapeChar (c : Char) : '\n' ∉ escapeChar c := by
  unfold escapeChar
  split_ifs with hquote hback hb ht hn hf hr hlow
  all_goals try decide
  · have hdigit : ∀ k < 16, hexDigit k ≠ '\n' := by decide +kernel
    have hhigh := hdigit (c.toNat / 16) (by omega)
    have hlow' := hdigit (c.toNat % 16) (by omega)
    simp [hhigh.symm, hlow'.symm]
  · simpa using fun h => hn h.symm

/-! ## 文字列と配列 -/

theorem prefixCode_string : PrefixCode string Set.univ := by
  have hbody : PrefixCode (fun s : List Char => s.flatMap escapeChar ++ ['"']) {s | ∀ c ∈ s, c ∈ Set.univ} :=
    prefixCode_escapeChar.closed fun c _ => head?_escapeChar c
  refine .of_append (fun s _ => by simp [string]) ?_
  intro s _ t _ rest heq
  simp only [string, List.cons_append] at heq
  exact hbody.eq_of_append (fun c _ => Set.mem_univ c) (fun c _ => Set.mem_univ c)
    ((List.cons.inj heq).2.trans (List.append_nil _).symm)

theorem prefixCode_strings : PrefixCode strings Set.univ := by
  have hitem : PrefixCode (fun t => ',' :: string t) Set.univ := by
    refine .of_append (fun t _ => by simp) ?_
    intro s _ t _ rest heq
    exact prefixCode_string.eq_of_append (Set.mem_univ s) (Set.mem_univ t)
      ((List.cons.inj heq).2.trans (List.append_nil _).symm)
  have htail : PrefixCode (fun ts : List (List Char) => ts.flatMap (fun t => ',' :: string t) ++ [']'])
      {ts | ∀ t ∈ ts, t ∈ Set.univ} := hitem.closed fun t _ => by simp
  refine .of_append (fun ss _ => by cases ss <;> simp [strings]) ?_
  intro ss _ ts _ rest heq
  cases ss with
  | nil =>
      cases ts with
      | nil => rfl
      | cons t ts => simp [strings, string] at heq
  | cons s ss =>
      cases ts with
      | nil => simp [strings, string] at heq
      | cons t ts =>
          simp only [strings, List.cons_append, List.append_assoc] at heq
          obtain ⟨rfl, hrest⟩ := prefixCode_string.append_inj (Set.mem_univ s) (Set.mem_univ t) (List.cons.inj heq).2
          have hclosed : (ss.flatMap (fun t => ',' :: string t) ++ [']']) ++ rest =
              (ts.flatMap (fun t => ',' :: string t) ++ [']']) ++ [] := by
            simpa using hrest
          rw [htail.eq_of_append (fun c _ => Set.mem_univ c) (fun c _ => Set.mem_univ c) hclosed]

/-! ## 整数 -/

theorem notMem_toDigits {c : Char} (h : c.isDigit = false) (n : Nat) : c ∉ Nat.toDigits 10 n := by
  intro hmem
  have hdigit := Nat.isDigit_of_mem_toDigits (by decide) (by decide) hmem
  rw [h] at hdigit
  cases hdigit

theorem notMem_int {c : Char} (h : c.isDigit = false) (hne : c ≠ '-') (n : Int) : c ∉ int n := by
  unfold int
  split_ifs
  · exact List.not_mem_cons_of_ne_of_not_mem hne (notMem_toDigits h _)
  · exact notMem_toDigits h _

theorem int_injective : Function.Injective int := by
  have habs : ∀ {m n : Nat}, Nat.toDigits 10 m = Nat.toDigits 10 n → m = n := fun heq =>
    Nat.repr_injective (congrArg String.ofList heq)
  have hminus : ∀ m n : Nat, '-' :: Nat.toDigits 10 m ≠ Nat.toDigits 10 n := by
    intro m n heq
    exact notMem_toDigits (by decide) n (heq ▸ List.mem_cons_self)
  intro m n heq
  unfold int at heq
  split_ifs at heq with hm hn hn
  · have := habs (List.cons.inj heq).2
    omega
  · exact absurd heq (hminus _ _)
  · exact absurd heq.symm (hminus _ _)
  · have := habs heq
    omega

theorem length_int_le {n : Int} (h : n.natAbs < 10 ^ 10) : (int n).length ≤ 11 := by
  have hdigits := Nat.toDigits_length 10 n.natAbs 10 (by decide) h
  unfold int
  split_ifs
  · rw [List.length_cons]
    omega
  · omega

/-! ## 文字列の長さと文字 -/

theorem length_string_le (s : List Char) : (string s).length ≤ 6 * s.length + 2 := by
  have hbody : (s.flatMap escapeChar).length ≤ 6 * s.length := by
    induction s with
    | nil => simp
    | cons c s ih =>
        have hc := length_escapeChar_le c
        rw [List.flatMap_cons, List.length_append, List.length_cons]
        omega
  simp only [string, List.length_cons, List.length_append, List.length_nil]
  omega

theorem length_strings_le {k : Nat} {ss : List (List Char)} (h : ∀ s ∈ ss, s.length ≤ k) :
    (strings ss).length ≤ ss.length * (6 * k + 3) + 2 := by
  have htail : ∀ ts : List (List Char), (∀ t ∈ ts, t.length ≤ k) →
      (ts.flatMap (fun t => ',' :: string t)).length ≤ ts.length * (6 * k + 3) := by
    intro ts hts
    induction ts with
    | nil => simp
    | cons t ts ih =>
        have ht := length_string_le t
        have hk := hts t List.mem_cons_self
        have hrest := ih fun u hu => hts u (List.mem_cons_of_mem _ hu)
        rw [List.flatMap_cons, List.length_append, List.length_cons, List.length_cons, Nat.succ_mul]
        omega
  cases ss with
  | nil => simp [strings]
  | cons s ss =>
      have hs := length_string_le s
      have hk := h s List.mem_cons_self
      have hrest := htail ss fun t ht => h t (List.mem_cons_of_mem _ ht)
      have hcount := Nat.add_one_mul ss.length (6 * k + 3)
      simp only [strings, List.length_cons, List.length_append, List.length_nil]
      omega

theorem newline_notMem_string (s : List Char) : '\n' ∉ string s := by
  simp only [string, List.mem_cons, List.mem_append, List.mem_flatMap, List.not_mem_nil, or_false, not_or, not_exists,
    not_and]
  exact ⟨by decide, fun c _ => newline_notMem_escapeChar c, by decide⟩

theorem newline_notMem_strings (ss : List (List Char)) : '\n' ∉ strings ss := by
  cases ss with
  | nil => decide
  | cons s ss =>
      simp only [strings, List.mem_cons, List.mem_append, List.mem_flatMap, List.not_mem_nil, or_false, not_or,
        not_exists, not_and]
      exact ⟨by decide, newline_notMem_string s, fun t _ => ⟨by decide, newline_notMem_string t⟩, by decide⟩

end IsekaiTerminal.Lib.Json
