import IsekaiTerminal.Lib.PrefixCode

/-!
# UTF-16

16 ビットの単位の列の符号化と復号を定める。対にならないサロゲートの復号は `none` である。
区切りごとに復号して置き換えたとき、どの区切りもそれだけで正しいかどうかを、4 バイトになる文字の数で判定する。
-/

namespace IsekaiTerminal.Lib

/-! ## 復号 -/

def isHighSurrogate (u : UInt16) : Bool := 0xD800 ≤ u.toNat && u.toNat < 0xDC00

def isLowSurrogate (u : UInt16) : Bool := 0xDC00 ≤ u.toNat && u.toNat < 0xE000

def isSurrogate (u : UInt16) : Bool := isHighSurrogate u || isLowSurrogate u

/-- 対にならない 1 つの単位。 -/
def decodeSingle (u : UInt16) : Option Char := if isSurrogate u then none else some (Char.ofNat u.toNat)

def decodePair (u v : UInt16) : Char := Char.ofNat (0x10000 + (u.toNat - 0xD800) * 0x400 + (v.toNat - 0xDC00))

def decodeUtf16 : List UInt16 → List (Option Char)
  | [] => []
  | [u] => [decodeSingle u]
  | u :: v :: rest =>
      if isHighSurrogate u && isLowSurrogate v then some (decodePair u v) :: decodeUtf16 rest
      else decodeSingle u :: decodeUtf16 (v :: rest)

/-- 対にならないサロゲートを U+FFFD に置き換える復号。 -/
def fromUtf16Lossy (units : List UInt16) : List Char := (decodeUtf16 units).map fun c => c.getD '\uFFFD'

/-! ## 符号化 -/

def encodeUtf16Char (c : Char) : List UInt16 :=
  if c.toNat < 0x10000 then [UInt16.ofNat c.toNat]
  else [UInt16.ofNat (0xD800 + (c.toNat - 0x10000) / 0x400), UInt16.ofNat (0xDC00 + (c.toNat - 0x10000) % 0x400)]

def encodeUtf16 (cs : List Char) : List UInt16 := cs.flatMap encodeUtf16Char

/-- ある文字の列の符号化である。 -/
def WellFormedUtf16 (units : List UInt16) : Prop := ∃ cs, encodeUtf16 cs = units

theorem Char.toNat_ofNat_of_valid {n : Nat} (h : n.isValidChar) : (Char.ofNat n).toNat = n := by
  rw [Char.ofNat, dif_pos h]
  rfl

theorem Char.toNat_bounds (c : Char) : c.toNat < 0xD800 ∨ 0xDFFF < c.toNat ∧ c.toNat < 0x110000 := c.valid

theorem UInt16.toNat_ofNat_of_le {n : Nat} (h : n < 0x10000) : (UInt16.ofNat n).toNat = n := UInt16.toNat_ofNat_of_lt' h

theorem isSurrogate_eq_false_iff {u : UInt16} : isSurrogate u = false ↔ u.toNat < 0xD800 ∨ 0xE000 ≤ u.toNat := by
  simp only [isSurrogate, isHighSurrogate, isLowSurrogate, Bool.or_eq_false_iff, Bool.and_eq_false_iff, decide_eq_false_iff_not]
  omega

theorem isHighSurrogate_iff {u : UInt16} : isHighSurrogate u = true ↔ 0xD800 ≤ u.toNat ∧ u.toNat < 0xDC00 := by
  simp [isHighSurrogate]

theorem isLowSurrogate_iff {u : UInt16} : isLowSurrogate u = true ↔ 0xDC00 ≤ u.toNat ∧ u.toNat < 0xE000 := by
  simp [isLowSurrogate]

theorem decodeUtf16_cons_of_not_high {u : UInt16} (h : isHighSurrogate u = false) (rest : List UInt16) :
    decodeUtf16 (u :: rest) = decodeSingle u :: decodeUtf16 rest := by
  cases rest with
  | nil => rfl
  | cons v rest => simp [decodeUtf16, h]

theorem decodeUtf16_pair {u v : UInt16} (hu : isHighSurrogate u = true) (hv : isLowSurrogate v = true)
    (rest : List UInt16) : decodeUtf16 (u :: v :: rest) = some (decodePair u v) :: decodeUtf16 rest := by
  simp [decodeUtf16, hu, hv]

/-- 先頭の 1 つか 2 つの単位ごとの帰納法。 -/
theorem decodeUtf16_induction {motive : List UInt16 → Prop} (nil : motive [])
    (single : ∀ u rest, decodeUtf16 (u :: rest) = decodeSingle u :: decodeUtf16 rest → motive rest → motive (u :: rest))
    (pair : ∀ u v rest, isHighSurrogate u = true → isLowSurrogate v = true → motive rest → motive (u :: v :: rest))
    (units : List UInt16) : motive units := by
  induction units using decodeUtf16.induct with
  | case1 => exact nil
  | case2 u => exact single u [] rfl nil
  | case3 u v rest h ih =>
      obtain ⟨hu, hv⟩ := Bool.and_eq_true_iff.mp h
      exact pair u v rest hu hv ih
  | case4 u v rest h ih =>
      refine single u (v :: rest) ?_ ih
      rw [decodeUtf16, if_neg h]

theorem toNat_decodePair {u v : UInt16} (hu : isHighSurrogate u = true) (hv : isLowSurrogate v = true) :
    (decodePair u v).toNat = 0x10000 + (u.toNat - 0xD800) * 0x400 + (v.toNat - 0xDC00) := by
  rw [isHighSurrogate_iff] at hu
  rw [isLowSurrogate_iff] at hv
  refine Char.toNat_ofNat_of_valid (.inr ⟨?_, ?_⟩)
  · omega
  · omega

theorem toNat_ofNat_of_not_surrogate {u : UInt16} (h : isSurrogate u = false) : (Char.ofNat u.toNat).toNat = u.toNat := by
  rw [isSurrogate_eq_false_iff] at h
  have hlt := u.toNat_lt
  refine Char.toNat_ofNat_of_valid ?_
  rcases h with h | h
  · exact .inl h
  · exact .inr ⟨by omega, by omega⟩

theorem decodeUtf16_encodeUtf16Char (c : Char) (rest : List UInt16) :
    decodeUtf16 (encodeUtf16Char c ++ rest) = some c :: decodeUtf16 rest := by
  have hbounds := Char.toNat_bounds c
  rw [encodeUtf16Char]
  split
  · rename_i hlt
    have hunit := UInt16.toNat_ofNat_of_le hlt
    have hsurrogate : isSurrogate (UInt16.ofNat c.toNat) = false := by
      rw [isSurrogate_eq_false_iff, hunit]
      omega
    have hhigh : isHighSurrogate (UInt16.ofNat c.toNat) = false := (Bool.or_eq_false_iff.mp hsurrogate).1
    rw [List.singleton_append, decodeUtf16_cons_of_not_high hhigh, decodeSingle, hsurrogate, hunit]
    simp
  · rename_i hge
    have hhigh := UInt16.toNat_ofNat_of_le (n := 0xD800 + (c.toNat - 0x10000) / 0x400) (by omega)
    have hlow := UInt16.toNat_ofNat_of_le (n := 0xDC00 + (c.toNat - 0x10000) % 0x400) (by omega)
    have hu : isHighSurrogate (UInt16.ofNat (0xD800 + (c.toNat - 0x10000) / 0x400)) = true := by
      rw [isHighSurrogate_iff, hhigh]
      omega
    have hv : isLowSurrogate (UInt16.ofNat (0xDC00 + (c.toNat - 0x10000) % 0x400)) = true := by
      rw [isLowSurrogate_iff, hlow]
      omega
    have hpair := toNat_decodePair hu hv
    rw [hhigh, hlow] at hpair
    have hchar : decodePair (UInt16.ofNat (0xD800 + (c.toNat - 0x10000) / 0x400))
        (UInt16.ofNat (0xDC00 + (c.toNat - 0x10000) % 0x400)) = c := by
      rw [← Char.toNat_inj, hpair]
      omega
    rw [List.cons_append, List.singleton_append, decodeUtf16_pair hu hv, hchar]

theorem decodeUtf16_encodeUtf16 (cs : List Char) : decodeUtf16 (encodeUtf16 cs) = cs.map some := by
  induction cs with
  | nil => rfl
  | cons c cs ih => rw [encodeUtf16, List.flatMap_cons, decodeUtf16_encodeUtf16Char, ← encodeUtf16, ih, List.map_cons]

theorem fromUtf16Lossy_encodeUtf16 (cs : List Char) : fromUtf16Lossy (encodeUtf16 cs) = cs := by
  rw [fromUtf16Lossy, decodeUtf16_encodeUtf16, List.map_map]
  exact List.map_id _

theorem encodeUtf16_append (cs ds : List Char) : encodeUtf16 (cs ++ ds) = encodeUtf16 cs ++ encodeUtf16 ds :=
  List.flatMap_append

theorem encodeUtf16Char_of_not_surrogate {u : UInt16} (h : isSurrogate u = false) :
    encodeUtf16Char (Char.ofNat u.toNat) = [u] := by
  have hnat := toNat_ofNat_of_not_surrogate h
  rw [encodeUtf16Char, if_pos (by rw [hnat]; exact u.toNat_lt), hnat, UInt16.ofNat_toNat]

theorem encodeUtf16Char_decodePair {u v : UInt16} (hu : isHighSurrogate u = true) (hv : isLowSurrogate v = true) :
    encodeUtf16Char (decodePair u v) = [u, v] := by
  have hnat := toNat_decodePair hu hv
  rw [isHighSurrogate_iff] at hu
  rw [isLowSurrogate_iff] at hv
  have hhigh : 0xD800 + ((decodePair u v).toNat - 0x10000) / 0x400 = u.toNat := by
    rw [hnat]
    omega
  have hlow : 0xDC00 + ((decodePair u v).toNat - 0x10000) % 0x400 = v.toNat := by
    rw [hnat]
    omega
  rw [encodeUtf16Char, if_neg (by omega), hhigh, hlow, UInt16.ofNat_toNat, UInt16.ofNat_toNat]

theorem encodeUtf16_cons (c : Char) (cs : List Char) : encodeUtf16 (c :: cs) = encodeUtf16Char c ++ encodeUtf16 cs := rfl

theorem encodeUtf16_fromUtf16Lossy {units : List UInt16} (h : none ∉ decodeUtf16 units) :
    encodeUtf16 (fromUtf16Lossy units) = units := by
  induction units using decodeUtf16_induction with
  | nil => rfl
  | single u rest heq ih =>
      rw [heq] at h
      simp only [List.mem_cons, not_or] at h
      have hu : isSurrogate u = false := by
        by_contra hu
        exact h.1 (if_pos (by simpa using hu)).symm
      have hsingle : decodeSingle u = some (Char.ofNat u.toNat) := by rw [decodeSingle, hu]; rfl
      rw [fromUtf16Lossy, heq, hsingle, List.map_cons, Option.getD_some, encodeUtf16_cons, ← fromUtf16Lossy, ih h.2,
        encodeUtf16Char_of_not_surrogate hu, List.singleton_append]
  | pair u v rest hu hv ih =>
      rw [decodeUtf16_pair hu hv] at h
      simp only [List.mem_cons, not_or] at h
      rw [fromUtf16Lossy, decodeUtf16_pair hu hv, List.map_cons, Option.getD_some, encodeUtf16_cons, ← fromUtf16Lossy,
        ih h.2, encodeUtf16Char_decodePair hu hv]
      rfl

theorem wellFormedUtf16_iff {units : List UInt16} : WellFormedUtf16 units ↔ none ∉ decodeUtf16 units := by
  constructor
  · rintro ⟨cs, rfl⟩
    rw [decodeUtf16_encodeUtf16]
    simp
  · exact fun h => ⟨_, encodeUtf16_fromUtf16Lossy h⟩

/-! ## サロゲートの数 -/

/-- UTF-8 で 4 バイトになる文字の数。 -/
def astral (cs : List Char) : Nat := cs.countP fun c => 0x10000 ≤ c.toNat

/-- 対にならないサロゲートの数。 -/
def unpaired (units : List UInt16) : Nat := (decodeUtf16 units).countP Option.isNone

theorem wellFormedUtf16_iff_unpaired {units : List UInt16} : WellFormedUtf16 units ↔ unpaired units = 0 := by
  rw [wellFormedUtf16_iff, unpaired, List.countP_eq_zero]
  constructor
  · rintro h (_ | c) hmem
    · exact absurd hmem h
    · simp
  · intro h hmem
    exact h none hmem rfl

instance (units : List UInt16) : Decidable (WellFormedUtf16 units) := decidable_of_iff _ wellFormedUtf16_iff_unpaired.symm

theorem isSurrogate_of_high {u : UInt16} (h : isHighSurrogate u = true) : isSurrogate u = true := by
  rw [isSurrogate, h, Bool.true_or]

theorem isSurrogate_of_low {u : UInt16} (h : isLowSurrogate u = true) : isSurrogate u = true := by
  rw [isSurrogate, h, Bool.or_true]

theorem astral_cons (c : Char) (cs : List Char) :
    astral (c :: cs) = astral cs + if 0x10000 ≤ c.toNat then 1 else 0 := by
  rw [astral, List.countP_cons, ← astral]
  simp

theorem toNat_getD_decodeSingle (u : UInt16) : ¬0x10000 ≤ ((decodeSingle u).getD '\uFFFD').toNat := by
  rw [decodeSingle]
  cases hu : isSurrogate u with
  | true => exact Nat.not_le_of_lt (show 0xFFFD < 0x10000 by omega)
  | false =>
      rw [if_neg Bool.false_ne_true, Option.getD_some, toNat_ofNat_of_not_surrogate hu]
      exact Nat.not_le_of_lt u.toNat_lt

theorem unpaired_cons (u : UInt16) (rest : List UInt16) (h : decodeUtf16 (u :: rest) = decodeSingle u :: decodeUtf16 rest) :
    unpaired (u :: rest) = unpaired rest + if isSurrogate u then 1 else 0 := by
  rw [unpaired, h, List.countP_cons, ← unpaired, decodeSingle]
  cases isSurrogate u <;> simp

theorem countP_isSurrogate (units : List UInt16) :
    units.countP isSurrogate = 2 * astral (fromUtf16Lossy units) + unpaired units := by
  induction units using decodeUtf16_induction with
  | nil => rfl
  | single u rest heq ih =>
      have hastral : astral (fromUtf16Lossy (u :: rest)) = astral (fromUtf16Lossy rest) := by
        rw [fromUtf16Lossy, heq, List.map_cons, ← fromUtf16Lossy, astral_cons, if_neg (toNat_getD_decodeSingle u),
          Nat.add_zero]
      rw [List.countP_cons, ih, unpaired_cons u rest heq, hastral, Nat.add_assoc]
  | pair u v rest hu hv ih =>
      have hunpaired : unpaired (u :: v :: rest) = unpaired rest := by
        rw [unpaired, decodeUtf16_pair hu hv]
        simp [unpaired]
      have hastral : astral (fromUtf16Lossy (u :: v :: rest)) = astral (fromUtf16Lossy rest) + 1 := by
        have hpair : 0x10000 ≤ (decodePair u v).toNat := by
          rw [toNat_decodePair hu hv]
          omega
        rw [fromUtf16Lossy, decodeUtf16_pair hu hv, List.map_cons, ← fromUtf16Lossy, astral_cons, Option.getD_some,
          if_pos hpair]
      rw [List.countP_cons, List.countP_cons, ih, hunpaired, hastral, isSurrogate_of_high hu, isSurrogate_of_low hv]
      simp only [if_true]
      omega

/-- 区切りごとに復号しても 4 バイトになる文字が減らなければ、どの区切りもそれだけで正しい。 -/
theorem wellFormedUtf16_of_astral_le {chunks : List (List UInt16)} {text : List Char}
    (htext : chunks.flatten = encodeUtf16 text) (hle : astral text ≤ (chunks.map fun c => astral (fromUtf16Lossy c)).sum) :
    ∀ chunk ∈ chunks, WellFormedUtf16 chunk := by
  have hwhole : unpaired chunks.flatten = 0 := wellFormedUtf16_iff_unpaired.mp ⟨text, htext.symm⟩
  have htotal := countP_isSurrogate chunks.flatten
  have hparts : chunks.flatten.countP isSurrogate =
      2 * (chunks.map fun c => astral (fromUtf16Lossy c)).sum + (chunks.map unpaired).sum := by
    clear htext hle hwhole htotal
    induction chunks with
    | nil => rfl
    | cons chunk chunks ih =>
        rw [List.flatten_cons, List.countP_append, ih, countP_isSurrogate]
        simp only [List.map_cons, List.sum_cons]
        omega
  rw [hwhole, htext, fromUtf16Lossy_encodeUtf16] at htotal
  rw [htext] at hparts
  have hzero : (chunks.map unpaired).sum = 0 := by omega
  intro chunk hmem
  exact wellFormedUtf16_iff_unpaired.mpr (List.sum_eq_zero_iff.mp hzero _ (List.mem_map_of_mem hmem))

/-- どの区切りもそれだけで正しければ、区切りごとの復号は全体の復号に等しい。 -/
theorem flatMap_fromUtf16Lossy {chunks : List (List UInt16)} {text : List Char} (htext : chunks.flatten = encodeUtf16 text)
    (h : ∀ chunk ∈ chunks, WellFormedUtf16 chunk) : chunks.flatMap fromUtf16Lossy = text := by
  have hencode : encodeUtf16 (chunks.flatMap fromUtf16Lossy) = chunks.flatten := by
    clear htext
    induction chunks with
    | nil => rfl
    | cons chunk chunks ih =>
        obtain ⟨hchunk, hrest⟩ := List.forall_mem_cons.mp h
        rw [List.flatMap_cons, encodeUtf16_append, ih hrest, encodeUtf16_fromUtf16Lossy (wellFormedUtf16_iff.mp hchunk),
          List.flatten_cons]
  rw [← fromUtf16Lossy_encodeUtf16 (chunks.flatMap fromUtf16Lossy), hencode, htext, fromUtf16Lossy_encodeUtf16]

/-! ## UTF-8 での長さ -/

theorem f0_le_ofNat_iff {n : Nat} (h : n < 0x100) : (0xF0 : UInt8) ≤ UInt8.ofNat n ↔ 0xF0 ≤ n := by
  rw [UInt8.le_iff_toNat_le, UInt8.toNat_ofNat_of_lt' h]
  rfl

theorem countP_ofNat_cons {n : Nat} (h : n < 0x100) (bytes : List UInt8) :
    (UInt8.ofNat n :: bytes).countP (fun b => 0xF0 ≤ b) = bytes.countP (fun b => 0xF0 ≤ b) + if 0xF0 ≤ n then 1 else 0 := by
  rw [List.countP_cons]
  simp only [decide_eq_true_eq, f0_le_ofNat_iff h]

theorem countP_utf8EncodeChar (c : Char) :
    (String.utf8EncodeChar c).countP (fun b => 0xF0 ≤ b) = if 0x10000 ≤ c.toNat then 1 else 0 := by
  have hvalid := Char.toNat_bounds c
  rw [← Char.toNat_val] at hvalid ⊢
  rw [String.utf8EncodeChar]
  split
  · rw [countP_ofNat_cons (by omega), List.countP_nil, if_neg (by omega), if_neg (by omega)]
  split
  · rw [countP_ofNat_cons (by omega), countP_ofNat_cons (by omega), List.countP_nil, if_neg (by omega), if_neg (by omega),
      if_neg (by omega)]
  split
  · rw [countP_ofNat_cons (by omega), countP_ofNat_cons (by omega), countP_ofNat_cons (by omega), List.countP_nil,
      if_neg (by omega), if_neg (by omega), if_neg (by omega), if_neg (by omega)]
  · rw [countP_ofNat_cons (by omega), countP_ofNat_cons (by omega), countP_ofNat_cons (by omega),
      countP_ofNat_cons (by omega), List.countP_nil, if_neg (by omega), if_neg (by omega), if_neg (by omega),
      if_pos (by omega), if_pos (by omega)]

theorem countP_encodeUtf8 (cs : List Char) : (encodeUtf8 cs).countP (fun b => 0xF0 ≤ b) = astral cs := by
  induction cs with
  | nil => rfl
  | cons c cs ih =>
      rw [encodeUtf8, List.flatMap_cons, List.countP_append, ← encodeUtf8, ih, countP_utf8EncodeChar, astral, astral,
        List.countP_cons, Nat.add_comm]
      simp

end IsekaiTerminal.Lib
