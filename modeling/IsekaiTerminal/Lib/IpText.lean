import Mathlib

/-!
# IP アドレスの文字表現

Rust の標準ライブラリの `Ipv4Addr` と `Ipv6Addr` の表示を定め、表示が、数の列としての読み方でもとのアドレスを表すことを示す。
-/

namespace IsekaiTerminal.Lib

/-! ## 数字の列 -/

/-- 16 進までの数字の値。数字でなければ 16 とする。 -/
def digitValue (c : Char) : Nat :=
  if '0' ≤ c ∧ c ≤ '9' then c.toNat - '0'.toNat
  else if 'a' ≤ c ∧ c ≤ 'f' then c.toNat - 'a'.toNat + 10
  else if 'A' ≤ c ∧ c ≤ 'F' then c.toNat - 'A'.toNat + 10
  else 16

/-- 空でない数字の列が、基数 `base` で `n` を表す。 -/
def IsNumeral (base : Nat) (text : List Char) (n : Nat) : Prop :=
  text ≠ [] ∧ (∀ c ∈ text, digitValue c < base) ∧ text.foldl (fun acc c => acc * base + digitValue c) 0 = n

theorem digitValue_digitChar {d : Nat} (h : d < 16) : digitValue d.digitChar = d := by
  interval_cases d <;> rfl

theorem isNumeral_toDigits {base : Nat} (hbase : 1 < base) (hle : base ≤ 16) (n : Nat) :
    IsNumeral base (Nat.toDigits base n) n := by
  induction n using Nat.strongRecOn with
  | ind n ih =>
      rw [Nat.toDigits_eq_if hbase]
      split
      · rename_i hlt
        have hvalue := digitValue_digitChar (Nat.lt_of_lt_of_le hlt hle)
        exact ⟨List.cons_ne_nil _ _, by simp [hvalue, hlt], by simp [hvalue]⟩
      · rename_i hge
        have hpos : 0 < n := by omega
        obtain ⟨_, hdigits, hvalue⟩ := ih (n / base) (Nat.div_lt_self hpos hbase)
        have hmod : n % base < base := Nat.mod_lt _ (by omega)
        have hlast := digitValue_digitChar (Nat.lt_of_lt_of_le hmod hle)
        refine ⟨by simp, ?_, ?_⟩
        · intro c hc
          rcases List.mem_append.mp hc with hc | hc
          · exact hdigits c hc
          · rw [List.mem_singleton.mp hc, hlast]
            exact hmod
        · rw [List.foldl_append, hvalue, List.foldl_cons, List.foldl_nil, hlast, Nat.mul_comm]
          exact Nat.div_add_mod n base

/-- 区切りで並べた数字の列が、数の列を表す。 -/
def Listed (base : Nat) (sep : Char) (text : List Char) (ns : List Nat) : Prop :=
  ∃ groups, text = List.intercalate [sep] groups ∧ List.Forall₂ (IsNumeral base) groups ns

theorem listed_map {base : Nat} (hbase : 1 < base) (hle : base ≤ 16) (sep : Char) (ns : List Nat) :
    Listed base sep (List.intercalate [sep] (ns.map (Nat.toDigits base))) ns := by
  refine ⟨_, rfl, ?_⟩
  rw [List.forall₂_map_left_iff, List.forall₂_same]
  exact fun n _ => isNumeral_toDigits hbase hle n

/-! ## IPv4 -/

/-- `Ipv4Addr` の表示。 -/
def ipv4Text (octets : List UInt8) : List Char :=
  List.intercalate ['.'] (octets.map fun b => Nat.toDigits 10 b.toNat)

/-- 10 進の 4 つの数が、オクテットの列を表す。 -/
def DenotesIpv4 (text : List Char) (octets : List UInt8) : Prop :=
  octets.length = 4 ∧ Listed 10 '.' text (octets.map UInt8.toNat)

theorem denotesIpv4_ipv4Text {octets : List UInt8} (h : octets.length = 4) : DenotesIpv4 (ipv4Text octets) octets := by
  refine ⟨h, ?_⟩
  have hlisted := @listed_map 10 (by decide) (by decide) '.' (octets.map UInt8.toNat)
  rwa [List.map_map] at hlisted

/-! ## IPv6 -/

/-- 16 ビットごとの区切り。 -/
def segments : List UInt8 → List Nat
  | hi :: lo :: rest => (hi.toNat * 256 + lo.toNat) :: segments rest
  | _ => []

/-- 0 が続く部分。 -/
structure Span where
  start : Nat
  len : Nat
deriving DecidableEq

/-- 今の並びと、これまでで最も長い並び。`index` の区切りを読んで進める。 -/
structure ZeroScan where
  longest : Span
  current : Span

def ZeroScan.next (s : ZeroScan) (segment index : Nat) : ZeroScan :=
  if segment = 0 then
    let current : Span := ⟨if s.current.len = 0 then index else s.current.start, s.current.len + 1⟩
    ⟨if s.longest.len < current.len then current else s.longest, current⟩
  else ⟨s.longest, ⟨0, 0⟩⟩

def zeroScan (segs : List Nat) : ZeroScan :=
  segs.zipIdx.foldl (fun s segment => s.next segment.1 segment.2) ⟨⟨0, 0⟩, ⟨0, 0⟩⟩

/-- 最も長い 0 の並びのうち、最初のもの。 -/
def longestZeros (segs : List Nat) : Span := (zeroScan segs).longest

def hexGroups (segs : List Nat) : List Char := List.intercalate [':'] (segs.map (Nat.toDigits 16))

/-- `Ipv6Addr` の表示。IPv4 を埋め込んだアドレスは、末尾を 10 進で表す。 -/
def ipv6Text (octets : List UInt8) : List Char :=
  if octets.take 12 = [0, 0, 0, 0, 0, 0, 0, 0, 0, 0, 0xFF, 0xFF] then "::ffff:".toList ++ ipv4Text (octets.drop 12)
  else
    let segs := segments octets
    let zeros := longestZeros segs
    if 1 < zeros.len then
      hexGroups (segs.take zeros.start) ++ "::".toList ++ hexGroups (segs.drop (zeros.start + zeros.len))
    else hexGroups segs

/-- 16 進の数の列が、8 つの区切りを表す。`::` は、残りの区切りがすべて 0 であることを表す。 -/
inductive DenotesIpv6 : List Char → List Nat → Prop
  | full {text : List Char} {segs : List Nat} (hlength : segs.length = 8) (h : Listed 16 ':' text segs) :
      DenotesIpv6 text segs
  | elided {before after : List Char} {left right : List Nat} {zeros : Nat}
      (hlength : left.length + zeros + right.length = 8) (hzeros : 0 < zeros)
      (hbefore : Listed 16 ':' before left) (hafter : Listed 16 ':' after right) :
      DenotesIpv6 (before ++ "::".toList ++ after) (left ++ List.replicate zeros 0 ++ right)
  | mapped {text : List Char} {octets : List UInt8} (h : DenotesIpv4 text octets) :
      DenotesIpv6 ("::ffff:".toList ++ text) ([0, 0, 0, 0, 0, 0xFFFF] ++ segments octets)

/-- 並びは、列の中にあり、どの要素も 0 である。 -/
structure Span.Zeros (s : Span) (segs : List Nat) : Prop where
  le : s.start + s.len ≤ segs.length
  zero : ∀ i, s.start ≤ i → i < s.start + s.len → segs[i]? = some 0

theorem Span.Zeros.concat {s : Span} {segs : List Nat} (h : s.Zeros segs) (x : Nat) : s.Zeros (segs ++ [x]) where
  le := by
    rw [List.length_append]
    exact h.le.trans (Nat.le_add_right _ _)
  zero i hlow hhigh := by
    rw [List.getElem?_append_left (hhigh.trans_le h.le)]
    exact h.zero i hlow hhigh

/-- 走査の不変条件。今の並びは、空でなければ、読んだところで終わる。 -/
structure ZeroScan.Sound (s : ZeroScan) (segs : List Nat) : Prop where
  longest : s.longest.Zeros segs
  current : s.current.Zeros segs
  ends : s.current.len ≠ 0 → s.current.start + s.current.len = segs.length

theorem zeroScan_concat (segs : List Nat) (x : Nat) : zeroScan (segs ++ [x]) = (zeroScan segs).next x segs.length := by
  simp [zeroScan, List.zipIdx_append]

theorem ZeroScan.Sound.next {s : ZeroScan} {segs : List Nat} (h : s.Sound segs) (x : Nat) :
    (s.next x segs.length).Sound (segs ++ [x]) := by
  have hempty : Span.Zeros ⟨0, 0⟩ (segs ++ [x]) := ⟨Nat.zero_le _, by simp⟩
  by_cases hx : x = 0
  · subst hx
    -- 0 を読むと、今の並びは 1 つ伸びて、読んだところで終わる。
    have hends : (if s.current.len = 0 then segs.length else s.current.start) + (s.current.len + 1) = segs.length + 1 := by
      split
      · omega
      · have := h.ends ‹_›
        omega
    have hcurrent : Span.Zeros ⟨if s.current.len = 0 then segs.length else s.current.start, s.current.len + 1⟩
        (segs ++ [0]) := by
      refine ⟨by simp [hends], fun i hlow hhigh => ?_⟩
      rcases Nat.lt_or_ge i segs.length with hlt | hge
      · rw [List.getElem?_append_left hlt]
        by_cases hlen : s.current.len = 0
        · simp only [hlen, if_true] at hlow
          omega
        · have hstop := h.ends hlen
          simp only [hlen, if_false] at hlow
          exact h.current.zero i hlow (by omega)
      · obtain rfl : i = segs.length := by simp only at hhigh; omega
        simp
    refine ⟨?_, by simpa [ZeroScan.next] using hcurrent, fun _ => by simpa [ZeroScan.next] using hends⟩
    simp only [ZeroScan.next, if_true]
    split
    · exact hcurrent
    · exact h.longest.concat 0
  · simp only [ZeroScan.next, hx, if_false]
    exact ⟨h.longest.concat x, hempty, fun hne => absurd rfl hne⟩

theorem zeroScan_sound (segs : List Nat) : (zeroScan segs).Sound segs := by
  induction segs using List.reverseRecOn with
  | nil => exact ⟨⟨Nat.zero_le _, by simp [zeroScan]⟩, ⟨Nat.zero_le _, by simp [zeroScan]⟩, by simp [zeroScan]⟩
  | append_singleton segs x ih =>
      rw [zeroScan_concat]
      exact ih.next x

/-- 並びの所を 0 に置き換えても、列は変わらない。 -/
theorem Span.Zeros.split {s : Span} {segs : List Nat} (h : s.Zeros segs) :
    segs.take s.start ++ List.replicate s.len 0 ++ segs.drop (s.start + s.len) = segs := by
  have hmiddle : List.replicate s.len 0 = (segs.drop s.start).take s.len := by
    refine (List.eq_replicate_iff.mpr ⟨?_, fun x hx => ?_⟩).symm
    · have hle := h.le
      simp
      omega
    · obtain ⟨i, hi, rfl⟩ := List.mem_iff_getElem.mp hx
      simp only [List.length_take, List.length_drop] at hi
      have hzero := h.zero (s.start + i) (Nat.le_add_right _ _) (by omega)
      simp only [List.getElem_take, List.getElem_drop]
      exact (List.getElem?_eq_some_iff.mp hzero).2
  rw [hmiddle, ← List.drop_drop, List.append_assoc, List.take_append_drop, List.take_append_drop]

theorem length_segments {octets : List UInt8} {n : Nat} (h : octets.length = 2 * n) : (segments octets).length = n := by
  induction n generalizing octets with
  | zero =>
      obtain rfl := List.eq_nil_of_length_eq_zero h
      rfl
  | succ n ih =>
      match octets, h with
      | hi :: lo :: rest, h =>
          have hrest : rest.length = 2 * n := by
            simp only [List.length_cons] at h
            omega
          simp [segments, ih hrest]

theorem denotesIpv6_ipv6Text {octets : List UInt8} (h : octets.length = 16) :
    DenotesIpv6 (ipv6Text octets) (segments octets) := by
  have hsegs : (segments octets).length = 8 := length_segments h
  rw [ipv6Text]
  split
  · rename_i hmapped
    have hsplit : octets = [0, 0, 0, 0, 0, 0, 0, 0, 0, 0, 0xFF, 0xFF] ++ octets.drop 12 := by
      rw [← hmapped, List.take_append_drop]
    have htail : DenotesIpv4 (ipv4Text (octets.drop 12)) (octets.drop 12) := denotesIpv4_ipv4Text (by simp [h])
    have hsegments : segments octets = [0, 0, 0, 0, 0, 0xFFFF] ++ segments (octets.drop 12) := by
      conv_lhs => rw [hsplit]
      rfl
    rw [hsegments]
    exact .mapped htail
  · have hzeros : (longestZeros (segments octets)).Zeros (segments octets) := (zeroScan_sound _).longest
    have hlisted (segs : List Nat) : Listed 16 ':' (hexGroups segs) segs := listed_map (by decide) (by decide) ':' segs
    simp only
    split
    · rename_i hlong
      conv_rhs => rw [← hzeros.split]
      refine .elided ?_ (Nat.zero_lt_of_lt hlong) (hlisted _) (hlisted _)
      have hle := hzeros.le
      simp only [List.length_take, List.length_drop]
      omega
    · exact .full hsegs (hlisted _)

end IsekaiTerminal.Lib
