import Mathlib

/-!
# 区切りのある列からの探索

列をいくつかの塊に分け、塊の境で始まって塊の境で終わる一致だけを探す。平らにした列を先頭から走査した結果は、
連続する塊の並びのうち、つないだ列が語に等しいものを、始まりの順に並べたものである。
-/

namespace IsekaiTerminal.Lib

variable {α β ε : Type}

/-! ## 連続する部分列 -/

/-- 空でない先頭の部分列を、短い順に並べる。 -/
def prefixes : List α → List (List α)
  | [] => []
  | a :: rest => [a] :: (prefixes rest).map (a :: ·)

/-- 空でない連続した部分列を、始まりの順に並べる。 -/
def runs : List α → List (List α)
  | [] => []
  | a :: rest => prefixes (a :: rest) ++ runs rest

theorem mem_prefixes {l r : List α} : r ∈ prefixes l ↔ r ≠ [] ∧ r <+: l := by
  induction l generalizing r with
  | nil => simp only [prefixes, List.not_mem_nil, List.prefix_nil, false_iff, not_and, imp_self]
  | cons a rest ih =>
      simp only [prefixes, List.mem_cons, List.mem_map]
      constructor
      · rintro (rfl | ⟨p, hp, rfl⟩)
        · exact ⟨List.cons_ne_nil _ _, List.cons_prefix_cons.2 ⟨rfl, List.nil_prefix⟩⟩
        · exact ⟨List.cons_ne_nil _ _, List.cons_prefix_cons.2 ⟨rfl, (ih.1 hp).2⟩⟩
      · rintro ⟨hne, hp⟩
        obtain _ | ⟨b, p⟩ := r
        · exact absurd rfl hne
        · obtain ⟨rfl, htail⟩ := List.cons_prefix_cons.1 hp
          by_cases hnil : p = []
          · exact .inl (by rw [hnil])
          · exact .inr ⟨p, ih.2 ⟨hnil, htail⟩, rfl⟩

theorem mem_runs {l r : List α} : r ∈ runs l ↔ r ≠ [] ∧ r <:+: l := by
  induction l with
  | nil => simp only [runs, List.not_mem_nil, List.infix_nil, false_iff, not_and, imp_self]
  | cons a rest ih =>
      rw [runs, List.mem_append, ih, mem_prefixes, List.infix_cons_iff]
      tauto

theorem prefixes_map (f : α → β) (l : List α) : prefixes (l.map f) = (prefixes l).map (List.map f) := by
  induction l with
  | nil => rfl
  | cons a rest ih =>
      simp only [List.map_cons, prefixes, ih, List.map_map, List.map_nil, List.cons.injEq, true_and]
      rfl

theorem runs_map (f : α → β) (l : List α) : runs (l.map f) = (runs l).map (List.map f) := by
  induction l with
  | nil => rfl
  | cons a rest ih =>
      rw [List.map_cons, runs, runs, ih, ← List.map_cons, prefixes_map, List.map_append]

/-! ## 塊の境での一致 -/

section Search

variable [DecidableEq β] (key : ε → ℕ) (sym : ε → β)

/-- 位置 `start` から始まる一致。両端が、番号の変わり目である。 -/
def occurrenceAt (needle : List β) (hay : List ε) (start : ℕ) : Option (List ε) :=
  let stop := start + needle.length
  if (start = 0 ∨ hay[start - 1]?.map key ≠ hay[start]?.map key) ∧
      (stop = hay.length ∨ hay[stop - 1]?.map key ≠ hay[stop]?.map key) ∧
      ((hay.drop start).take needle.length).map sym = needle
  then some ((hay.drop start).take needle.length) else none

/-- 空でない塊の並び。塊の番号は、`k` から 1 ずつ増える。 -/
def Numbered : ℕ → List (List ε) → Prop
  | _, [] => True
  | k, b :: bs => b ≠ [] ∧ (∀ e ∈ b, key e = k) ∧ Numbered (k + 1) bs

/-- 列の先頭から始まる一致。始まりの境は、すでに確かめている。 -/
def endingHere (needle : List β) (hay : List ε) : Option (List ε) :=
  if hay[needle.length - 1]?.map key ≠ hay[needle.length]?.map key ∧ (hay.take needle.length).map sym = needle
  then some (hay.take needle.length) else none

/-- `prev` の次から、列の終わりまでの走査。 -/
def scanFrom (needle : List β) : Option ε → List ε → List (List ε)
  | _, [] => []
  | prev, e :: rest =>
      (if prev.map key ≠ some (key e) then endingHere key sym needle (e :: rest) else none).toList ++
        scanFrom needle (some e) rest

variable {key sym} {needle : List β}

theorem occurrenceAt_append (hneedle : needle ≠ []) (before : List ε) (e : ε) (rest : List ε) :
    occurrenceAt key sym needle (before ++ e :: rest) before.length =
      if before.getLast?.map key ≠ some (key e) then endingHere key sym needle (e :: rest) else none := by
  have hpos : 0 < needle.length := List.length_pos_iff.2 hneedle
  have hstart : (before.length = 0 ∨ (before ++ e :: rest)[before.length - 1]?.map key ≠
      (before ++ e :: rest)[before.length]?.map key) ↔ before.getLast?.map key ≠ some (key e) := by
    rcases List.eq_nil_or_concat before with rfl | ⟨init, last, rfl⟩
    · simp only [List.length_nil, true_or, List.getLast?_nil, Option.map_none, ne_eq, reduceCtorEq, not_false_eq_true]
    · simp
  have hstop : (before.length + needle.length = (before ++ e :: rest).length ∨
      (before ++ e :: rest)[before.length + needle.length - 1]?.map key ≠
        (before ++ e :: rest)[before.length + needle.length]?.map key) ↔
      (e :: rest)[needle.length - 1]?.map key ≠ (e :: rest)[needle.length]?.map key := by
    rw [show before.length + needle.length - 1 = before.length + (needle.length - 1) by omega,
      List.getElem?_append_right (by omega), List.getElem?_append_right (by omega), Nat.add_sub_cancel_left,
      Nat.add_sub_cancel_left, List.length_append]
    constructor
    · rintro (hend | hne)
      · have hend' : needle.length = (e :: rest).length := by omega
        have hlast : needle.length - 1 < (e :: rest).length := by omega
        rw [List.getElem?_eq_getElem hlast, List.getElem?_eq_none (le_of_eq hend'.symm)]
        simp only [Option.map_some, Option.map_none, ne_eq, reduceCtorEq, not_false_eq_true]
      · exact hne
    · exact .inr
  simp only [occurrenceAt, endingHere, hstart, hstop, List.drop_left]
  by_cases h : before.getLast?.map key ≠ some (key e)
  · simp only [h, true_and, ne_eq, not_false_eq_true, ↓reduceIte]
  · simp only [h, false_and, ↓reduceIte]

theorem endingHere_eq_none_of_short {hay : List ε} (h : hay.length < needle.length) :
    endingHere key sym needle hay = none := by
  rw [endingHere, if_neg]
  rintro ⟨-, heq⟩
  have hlen := congrArg List.length heq
  simp only [List.length_map, List.length_take] at hlen
  omega

theorem scanFrom_short (prev : Option ε) (hay : List ε) (h : hay.length < needle.length) :
    scanFrom key sym needle prev hay = [] := by
  induction hay generalizing prev with
  | nil => rfl
  | cons e rest ih =>
      rw [scanFrom, ih _ (by rw [List.length_cons] at h; omega), endingHere_eq_none_of_short h]
      simp only [ite_self, Option.toList_none, List.append_nil]

/-- 位置ごとの走査は、列を先頭から読む走査である。 -/
theorem filterMap_range'_occurrenceAt (hneedle : needle ≠ []) (hay before : List ε) :
    (List.range' before.length (hay.length + 1 - needle.length)).filterMap
      (occurrenceAt key sym needle (before ++ hay)) = scanFrom key sym needle before.getLast? hay := by
  have hpos : 0 < needle.length := List.length_pos_iff.2 hneedle
  induction hay generalizing before with
  | nil => rw [show ([] : List ε).length + 1 - needle.length = 0 by rw [List.length_nil]; omega]; rfl
  | cons e rest ih =>
      by_cases hfit : needle.length ≤ (e :: rest).length
      · have hsplit : (e :: rest).length + 1 - needle.length = rest.length + 1 - needle.length + 1 := by
          rw [List.length_cons] at hfit ⊢; omega
        have hrest := ih (before ++ [e])
        rw [List.length_append, List.length_singleton, List.append_assoc, List.singleton_append,
          List.getLast?_concat] at hrest
        rw [hsplit, List.range'_succ, List.filterMap_cons, occurrenceAt_append hneedle before e rest, hrest,
          scanFrom]
        split <;> rename_i heq <;> rw [heq] <;> rfl
      · have hshort : (e :: rest).length < needle.length := by omega
        rw [scanFrom_short _ _ hshort, show (e :: rest).length + 1 - needle.length = 0 by omega]
        rfl

/-! ## 塊ごとの走査 -/

/-- 塊の途中から始まる一致はない。 -/
theorem scanFrom_inside {k : ℕ} (b hay : List ε) (hkey : ∀ e ∈ b, key e = k) (prev : ε) (hprev : key prev = k) :
    ∃ last, key last = k ∧ scanFrom key sym needle (some prev) (b ++ hay) = scanFrom key sym needle (some last) hay := by
  induction b generalizing prev with
  | nil => exact ⟨prev, hprev, rfl⟩
  | cons e b ih =>
      have he := hkey e List.mem_cons_self
      obtain ⟨last, hlast, hscan⟩ := ih (fun x hx => hkey x (List.mem_cons_of_mem _ hx)) e he
      refine ⟨last, hlast, ?_⟩
      rw [List.cons_append, scanFrom, hscan, Option.map_some, hprev, he]
      simp only [ne_eq, not_true_eq_false, ↓reduceIte, Option.toList_none, List.nil_append]

/-- 走査は、塊ごとに、その塊から始まる一致を調べる。 -/
theorem scanFrom_flatten (hneedle : needle ≠ []) {k : ℕ} (bs : List (List ε)) (h : Numbered key k bs)
    (prev : Option ε) (hprev : ∀ e ∈ prev, key e < k) :
    scanFrom key sym needle prev bs.flatten =
      bs.tails.flatMap fun rest => (endingHere key sym needle rest.flatten).toList := by
  have hnil : endingHere key sym needle [] = none := endingHere_eq_none_of_short (List.length_pos_iff.2 hneedle)
  induction bs generalizing k prev with
  | nil =>
      simp only [List.flatten_nil, scanFrom, List.tails, List.flatMap_cons, List.flatMap_nil, hnil, Option.toList_none,
        List.append_nil]
  | cons b bs ih =>
      obtain ⟨hne, hkey, hrest⟩ := h
      obtain _ | ⟨e, b⟩ := b
      · exact absurd rfl hne
      · have he := hkey e List.mem_cons_self
        obtain ⟨last, hlast, hscan⟩ := @scanFrom_inside β ε _ key sym needle k b bs.flatten
          (fun x hx => hkey x (List.mem_cons_of_mem _ hx)) e he
        have hstart : prev.map key ≠ some (key e) := by
          intro heq
          obtain ⟨p, hp, hpk⟩ := Option.map_eq_some_iff.1 heq
          have hlt := hprev p hp
          omega
        rw [List.flatten_cons, List.cons_append, scanFrom, hscan, if_pos hstart,
          ih hrest (some last) (fun x hx => by rw [Option.mem_some_iff] at hx; subst hx; omega), List.tails,
          List.flatMap_cons, List.flatten_cons, List.cons_append]

theorem flatten_ne_nil_of_mem_prefixes {k : ℕ} {bs r : List (List ε)} (h : Numbered key k bs) (hr : r ∈ prefixes bs) :
    r.flatten ≠ [] := by
  obtain ⟨hne, hhead⟩ := mem_prefixes.1 hr
  obtain _ | ⟨b, r⟩ := r
  · exact absurd rfl hne
  · obtain ⟨rest, rfl⟩ := hhead
    simp only [List.flatten_cons, ne_eq, List.append_eq_nil_iff, not_and]
    exact fun hnil => absurd hnil h.1

theorem head?_flatten_ne {k : ℕ} {bs : List (List ε)} (h : Numbered key (k + 1) bs) :
    ∀ e ∈ bs.flatten.head?, key e ≠ k := by
  obtain _ | ⟨b, bs⟩ := bs
  · rintro e ⟨⟩
  · obtain ⟨hne, hkey, -⟩ := h
    obtain _ | ⟨x, b⟩ := b
    · exact absurd rfl hne
    · rintro e ⟨⟩
      rw [hkey x List.mem_cons_self]
      omega

/-- 語が先頭の塊より短ければ、一致は塊の途中で終わる。 -/
theorem endingHere_append_of_short {k : ℕ} (hneedle : needle ≠ []) {b : List ε} (hkey : ∀ e ∈ b, key e = k)
    (hay : List ε) (h : needle.length < b.length) : endingHere key sym needle (b ++ hay) = none := by
  have hpos : 0 < needle.length := List.length_pos_iff.2 hneedle
  rw [endingHere, if_neg]
  rintro ⟨hend, -⟩
  apply hend
  rw [List.getElem?_append_left (by omega), List.getElem?_append_left h, List.getElem?_eq_getElem (by omega),
    List.getElem?_eq_getElem h, Option.map_some, Option.map_some, hkey _ (List.getElem_mem _),
    hkey _ (List.getElem_mem _)]

/-- 語の長さが先頭の塊に等しいとき。 -/
theorem endingHere_append_of_eq {k : ℕ} (hneedle : needle ≠ []) {b : List ε} (hkey : ∀ e ∈ b, key e = k)
    {hay : List ε} (hhay : ∀ e ∈ hay.head?, key e ≠ k) (h : needle.length = b.length) :
    endingHere key sym needle (b ++ hay) = if b.map sym = needle then some b else none := by
  have hpos : 0 < needle.length := List.length_pos_iff.2 hneedle
  have hend : (b ++ hay)[needle.length - 1]?.map key ≠ (b ++ hay)[needle.length]?.map key := by
    rw [List.getElem?_append_left (by omega), List.getElem?_append_right (le_of_eq h.symm),
      List.getElem?_eq_getElem (by omega), Option.map_some, hkey _ (List.getElem_mem _),
      show needle.length - b.length = 0 by omega, ← List.head?_eq_getElem?]
    intro heq
    obtain ⟨e, he, hek⟩ := Option.map_eq_some_iff.1 heq.symm
    exact hhay e he hek
  have htake : (b ++ hay).take needle.length = b := by rw [h, List.take_left]
  rw [endingHere, htake]
  simp only [hend, ne_eq, not_false_eq_true, true_and]

omit [DecidableEq β] in
theorem map_append_eq_iff {b : List ε} (rest : List ε) (h : b.length ≤ needle.length) :
    (b ++ rest).map sym = needle ↔ b.map sym = needle.take b.length ∧ rest.map sym = needle.drop b.length := by
  rw [List.map_append]
  constructor
  · intro happ
    exact List.append_inj (happ.trans (List.take_append_drop b.length needle).symm)
      (by rw [List.length_map, List.length_take, min_eq_left h])
  · rintro ⟨hhead, htail⟩
    rw [hhead, htail, List.take_append_drop]

/-- 語が先頭の塊より長ければ、残りの塊で残りの語を調べる。 -/
theorem endingHere_append_of_long {b : List ε} (hay : List ε) (h : b.length < needle.length) :
    endingHere key sym needle (b ++ hay) =
      if b.map sym = needle.take b.length then (endingHere key sym (needle.drop b.length) hay).map (b ++ ·)
      else none := by
  have hlen : (needle.drop b.length).length = needle.length - b.length := List.length_drop
  have htake : (b ++ hay).take needle.length = b ++ hay.take (needle.length - b.length) := by
    rw [List.take_append, List.take_of_length_le h.le]
  have heq : (b ++ hay.take (needle.length - b.length)).map sym = needle ↔ b.map sym = needle.take b.length ∧
      (hay.take (needle.length - b.length)).map sym = needle.drop b.length := map_append_eq_iff _ h.le
  rw [endingHere, endingHere, htake, hlen, List.getElem?_append_right (by omega),
    List.getElem?_append_right h.le, show needle.length - 1 - b.length = needle.length - b.length - 1 by omega]
  by_cases hb : b.map sym = needle.take b.length
  · simp only [heq, hb, true_and, ↓reduceIte]
    split <;> rfl
  · simp only [heq, hb, false_and, and_false, ↓reduceIte]

/-- 先頭の塊から始まる一致は、先頭の塊からの並びのうち、つないだ列が語に等しいものである。 -/
theorem endingHere_flatten {k : ℕ} (hneedle : needle ≠ []) (bs : List (List ε)) (h : Numbered key k bs) :
    (endingHere key sym needle bs.flatten).toList =
      ((prefixes bs).filter fun r => r.flatten.map sym = needle).map List.flatten := by
  induction bs generalizing k needle with
  | nil =>
      have hnil : endingHere key sym needle [] = none :=
        endingHere_eq_none_of_short (List.length_pos_iff.2 hneedle)
      rw [List.flatten_nil, hnil]
      rfl
  | cons b bs ih =>
      obtain ⟨hne, hkey, hrest⟩ := h
      rw [prefixes, List.flatten_cons, List.filter_cons, List.filter_map]
      obtain hlt | heq | hgt := lt_trichotomy needle.length b.length
      · have hnone : ∀ r : List (List ε), ¬ (b :: r).flatten.map sym = needle := by
          rintro r rfl
          simp only [List.flatten_cons, List.map_append, List.length_append, List.length_map] at hlt
          omega
        rw [endingHere_append_of_short hneedle hkey _ hlt, if_neg (by simpa only [decide_eq_true_eq] using hnone []),
          List.filter_eq_nil_iff.2 (fun r _ => by simpa only [Function.comp_apply, decide_eq_true_eq] using hnone r)]
        rfl
      · have hnone : ∀ r ∈ prefixes bs, ¬ (b :: r).flatten.map sym = needle := by
          rintro r hr rfl
          have hr' := List.length_pos_iff.2 (flatten_ne_nil_of_mem_prefixes hrest hr)
          simp only [List.flatten_cons, List.map_append, List.length_append, List.length_map] at heq
          omega
        rw [endingHere_append_of_eq hneedle hkey (head?_flatten_ne hrest) heq,
          List.filter_eq_nil_iff.2 (fun r hr => by simpa only [Function.comp_apply, decide_eq_true_eq] using hnone r hr)]
        simp only [List.flatten_cons, List.flatten_nil, List.append_nil, decide_eq_true_eq, List.map_nil]
        split
        · simp only [Option.toList_some, List.map_cons, List.flatten_cons, List.flatten_nil, List.append_nil,
            List.map_nil]
        · rfl
      · have hdrop : needle.drop b.length ≠ [] := by
          rw [ne_eq, List.drop_eq_nil_iff]
          omega
        have hb : ¬ ([b] : List (List ε)).flatten.map sym = needle := by
          rintro rfl
          simp only [List.flatten_cons, List.flatten_nil, List.append_nil, List.length_map, lt_self_iff_false] at hgt
        rw [endingHere_append_of_long _ hgt, decide_eq_false hb]
        by_cases hhead : b.map sym = needle.take b.length
        · have htoList : ((endingHere key sym (needle.drop b.length) bs.flatten).map (b ++ ·)).toList =
              (endingHere key sym (needle.drop b.length) bs.flatten).toList.map (b ++ ·) := by
            cases endingHere key sym (needle.drop b.length) bs.flatten <;> rfl
          rw [if_pos hhead, htoList, ih hdrop hrest, List.map_map]
          simp only [Function.comp_def, List.flatten_cons, map_append_eq_iff _ hgt.le, hhead, true_and,
            Bool.false_eq_true, ↓reduceIte, List.map_map]
        · simp only [Function.comp_def, List.flatten_cons, map_append_eq_iff _ hgt.le, hhead, false_and, decide_false,
            List.filter_false, List.map_nil, Bool.false_eq_true, ↓reduceIte, Option.toList_none]

/-- 走査の結果は、連続する塊の並びのうち、つないだ列が語に等しいものである。 -/
theorem filterMap_occurrenceAt (hneedle : needle ≠ []) {k : ℕ} {bs : List (List ε)} (h : Numbered key k bs) :
    (List.range (bs.flatten.length + 1 - needle.length)).filterMap (occurrenceAt key sym needle bs.flatten) =
      ((runs bs).filter fun r => r.flatten.map sym = needle).map List.flatten := by
  have hscan := @filterMap_range'_occurrenceAt β ε _ key sym needle hneedle bs.flatten []
  rw [List.nil_append, List.length_nil, ← List.range_eq_range'] at hscan
  rw [hscan, List.getLast?_nil, scanFrom_flatten hneedle bs h none (fun e he => by cases he)]
  clear hscan
  induction bs generalizing k with
  | nil =>
      have hnil : endingHere key sym needle [] = none :=
        endingHere_eq_none_of_short (List.length_pos_iff.2 hneedle)
      simp only [List.tails, List.flatMap_cons, List.flatten_nil, hnil, Option.toList_none, List.flatMap_nil,
        List.append_nil, runs, List.filter_nil, List.map_nil]
  | cons b bs ih =>
      rw [List.tails, List.flatMap_cons, endingHere_flatten hneedle _ h, ih h.2.2, runs, List.filter_append,
        List.map_append]

theorem length_filter_prefixes_le_one (hneedle : needle ≠ []) {k : ℕ} {bs : List (List ε)} (h : Numbered key k bs) :
    ((prefixes bs).filter fun r => r.flatten.map sym = needle).length ≤ 1 := by
  have hlen := congrArg List.length (@endingHere_flatten β ε _ key sym needle k hneedle bs h)
  rw [List.length_map] at hlen
  rw [← hlen]
  cases endingHere key sym needle bs.flatten <;> simp

/-- 一致は、始まりの塊の順に並び、1 つの塊から始まる一致は多くても 1 つである。 -/
theorem pairwise_filter_runs (hneedle : needle ≠ []) {k : ℕ} {bs : List (List ε)} (h : Numbered key k bs)
    {R : List ε → List ε → Prop} (hR : bs.Pairwise R) :
    ((runs bs).filter fun r => r.flatten.map sym = needle).Pairwise
      fun r r' => ∀ b ∈ r.head?, ∀ b' ∈ r'.head?, R b b' := by
  induction bs generalizing k with
  | nil => exact .nil
  | cons b bs ih =>
      rw [runs, List.filter_append, List.pairwise_append]
      refine ⟨?_, ih h.2.2 (List.pairwise_cons.1 hR).2, ?_⟩
      · have hone : ((prefixes (b :: bs)).filter fun r => r.flatten.map sym = needle).length ≤ 1 :=
          length_filter_prefixes_le_one hneedle h
        obtain hnil | ⟨r, hr⟩ := Nat.le_one_iff_eq_zero_or_eq_one.1 hone |>.imp List.eq_nil_of_length_eq_zero
          List.length_eq_one_iff.1
        · rw [hnil]
          exact .nil
        · rw [hr]
          exact List.pairwise_singleton _ _
      · intro r hr r' hr' x hx x' hx'
        have hhead := (mem_prefixes.1 (List.mem_filter.1 hr).1).2
        have hsub := (mem_runs.1 (List.mem_filter.1 hr').1).2
        obtain ⟨rest, hrest⟩ := hhead
        have hxb : x = b := by
          obtain _ | ⟨y, r⟩ := r
          · cases hx
          · cases hx
            exact (List.cons.inj hrest).1
        have hmem : x' ∈ bs := hsub.subset (List.mem_of_mem_head? hx')
        rw [hxb]
        exact (List.pairwise_cons.1 hR).1 x' hmem

end Search

end IsekaiTerminal.Lib
