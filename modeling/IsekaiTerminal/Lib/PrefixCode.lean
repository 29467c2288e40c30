import Mathlib

/-!
# 接頭符号

文字ごとの符号語をつなげる符号化は、どの符号語も他の符号語の接頭辞でないとき、単射である。
-/

namespace IsekaiTerminal.Lib

section

variable {α β : Type*} {f : α → List β} {S : Set α}

/-- `S` の文字の符号語は空でなく、他の文字の符号語の接頭辞でない。 -/
structure PrefixCode (f : α → List β) (S : Set α) : Prop where
  ne_nil : ∀ a ∈ S, f a ≠ []
  eq_of_prefix : ∀ a ∈ S, ∀ b ∈ S, f a <+: f b → a = b

namespace PrefixCode

theorem eq_of_append (h : PrefixCode f S) {a b : α} (ha : a ∈ S) (hb : b ∈ S) {xs ys : List β}
    (heq : f a ++ xs = f b ++ ys) : a = b := by
  have hpre : f a <+: f b ++ ys := heq ▸ List.prefix_append (f a) xs
  rcases List.prefix_or_prefix_of_prefix hpre (List.prefix_append (f b) ys) with hab | hba
  · exact h.eq_of_prefix a ha b hb hab
  · exact (h.eq_of_prefix b hb a ha hba).symm

theorem flatMap_injOn (h : PrefixCode f S) : Set.InjOn (List.flatMap f) {l | ∀ a ∈ l, a ∈ S} := by
  intro l hl l' hl' heq
  induction l generalizing l' with
  | nil =>
      cases l' with
      | nil => rfl
      | cons b l' =>
          have hnil := (List.append_eq_nil_iff.mp heq.symm).1
          exact absurd hnil (h.ne_nil b (hl' b List.mem_cons_self))
  | cons a l ih =>
      cases l' with
      | nil => exact absurd (List.append_eq_nil_iff.mp heq).1 (h.ne_nil a (hl a List.mem_cons_self))
      | cons b l' =>
          obtain rfl := h.eq_of_append (hl a List.mem_cons_self) (hl' b List.mem_cons_self) heq
          have htail := List.append_cancel_left heq
          rw [ih (fun c hc => hl c (List.mem_cons_of_mem _ hc)) (fun c hc => hl' c (List.mem_cons_of_mem _ hc))
            htail]

theorem of_append (hne : ∀ a ∈ S, f a ≠ [])
    (h : ∀ a ∈ S, ∀ b ∈ S, ∀ rest, f a ++ rest = f b → a = b) : PrefixCode f S where
  ne_nil := hne
  eq_of_prefix a ha b hb hpre := by
    obtain ⟨rest, hrest⟩ := hpre
    exact h a ha b hb rest hrest

/-- 読み終えた符号語の後も等しい。 -/
theorem append_inj (h : PrefixCode f S) {a b : α} (ha : a ∈ S) (hb : b ∈ S) {xs ys : List β}
    (heq : f a ++ xs = f b ++ ys) : a = b ∧ xs = ys := by
  obtain rfl := h.eq_of_append ha hb heq
  exact ⟨rfl, List.append_cancel_left heq⟩

theorem flatMap_prefix (h : PrefixCode f S) {l l' : List α} (hl : ∀ a ∈ l, a ∈ S) (hl' : ∀ a ∈ l', a ∈ S)
    (hpre : l.flatMap f <+: l'.flatMap f) : l <+: l' := by
  induction l generalizing l' with
  | nil => exact List.nil_prefix
  | cons a l ih =>
      obtain ⟨rest, hrest⟩ := hpre
      rw [List.flatMap_cons, List.append_assoc] at hrest
      cases l' with
      | nil => exact absurd (List.append_eq_nil_iff.mp hrest).1 (h.ne_nil a (hl a List.mem_cons_self))
      | cons b l' =>
          obtain ⟨rfl, htail⟩ := h.append_inj (hl a List.mem_cons_self) (hl' b List.mem_cons_self) hrest
          refine (List.prefix_cons_inj a).mpr (ih (fun c hc => hl c (List.mem_cons_of_mem _ hc))
            (fun c hc => hl' c (List.mem_cons_of_mem _ hc)) ⟨rest, htail⟩)

/-- どの符号語の始まりでもない文字で閉じた、文字の列の符号化も接頭符号である。 -/
theorem closed (h : PrefixCode f S) {stop : β} (hstop : ∀ a ∈ S, (f a).head? ≠ some stop) :
    PrefixCode (fun l : List α => l.flatMap f ++ [stop]) {l | ∀ a ∈ l, a ∈ S} := by
  refine of_append (fun l _ => by simp) ?_
  intro l hl l' hl' rest heq
  have hhead : ∀ a ∈ S, ∀ xs ys, f a ++ xs ≠ stop :: ys := by
    intro a ha xs ys hcons
    refine hstop a ha ?_
    cases hfa : f a with
    | nil => exact absurd hfa (h.ne_nil a ha)
    | cons b bs =>
        rw [hfa, List.cons_append] at hcons
        rw [(List.cons.inj hcons).1, List.head?_cons]
  induction l generalizing l' with
  | nil =>
      cases l' with
      | nil => rfl
      | cons b l' =>
          simp only [List.flatMap_nil, List.nil_append, List.cons_append, List.flatMap_cons, List.append_assoc] at heq
          exact absurd heq.symm (hhead b (hl' b List.mem_cons_self) _ _)
  | cons a l ih =>
      cases l' with
      | nil =>
          simp only [List.flatMap_nil, List.nil_append, List.flatMap_cons, List.append_assoc] at heq
          exact absurd heq (hhead a (hl a List.mem_cons_self) _ _)
      | cons b l' =>
          simp only [List.flatMap_cons, List.append_assoc] at heq
          obtain ⟨rfl, htail⟩ := h.append_inj (hl a List.mem_cons_self) (hl' b List.mem_cons_self) heq
          rw [ih (fun c hc => hl c (List.mem_cons_of_mem _ hc)) l'
            (fun c hc => hl' c (List.mem_cons_of_mem _ hc)) (by simpa only [List.append_assoc] using htail)]

/-- 単射な符号化は、どの符号語にも現れない文字で閉じると接頭符号になる。 -/
theorem of_injOn (hinj : Set.InjOn f S) {stop : β} (hstop : ∀ a ∈ S, stop ∉ f a) :
    PrefixCode (fun a => f a ++ [stop]) S := by
  refine of_append (fun a _ => by simp) ?_
  intro a ha b hb rest heq
  refine hinj ha hb ?_
  have hsplit : ∀ xs ys zs : List β, stop ∉ xs → stop ∉ ys → xs ++ stop :: zs = ys ++ [stop] → xs = ys := by
    intro xs ys zs hxs hys hxy
    induction xs generalizing ys with
    | nil =>
        cases ys with
        | nil => rfl
        | cons y ys => exact absurd (List.cons.inj hxy).1 fun hy => hys (hy ▸ List.mem_cons_self)
    | cons x xs ih =>
        cases ys with
        | nil => exact absurd (List.cons.inj hxy).1 fun hx => hxs (hx ▸ List.mem_cons_self)
        | cons y ys =>
            obtain ⟨rfl, htail⟩ := List.cons.inj hxy
            rw [ih ys (fun h => hxs (List.mem_cons_of_mem _ h)) (fun h => hys (List.mem_cons_of_mem _ h)) htail]
  exact hsplit (f a) (f b) rest (hstop a ha) (hstop b hb) (by simpa using heq)

end PrefixCode

end

/-!
## UTF-8

文字の列の UTF-8 は接頭符号であり、改行のバイトは改行の文字からだけ現れる。
-/

def encodeUtf8 (s : List Char) : List UInt8 := s.flatMap String.utf8EncodeChar

def isUtf8 (bytes : List UInt8) : Bool := (String.fromUTF8? ⟨bytes.toArray⟩).isSome

theorem prefixCode_utf8EncodeChar : PrefixCode String.utf8EncodeChar Set.univ := by
  refine .of_append (fun c _ => String.utf8EncodeChar_ne_nil) ?_
  intro a _ b _ rest heq
  have ha : ((String.utf8EncodeChar a).toByteArray ++ rest.toByteArray).utf8DecodeChar? 0 = some a :=
    ByteArray.utf8DecodeChar?_utf8EncodeChar_append
  have hb : ((String.utf8EncodeChar b).toByteArray ++ ([] : List UInt8).toByteArray).utf8DecodeChar? 0 = some b :=
    ByteArray.utf8DecodeChar?_utf8EncodeChar_append
  rw [← List.toByteArray_append, heq] at ha
  rw [← List.toByteArray_append, List.append_nil] at hb
  exact Option.some.inj (ha.symm.trans hb)

theorem prefix_of_encodeUtf8 {s t : List Char} (h : encodeUtf8 s <+: encodeUtf8 t) : s <+: t :=
  prefixCode_utf8EncodeChar.flatMap_prefix (fun c _ => Set.mem_univ c) (fun c _ => Set.mem_univ c) h

theorem isUtf8_encodeUtf8 (s : List Char) : isUtf8 (encodeUtf8 s) = true := by
  have hvalid : (s.utf8Encode).IsValidUTF8 := ByteArray.isValidUTF8_utf8Encode
  have hbytes : (⟨(encodeUtf8 s).toArray⟩ : ByteArray) = s.utf8Encode := by
    exact ByteArray.ext List.data_toByteArray.symm
  rw [isUtf8, hbytes, String.fromUTF8?]
  simp [hvalid]

theorem newline_notMem_encodeUtf8 {s : List Char} (h : '\n' ∉ s) : (10 : UInt8) ∉ encodeUtf8 s := by
  intro hmem
  obtain ⟨c, hc, hbyte⟩ := List.mem_flatMap.mp hmem
  have hnat : ∃ b ∈ String.utf8EncodeChar c, b.toNat = 10 := ⟨10, hbyte, rfl⟩
  have hlow : c.val.toNat = 10 := by
    have hval := c.val.toNat_lt
    simp only [String.utf8EncodeChar] at hnat
    split_ifs at hnat
    all_goals
      simp only [List.mem_cons, List.not_mem_nil, or_false, exists_eq_or_imp, exists_eq_left, UInt8.toNat_ofNat'] at hnat
      omega
  have heq : c = '\n' := Char.ext (UInt32.toNat_inj.mp hlow)
  exact h (heq ▸ hc)

theorem length_encodeUtf8_le (s : List Char) : (encodeUtf8 s).length ≤ 4 * s.length := by
  induction s with
  | nil => simp [encodeUtf8]
  | cons c s ih =>
      have hc := c.utf8Size_le_four
      simp only [encodeUtf8, List.flatMap_cons, List.length_append, String.length_utf8EncodeChar, List.length_cons] at ih ⊢
      omega

theorem length_le_encodeUtf8 (s : List Char) : s.length ≤ (encodeUtf8 s).length := by
  induction s with
  | nil => simp [encodeUtf8]
  | cons c s ih =>
      have hc := c.utf8Size_pos
      simp only [encodeUtf8, List.flatMap_cons, List.length_append, String.length_utf8EncodeChar, List.length_cons] at ih ⊢
      omega

end IsekaiTerminal.Lib
