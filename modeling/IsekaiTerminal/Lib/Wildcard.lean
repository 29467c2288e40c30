import Mathlib

/-!
# `*` と `?` の型

任意の長さの列に合う記号 `star` と、任意の 1 文字に合う記号 `any` を含む型に、列が合うことを定める。
合うかを調べる 2 つの方法、再帰と、最後の `star` に戻る反復が、同じ結果になることを示す。
-/

namespace IsekaiTerminal.Lib

variable {α : Type*} {star any : α}

/-- 型 `p` に列 `v` が合う。 -/
inductive Wild (star any : α) : List α → List α → Prop
  | nil : Wild star any [] []
  | star {p w v : List α} (hw : w <:+ v) (h : Wild star any p w) : Wild star any (star :: p) v
  | any {p v : List α} (b : α) (h : Wild star any p v) : Wild star any (any :: p) (b :: v)
  | char {c : α} {p v : List α} (hc : c ≠ star) (h : Wild star any p v) : Wild star any (c :: p) (c :: v)

namespace Wild

theorem star_of_suffix {p v w : List α} (h : Wild star any (star :: p) w) (hne : any ≠ star) (hw : w <:+ v) :
    Wild star any (star :: p) v := by
  cases h with
  | star hw' h => exact .star (hw'.trans hw) h
  | any _ _ => exact absurd rfl hne
  | char hc _ => exact absurd rfl hc

theorem star_iff {p v : List α} (hne : any ≠ star) :
    Wild star any (star :: p) v ↔ ∃ w, w <:+ v ∧ Wild star any p w := by
  constructor
  · intro h
    cases h with
    | star hw h => exact ⟨_, hw, h⟩
    | any _ _ => exact absurd rfl hne
    | char hc _ => exact absurd rfl hc
  · rintro ⟨w, hw, h⟩
    exact .star hw h

theorem cons_iff {c b : α} {p v : List α} (hc : c ≠ star) :
    Wild star any (c :: p) (b :: v) ↔ (c = any ∨ c = b) ∧ Wild star any p v := by
  constructor
  · intro h
    cases h with
    | star _ _ => exact absurd rfl hc
    | any _ h => exact ⟨Or.inl rfl, h⟩
    | char _ h => exact ⟨Or.inr rfl, h⟩
  · rintro ⟨rfl | rfl, h⟩
    · exact .any b h
    · exact .char hc h

theorem not_cons_nil {c : α} {p : List α} (hc : c ≠ star) : ¬ Wild star any (c :: p) [] := by
  intro h
  cases h with
  | star _ _ => exact hc rfl

theorem nil_iff {v : List α} : Wild star any [] v ↔ v = [] := by
  constructor
  · intro h
    cases h
    rfl
  · rintro rfl
    exact .nil

/-- `star` の無い前半は、同じ長さの前半に合う。 -/
theorem split_of_append {q p v : List α} (hq : star ∉ q) (h : Wild star any (q ++ p) v) :
    ∃ u w, v = u ++ w ∧ u.length = q.length ∧ Wild star any p w := by
  induction q generalizing v with
  | nil => exact ⟨[], v, rfl, rfl, h⟩
  | cons c q ih =>
      obtain ⟨hc, hq⟩ := List.ne_and_not_mem_of_not_mem_cons hq
      cases v with
      | nil => exact absurd h (not_cons_nil hc.symm)
      | cons b v =>
          obtain ⟨_, h⟩ := (cons_iff hc.symm).mp h
          obtain ⟨u, w, rfl, hlength, hw⟩ := ih hq h
          exact ⟨b :: u, w, rfl, by simp [hlength], hw⟩

/-- 型の 1 つの記号が、列の 1 つの部分を表す。 -/
def Stands (star any c : α) (piece : List α) : Prop := c = star ∨ c = any ∧ piece.length = 1 ∨ piece = [c]

theorem of_pieces {p : List α} {pieces : List (List α)} (h : List.Forall₂ (Stands star any) p pieces) :
    Wild star any p pieces.flatten := by
  induction h with
  | nil => exact .nil
  | @cons c piece p pieces hpiece _ ih =>
      rw [List.flatten_cons]
      by_cases hc : c = star
      · subst hc
        exact .star (List.suffix_append piece pieces.flatten) ih
      · rcases hpiece with hstar | ⟨rfl, hlength⟩ | rfl
        · exact absurd hstar hc
        · obtain ⟨b, rfl⟩ := List.length_eq_one_iff.mp hlength
          exact .any b ih
        · exact .char hc ih

/-- 型が合うのは、列を、記号のそれぞれが表す部分に切り分けられるときに限る。 -/
theorem iff_pieces {p v : List α} :
    Wild star any p v ↔ ∃ pieces, List.Forall₂ (Stands star any) p pieces ∧ pieces.flatten = v := by
  constructor
  · intro h
    induction h with
    | nil => exact ⟨[], .nil, rfl⟩
    | star hw _ ih =>
        obtain ⟨pieces, hpieces, rfl⟩ := ih
        obtain ⟨skipped, rfl⟩ := hw
        exact ⟨skipped :: pieces, .cons (.inl rfl) hpieces, rfl⟩
    | any b _ ih =>
        obtain ⟨pieces, hpieces, rfl⟩ := ih
        exact ⟨[b] :: pieces, .cons (.inr (.inl ⟨rfl, rfl⟩)) hpieces, rfl⟩
    | @char c _ _ _ _ ih =>
        obtain ⟨pieces, hpieces, rfl⟩ := ih
        exact ⟨[c] :: pieces, .cons (.inr (.inr rfl)) hpieces, rfl⟩
  · rintro ⟨pieces, hpieces, rfl⟩
    exact of_pieces hpieces

end Wild

variable [DecidableEq α]

/-! ## 再帰 -/

/-- 列のどれかの後半が `test` を満たす。 -/
def anySuffix (test : List α → Bool) : List α → Bool
  | [] => test []
  | b :: v => test (b :: v) || anySuffix test v

def wildRec (star any : α) : List α → List α → Bool
  | [], v => v.isEmpty
  | c :: p, v =>
      if c = star then anySuffix (wildRec star any p) v
      else
        match v with
        | [] => false
        | b :: v => (c = any || c = b) && wildRec star any p v

omit [DecidableEq α] in
theorem anySuffix_iff {test : List α → Bool} {v : List α} : anySuffix test v = true ↔ ∃ w, w <:+ v ∧ test w = true := by
  induction v with
  | nil => simp [anySuffix]
  | cons b v ih =>
      rw [anySuffix, Bool.or_eq_true, ih]
      constructor
      · rintro (h | ⟨w, hw, h⟩)
        · exact ⟨b :: v, List.suffix_refl _, h⟩
        · exact ⟨w, hw.trans (List.suffix_cons b v), h⟩
      · rintro ⟨w, hw, h⟩
        rcases List.suffix_cons_iff.mp hw with rfl | hw
        · exact Or.inl h
        · exact Or.inr ⟨w, hw, h⟩

theorem wildRec_iff (hne : any ≠ star) {p v : List α} : wildRec star any p v = true ↔ Wild star any p v := by
  induction p generalizing v with
  | nil => rw [Wild.nil_iff, wildRec, List.isEmpty_iff]
  | cons c p ih =>
      by_cases hc : c = star
      · subst hc
        rw [wildRec.eq_def, Wild.star_iff hne]
        simp only [if_true, anySuffix_iff, ih]
      · cases v with
        | nil => simp [wildRec, hc, Wild.not_cons_nil hc]
        | cons b v => simp [wildRec, hc, Wild.cons_iff hc, ih]

/-! ## 最後の `star` に戻る反復 -/

/-- 型の残り `p` と列の残り `v`。`star` の後の型と、`star` が読み飛ばした後の列を `resume` に持つ。 -/
def wildLoop (star any : α) : Nat → List α → List α → Option (List α × List α) → Bool
  | 0, _, _, _ => false
  | _ + 1, p, [], _ => p.all (· = star)
  | n + 1, p, b :: v, resume =>
      let backtrack := resume.any fun r => wildLoop star any n r.1 r.2.tail (some (r.1, r.2.tail))
      match p with
      | [] => backtrack
      | c :: p =>
          if c = star then wildLoop star any n p (b :: v) (some (p, b :: v))
          else if c = any || c = b then wildLoop star any n p v resume
          else backtrack

/-- 戻り先の型と、これまでに合った部分。戻り先から今までに `star` は無い。 -/
def Resumes (star : α) (p v : List α) : Option (List α × List α) → Prop
  | none => True
  | some (p', v') => ∃ q u, p' = q ++ p ∧ v' = u ++ v ∧ u.length = q.length ∧ star ∉ q

/-- 戻れば、より短い後半に合う。 -/
def Resumable (star any : α) : Option (List α × List α) → Prop
  | none => False
  | some (p', v') => ∃ w, w <:+ v' ∧ w.length < v'.length ∧ Wild star any p' w

/-- 残りの歩数の上限。`m` は型の長さの上限である。 -/
def wildSteps (m : Nat) (p v : List α) : Option (List α × List α) → Nat
  | none => (v.length + 1) * (m + 1) + p.length
  | some (_, v') => v'.length * (m + 1) + p.length

omit [DecidableEq α] in
/-- 新しい `star` に着けば、前の戻り先は要らない。 -/
theorem Resumable.of_star {p v : List α} {resume : Option (List α × List α)} (hne : any ≠ star)
    (h : Resumable star any resume) (hresume : Resumes star (star :: p) v resume) : Wild star any (star :: p) v := by
  cases resume with
  | none => exact absurd h id
  | some r =>
      obtain ⟨p', v'⟩ := r
      obtain ⟨q, u, rfl, rfl, hlength, hq⟩ := hresume
      obtain ⟨w, hw, hshort, hmatch⟩ := h
      obtain ⟨u', w', rfl, hlength', hmatch'⟩ := Wild.split_of_append hq hmatch
      refine hmatch'.star_of_suffix hne ?_
      have hsuffix : w' <:+ u ++ v := (List.suffix_append u' w').trans hw
      refine List.suffix_of_suffix_length_le hsuffix (List.suffix_append u v) ?_
      simp only [List.length_append] at hshort
      omega

omit [DecidableEq α] in
theorem Resumable.nil_iff {p : List α} {resume : Option (List α × List α)} (hresume : Resumes star p [] resume) :
    ¬ Resumable star any resume := by
  intro h
  cases resume with
  | none => exact h
  | some r =>
      obtain ⟨p', v'⟩ := r
      obtain ⟨q, u, rfl, rfl, hlength, hq⟩ := hresume
      obtain ⟨w, _, hshort, hmatch⟩ := h
      obtain ⟨u', w', rfl, hlength', _⟩ := Wild.split_of_append hq hmatch
      simp only [List.length_append, List.length_nil] at hshort
      omega

theorem all_star_iff (hne : any ≠ star) {p : List α} : p.all (· = star) = true ↔ Wild star any p [] := by
  induction p with
  | nil => simp [Wild.nil_iff]
  | cons c p ih =>
      by_cases hc : c = star
      · subst hc
        rw [Wild.star_iff hne]
        simp [ih]
      · simp [hc, Wild.not_cons_nil hc]

omit [DecidableEq α] in
/-- 戻った先は、`star` が 1 文字多く読み飛ばした状態である。 -/
theorem resumable_cons_iff {p v : List α} {b : α} :
    Resumable star any (some (p, b :: v)) ↔ Wild star any p v ∨ Resumable star any (some (p, v)) := by
  constructor
  · rintro ⟨w, hw, hshort, h⟩
    rcases List.suffix_cons_iff.mp hw with rfl | hw
    · exact absurd hshort (lt_irrefl _)
    · rcases hw.length_le.eq_or_lt with heq | hlt
      · obtain rfl := hw.eq_of_length heq
        exact Or.inl h
      · exact Or.inr ⟨w, hw, hlt, h⟩
  · rintro (h | ⟨w, hw, hshort, h⟩)
    · exact ⟨v, List.suffix_cons b v, by simp, h⟩
    · exact ⟨w, hw.trans (List.suffix_cons b v), by simp; omega, h⟩

omit [DecidableEq α] in
theorem wild_star_iff_resumable (hne : any ≠ star) {p v : List α} :
    Wild star any (star :: p) v ↔ Wild star any p v ∨ Resumable star any (some (p, v)) := by
  rw [Wild.star_iff hne]
  constructor
  · rintro ⟨w, hw, h⟩
    rcases hw.length_le.eq_or_lt with heq | hlt
    · obtain rfl := hw.eq_of_length heq
      exact Or.inl h
    · exact Or.inr ⟨w, hw, hlt, h⟩
  · rintro (h | ⟨w, hw, _, h⟩)
    · exact ⟨v, List.suffix_refl v, h⟩
    · exact ⟨w, hw, h⟩

omit [DecidableEq α] in
theorem Resumes.advance {p v : List α} {c b : α} {resume : Option (List α × List α)} (hc : c ≠ star)
    (h : Resumes star (c :: p) (b :: v) resume) : Resumes star p v resume := by
  cases resume with
  | none => trivial
  | some r =>
      obtain ⟨p', v'⟩ := r
      obtain ⟨q, u, rfl, rfl, hlength, hq⟩ := h
      refine ⟨q ++ [c], u ++ [b], by simp, by simp, by simp [hlength], ?_⟩
      simp [hq, hc.symm]

theorem wildLoop_iff (hne : any ≠ star) {m n : Nat} {p v : List α} {resume : Option (List α × List α)} (hp : p.length ≤ m)
    (hm : ∀ r ∈ resume, r.1.length ≤ m) (hresume : Resumes star p v resume) (hn : wildSteps m p v resume < n) :
    wildLoop star any n p v resume = true ↔ Wild star any p v ∨ Resumable star any resume := by
  induction n generalizing p v resume with
  | zero => exact absurd hn (Nat.not_lt_zero _)
  | succ n ih =>
      cases v with
      | nil => rw [wildLoop, all_star_iff hne, or_iff_left (Resumable.nil_iff hresume)]
      | cons b v =>
          have hback (hfail : ¬ Wild star any p (b :: v)) :
              (resume.any fun r => wildLoop star any n r.1 r.2.tail (some (r.1, r.2.tail))) = true ↔
                Wild star any p (b :: v) ∨ Resumable star any resume := by
            rw [or_iff_right hfail]
            cases resume with
            | none => simp [Resumable]
            | some r =>
                obtain ⟨p', v'⟩ := r
                obtain ⟨q, u, _, hv', _⟩ := hresume
                cases v' with
                | nil => simp at hv'
                | cons x v' =>
                    have hp' : p'.length ≤ m := hm (p', x :: v') rfl
                    rw [resumable_cons_iff]
                    refine ih hp' (fun r hr => by cases hr; exact hp') ⟨[], [], rfl, rfl, rfl, List.not_mem_nil⟩ ?_
                    simp only [wildSteps, List.length_cons, List.tail_cons, Nat.succ_mul] at hn ⊢
                    omega
          cases p with
          | nil =>
              rw [wildLoop]
              exact hback (by rw [Wild.nil_iff]; exact List.cons_ne_nil b v)
          | cons c p =>
              rw [wildLoop]
              by_cases hc : c = star
              · subst hc
                have hresume' : Resumes c p (b :: v) (some (p, b :: v)) := ⟨[], [], rfl, rfl, rfl, List.not_mem_nil⟩
                rw [if_pos rfl, ih (Nat.le_of_succ_le hp) ?_ hresume' ?_, ← wild_star_iff_resumable hne]
                · refine (or_iff_left_of_imp ?_).symm
                  exact fun h => h.of_star hne hresume
                · rintro r ⟨⟩
                  exact Nat.le_of_succ_le hp
                · cases resume with
                  | none =>
                      simp only [wildSteps, List.length_cons, Nat.succ_mul] at hn ⊢
                      omega
                  | some r =>
                      obtain ⟨q, u, _, hv', _⟩ := hresume
                      have hlength : (b :: v).length ≤ r.2.length := by simp [hv']
                      have hmul := Nat.mul_le_mul_right (m + 1) hlength
                      simp only [wildSteps, List.length_cons] at hn hmul ⊢
                      omega
              · rw [if_neg hc]
                by_cases hb : c = any ∨ c = b
                · rw [if_pos (by simpa using hb), ih (Nat.le_of_succ_le hp) hm (hresume.advance hc) ?_, Wild.cons_iff hc,
                    and_iff_right hb]
                  cases resume with
                  | none =>
                      simp only [wildSteps, List.length_cons, Nat.succ_mul] at hn ⊢
                      omega
                  | some r =>
                      simp only [wildSteps, List.length_cons] at hn ⊢
                      omega
                · rw [if_neg (by simpa using hb)]
                  refine hback ?_
                  rw [Wild.cons_iff hc]
                  exact fun h => hb h.1

/-- 最後の `star` に戻る反復。 -/
def wildScan (star any : α) (p v : List α) : Bool :=
  wildLoop star any (wildSteps p.length p v none + 1) p v none

theorem wildScan_iff (hne : any ≠ star) {p v : List α} : wildScan star any p v = true ↔ Wild star any p v := by
  have hresume : Resumes star p v none := trivial
  rw [wildScan, wildLoop_iff hne le_rfl (by simp) hresume (Nat.lt_succ_self _)]
  exact or_iff_left id

/-- 2 つの方法は、同じ結果になる。 -/
theorem wildScan_eq_wildRec (hne : any ≠ star) (p v : List α) : wildScan star any p v = wildRec star any p v := by
  rw [Bool.eq_iff_iff, wildScan_iff hne, wildRec_iff hne]

end IsekaiTerminal.Lib
