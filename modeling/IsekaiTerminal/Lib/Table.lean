import Mathlib

/-!
# 追記と上書きの表

番号で引く表 `l : List α` への追記と、番号 `i` の上書きについて、引いた値と、条件を満たす要素の数を求める。
-/

namespace IsekaiTerminal.Lib

section

variable {α : Type*} {l : List α} {i j : Nat} {a b : α}

theorem getElem?_set_cases (h : (l.set i b)[j]? = some a) : j = i ∧ a = b ∨ j ≠ i ∧ l[j]? = some a := by
  rw [List.getElem?_set] at h
  split at h
  · rename_i hij
    split at h
    · exact Or.inl ⟨hij.symm, (Option.some.inj h).symm⟩
    · cases h
  · rename_i hij
    exact Or.inr ⟨Ne.symm hij, h⟩

theorem getElem?_concat_cases (h : (l ++ [b])[j]? = some a) : l[j]? = some a ∨ j = l.length ∧ a = b := by
  rw [List.getElem?_append] at h
  split at h
  · exact Or.inl h
  · rename_i hlen
    obtain ⟨hz, heq⟩ := List.getElem?_eq_some_iff.mp h
    rw [List.getElem_singleton] at heq
    rw [List.length_singleton] at hz
    exact Or.inr ⟨by omega, heq.symm⟩

theorem getElem?_set_self_of_some (h : l[i]? = some a) : (l.set i b)[i]? = some b :=
  List.getElem?_set_self (List.getElem?_eq_some_iff.mp h).1

theorem getElem?_concat_of_some (h : l[i]? = some a) : (l ++ [b])[i]? = some a :=
  (List.getElem?_append_left (List.getElem?_eq_some_iff.mp h).1).trans h

theorem countP_set_add (p : α → Bool) (h : l[i]? = some a) :
    (l.set i b).countP p + (p a).toNat = l.countP p + (p b).toNat := by
  induction l generalizing i with
  | nil => cases h
  | cons x l ih =>
      cases i with
      | zero =>
          obtain rfl := Option.some.inj h
          simp only [List.set_cons_zero, List.countP_cons]
          cases p x <;> cases p b <;> simp
      | succ i =>
          have hrest := ih (i := i) h
          simp only [List.set_cons_succ, List.countP_cons]
          omega

theorem sum_map_set_add (f : α → Nat) (h : l[i]? = some a) :
    ((l.set i b).map f).sum + f a = (l.map f).sum + f b := by
  induction l generalizing i with
  | nil => cases h
  | cons x l ih =>
      cases i with
      | zero =>
          obtain rfl := Option.some.inj h
          simp only [List.set_cons_zero, List.map_cons, List.sum_cons]
          omega
      | succ i =>
          have hrest := ih (i := i) h
          simp only [List.set_cons_succ, List.map_cons, List.sum_cons]
          omega

theorem countP_set_of_eq {p : α → Bool} (h : l[i]? = some a) (hp : p b = p a) :
    (l.set i b).countP p = l.countP p := by
  have hadd := countP_set_add (b := b) p h
  rw [hp] at hadd
  omega

theorem countP_pos_of_getElem? {p : α → Bool} (h : l[i]? = some a) (hp : p a) : 0 < l.countP p :=
  List.countP_pos_iff.mpr ⟨a, List.mem_of_getElem? h, hp⟩

/-- 条件を満たす要素の番号が 1 つに決まれば、その数は高々 1 である。 -/
theorem countP_le_one {p : α → Bool}
    (h : ∀ (i j : Nat) (a b : α), l[i]? = some a → l[j]? = some b → p a → p b → i = j) :
    l.countP p ≤ 1 := by
  induction l with
  | nil => simp
  | cons x l ih =>
      have hl : l.countP p ≤ 1 := by
        refine ih fun i j a b ha hb hpa hpb => ?_
        have hsucc := h (i + 1) (j + 1) a b ha hb hpa hpb
        omega
      rw [List.countP_cons]
      split
      · rename_i hx
        have hzero : l.countP p = 0 := by
          refine List.countP_eq_zero.mpr fun y hy hpy => ?_
          obtain ⟨j, hj⟩ := List.getElem?_of_mem hy
          have hsucc := h 0 (j + 1) x y rfl hj hx hpy
          omega
        omega
      · omega

end

section

open Std

/-!
## 順序付きの表の補題

`Std.ExtTreeMap` の検索を、鍵の比較ではなく鍵の等しさで述べる。あわせて、鍵の包含と大きさの関係を示す。
-/

variable {κ β γ : Type*} [Ord κ] [TransOrd κ] [LawfulEqOrd κ]

theorem getElem?_insert_eq [DecidableEq κ] (t : ExtTreeMap κ β) (a k : κ) (v : β) :
    (t.insert k v)[a]? = if a = k then some v else t[a]? := by
  rw [ExtTreeMap.getElem?_insert]
  exact if_congr (Std.compare_eq_iff_eq.trans eq_comm) rfl rfl

theorem getElem?_erase_eq [DecidableEq κ] (t : ExtTreeMap κ β) (a k : κ) :
    (t.erase k)[a]? = if a = k then none else t[a]? := by
  rw [ExtTreeMap.getElem?_erase]
  exact if_congr (Std.compare_eq_iff_eq.trans eq_comm) rfl rfl

theorem size_le_of_subset (t : ExtTreeMap κ β) (u : ExtTreeMap κ γ) (h : ∀ k, k ∈ t → k ∈ u) :
    t.size ≤ u.size := by
  rw [← ExtTreeMap.length_keys, ← ExtTreeMap.length_keys]
  refine (List.subperm_of_subset ExtTreeMap.nodup_keys ?_).length_le
  intro k hk
  exact ExtTreeMap.mem_keys.mpr (h k (ExtTreeMap.mem_keys.mp hk))

end

/-!
## 鍵と値の組の列

鍵の重ならない組の列を、表として引く。
-/

section

variable {κ β : Type*} [DecidableEq κ]

/-- 鍵 `k` の値。 -/
def assoc? (l : List (κ × β)) (k : κ) : Option β := (l.find? fun e => e.1 = k).map Prod.snd

theorem assoc?_cons (e : κ × β) (l : List (κ × β)) (k : κ) :
    assoc? (e :: l) k = if e.1 = k then some e.2 else assoc? l k := by
  rw [assoc?, List.find?_cons]
  by_cases h : e.1 = k
  · simp only [h, decide_true, Option.map_some, ↓reduceIte]
  · simp only [h, decide_false, ↓reduceIte, assoc?]

theorem assoc?_eq_none_iff {l : List (κ × β)} {k : κ} : assoc? l k = none ↔ k ∉ l.map Prod.fst := by
  simp only [assoc?, Option.map_eq_none_iff, List.find?_eq_none, decide_eq_true_eq, List.mem_map, not_exists, not_and]

theorem mem_of_assoc?_eq_some {l : List (κ × β)} {k : κ} {v : β} (h : assoc? l k = some v) : (k, v) ∈ l := by
  obtain ⟨e, he, rfl⟩ := Option.map_eq_some_iff.1 h
  have hk := List.find?_some he
  rw [decide_eq_true_eq] at hk
  rw [← hk]
  exact List.mem_of_find?_eq_some he

theorem assoc?_eq_some_of_mem {l : List (κ × β)} (hnodup : (l.map Prod.fst).Nodup) {k : κ} {v : β} (h : (k, v) ∈ l) :
    assoc? l k = some v := by
  induction l with
  | nil => cases h
  | cons e l ih =>
      obtain ⟨hfresh, hrest⟩ := List.nodup_cons.1 hnodup
      rw [assoc?_cons]
      obtain rfl | h := List.mem_cons.1 h
      · rw [if_pos rfl]
      · rw [if_neg, ih hrest h]
        rintro rfl
        exact hfresh (List.mem_map.2 ⟨_, h, rfl⟩)

/-- 鍵 `k` の値だけを置き換える。 -/
theorem assoc?_map_replace (l : List (κ × β)) (k k' : κ) (v : β) :
    assoc? (l.map fun e => if e.1 = k then (e.1, v) else e) k' =
      if k' = k then (assoc? l k).map fun _ => v else assoc? l k' := by
  induction l with
  | nil => split <;> rfl
  | cons e l ih =>
      rw [List.map_cons, assoc?_cons, assoc?_cons, assoc?_cons, ih]
      by_cases hek : e.1 = k
      · by_cases hk : k' = k
        · simp only [hek, hk, ↓reduceIte, Option.map_some]
        · simp only [hek, hk, ↓reduceIte, Ne.symm hk]
      · by_cases hk : k' = k
        · simp only [hek, hk, ↓reduceIte]
        · simp only [hek, hk, ↓reduceIte]

theorem assoc?_concat {l : List (κ × β)} {k : κ} (h : assoc? l k = none) (k' : κ) (v : β) :
    assoc? (l ++ [(k, v)]) k' = if k' = k then some v else assoc? l k' := by
  induction l with
  | nil =>
      rw [List.nil_append, assoc?_cons]
      exact if_congr eq_comm rfl rfl
  | cons e l ih =>
      rw [assoc?_cons] at h
      split at h
      · cases h
      · rename_i hek
        rw [List.cons_append, assoc?_cons, assoc?_cons, ih h]
        by_cases hk : k' = k
        · simp only [hk, hek, ↓reduceIte]
        · simp only [hk, ↓reduceIte]

theorem assoc?_filter {l : List (κ × β)} (hnodup : (l.map Prod.fst).Nodup) (p : κ × β → Bool) (k : κ) :
    assoc? (l.filter p) k = (assoc? l k).filter fun v => p (k, v) := by
  induction l with
  | nil => rfl
  | cons e l ih =>
      obtain ⟨hfresh, hrest⟩ := List.nodup_cons.1 hnodup
      rw [List.filter_cons, assoc?_cons]
      by_cases hek : e.1 = k
      · subst hek
        rw [if_pos rfl]
        have hnone : assoc? l e.1 = none := assoc?_eq_none_iff.2 hfresh
        split
        · rename_i hp
          rw [assoc?_cons, if_pos rfl, Option.filter_some, if_pos hp]
        · rename_i hp
          rw [ih hrest, hnone, Option.filter_some, if_neg hp]
          rfl
      · rw [if_neg hek]
        split
        · rw [assoc?_cons, if_neg hek, ih hrest]
        · exact ih hrest

end

end IsekaiTerminal.Lib
