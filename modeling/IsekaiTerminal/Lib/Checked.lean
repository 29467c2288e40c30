import Mathlib

/-!
# 範囲を検査する配列の操作

添字の範囲外の参照と、自然数の引き算の桁下がりを `none` とする。
ずらしながら写すループと、値で埋めるループについて、成功する条件と結果の列を示す。
-/

namespace IsekaiTerminal.Lib

section

variable {α : Type}

/-- `a - b`。桁下がりは失敗である。 -/
def sub? (a b : Nat) : Option Nat := if b ≤ a then some (a - b) else none

/-- `x.clamp(lo, hi)`。`lo > hi` は失敗である。 -/
def clamp? (lo hi x : Nat) : Option Nat := if lo ≤ hi then some (max lo (min x hi)) else none

/-- `l[i] = x`。 -/
def write? (l : List α) (i : Nat) (x : α) : Option (List α) := if i < l.length then some (l.set i x) else none

/-- `for i in start..start + k { l[i] = x }`。 -/
def fill? (l : List α) (start : Nat) (x : α) : Nat → Option (List α)
  | 0 => some l
  | k + 1 => (fill? l start x k).bind fun l' => write? l' (start + k) x

/-- `for i in top..top + k { l[i] = l[i + n] }`。 -/
def copyUp? (l : List α) (top n : Nat) : Nat → Option (List α)
  | 0 => some l
  | k + 1 => (copyUp? l top n k).bind fun l' => l'[top + k + n]?.bind fun x => write? l' (top + k) x

/-- `for i in (top..top + k).rev() { l[i + n] = l[i] }`。 -/
def copyDown? (l : List α) (top n : Nat) : Nat → Option (List α)
  | 0 => some l
  | k + 1 => l[top + k]?.bind fun x => (write? l (top + k + n) x).bind fun l' => copyDown? l' top n k

theorem sub?_eq_some {a b : Nat} (h : b ≤ a) : sub? a b = some (a - b) := if_pos h

theorem clamp?_eq_some {lo hi : Nat} (h : lo ≤ hi) (x : Nat) : clamp? lo hi x = some (max lo (min x hi)) := if_pos h

theorem write?_eq_some {l : List α} {i : Nat} (h : i < l.length) (x : α) : write? l i x = some (l.set i x) := if_pos h

/-! ## ループの結果 -/

/-- 列 `pre` の直後の 1 つを書き換える。 -/
theorem set_append_drop {l pre : List α} {i m : Nat} (hi : i = pre.length) (hm : m < l.length) (x : α) :
    (pre ++ l.drop m).set i x = pre ++ [x] ++ l.drop (m + 1) := by
  rw [hi, List.set_append_right _ _ le_rfl, Nat.sub_self, List.drop_eq_getElem_cons hm, List.set_cons_zero,
    List.append_assoc, List.singleton_append]

theorem take_succ_drop {l : List α} {m k : Nat} (h : m + k < l.length) :
    (l.drop m).take (k + 1) = (l.drop m).take k ++ [l[m + k]] := by
  rw [List.take_add_one, List.getElem?_drop, List.getElem?_eq_getElem h, Option.toList_some]

theorem fill?_eq {l : List α} {start k : Nat} (h : start + k ≤ l.length) (x : α) :
    fill? l start x k = some (l.take start ++ List.replicate k x ++ l.drop (start + k)) := by
  induction k with
  | zero => simp [fill?]
  | succ k ih =>
      have hlen : start + k = (l.take start ++ List.replicate k x).length := by
        rw [List.length_append, List.length_take, List.length_replicate]
        omega
      rw [fill?, ih (by omega), Option.bind_some, write?_eq_some (by simp; omega), set_append_drop hlen (by omega),
        List.replicate_succ', List.append_assoc (l.take start), Nat.add_assoc]

theorem copyUp?_eq {l : List α} {top n k : Nat} (h : top + k + n ≤ l.length) :
    copyUp? l top n k = some (l.take top ++ (l.drop (top + n)).take k ++ l.drop (top + k)) := by
  induction k with
  | zero => simp [copyUp?]
  | succ k ih =>
      have hlen : top + k = (l.take top ++ (l.drop (top + n)).take k).length := by
        rw [List.length_append, List.length_take, List.length_take, List.length_drop]
        omega
      have hlt : top + n + k < l.length := by omega
      have hread : (l.take top ++ (l.drop (top + n)).take k ++ l.drop (top + k))[top + k + n]? = some l[top + n + k] := by
        rw [List.getElem?_append_right (hlen ▸ Nat.le_add_right ..), ← hlen, List.getElem?_drop, Nat.add_sub_cancel_left,
          Nat.add_right_comm, List.getElem?_eq_getElem hlt]
      rw [copyUp?, ih (by omega), Option.bind_some, hread, Option.bind_some, write?_eq_some (by simp; omega),
        set_append_drop hlen (by omega), take_succ_drop hlt, List.append_assoc (l.take top)]
      rfl

theorem copyDown?_eq {l : List α} {top n k : Nat} (h : top + k + n ≤ l.length) :
    copyDown? l top n k = some (l.take (top + n) ++ (l.drop top).take k ++ l.drop (top + n + k)) := by
  induction k generalizing l with
  | zero => simp [copyDown?]
  | succ k ih =>
      have hlt : top + n + k < l.length := by omega
      have hread : l[top + k]? = some l[top + k] := List.getElem?_eq_getElem _
      rw [copyDown?, hread, Option.bind_some, Nat.add_right_comm, write?_eq_some hlt, Option.bind_some,
        ih (by simp; omega), List.take_set_of_le (by omega), List.drop_set, if_neg (by omega),
        List.take_set_of_le (by omega), List.drop_set, if_neg (by omega), Nat.sub_self, List.drop_eq_getElem_cons hlt,
        List.set_cons_zero, take_succ_drop (by omega), ← Nat.add_assoc]
      simp only [List.append_assoc, List.singleton_append]

end

/-!
## 列の区間のずらし

列の一部の区間だけを書き換える操作と、区間の中身を前後へずらして空いた側を埋める操作を定める。
写すループと埋めるループの組が、これらに等しいことを示す。
-/

section

variable {α : Type}

/-- 区間 `[start, stop)` だけを `f` で書き換える。 -/
def onRegion (f : List α → List α) (start stop : Nat) (l : List α) : List α :=
  l.take start ++ f ((l.take stop).drop start) ++ l.drop stop

/-- 先頭の `n` 個を捨て、末尾を `x` で埋める。 -/
def shiftUp (n : Nat) (x : α) (l : List α) : List α := l.drop n ++ List.replicate (min n l.length) x

/-- 末尾の `n` 個を捨て、先頭を `x` で埋める。 -/
def shiftDown (n : Nat) (x : α) (l : List α) : List α :=
  List.replicate (min n l.length) x ++ l.take (l.length - n)

/-! ## 長さと要素 -/

@[simp] theorem length_shiftUp (n : Nat) (x : α) (l : List α) : (shiftUp n x l).length = l.length := by
  simp [shiftUp]; omega

@[simp] theorem length_shiftDown (n : Nat) (x : α) (l : List α) : (shiftDown n x l).length = l.length := by
  simp [shiftDown]; omega

theorem mem_shiftUp {n : Nat} {x y : α} {l : List α} (h : y ∈ shiftUp n x l) : y ∈ l ∨ y = x := by
  rcases List.mem_append.mp h with h | h
  · exact .inl (List.mem_of_mem_drop h)
  · exact .inr (List.eq_of_mem_replicate h)

theorem mem_shiftDown {n : Nat} {x y : α} {l : List α} (h : y ∈ shiftDown n x l) : y ∈ l ∨ y = x := by
  rcases List.mem_append.mp h with h | h
  · exact .inr (List.eq_of_mem_replicate h)
  · exact .inl (List.mem_of_mem_take h)

theorem shiftUp_min (n : Nat) (x : α) (l : List α) : shiftUp (min n l.length) x l = shiftUp n x l := by
  rcases Nat.le_total n l.length with h | h
  · rw [Nat.min_eq_left h]
  · simp [shiftUp, Nat.min_eq_right h, List.drop_of_length_le h]

theorem shiftDown_min (n : Nat) (x : α) (l : List α) : shiftDown (min n l.length) x l = shiftDown n x l := by
  rcases Nat.le_total n l.length with h | h
  · rw [Nat.min_eq_left h]
  · simp [shiftDown, Nat.min_eq_right h, Nat.sub_eq_zero_of_le h]

@[simp] theorem shiftUp_zero (x : α) (l : List α) : shiftUp 0 x l = l := by simp [shiftUp]

@[simp] theorem shiftDown_zero (x : α) (l : List α) : shiftDown 0 x l = l := by simp [shiftDown]

theorem onRegion_eq_self {f : List α → List α} {start stop : Nat} {l : List α} (h : start ≤ stop)
    (hf : ∀ m, f m = m) : onRegion f start stop l = l := by
  rw [onRegion, hf, List.drop_take, List.append_assoc]
  conv_rhs => rw [← List.take_append_drop start l, ← List.take_append_drop (stop - start) (l.drop start)]
  rw [List.drop_drop, Nat.add_sub_cancel' h]

theorem length_region {start stop : Nat} {l : List α} (h : stop ≤ l.length) :
    ((l.take stop).drop start).length = stop - start := by
  simp; omega

theorem length_onRegion {f : List α → List α} {start stop : Nat} {l : List α}
    (hf : ∀ m, (f m).length = m.length) (h : start ≤ stop) : (onRegion f start stop l).length = l.length := by
  simp [onRegion, hf]; omega

theorem mem_onRegion {f : List α → List α} {start stop : Nat} {l : List α} {y : α}
    (h : y ∈ onRegion f start stop l) : y ∈ l ∨ y ∈ f ((l.take stop).drop start) := by
  simp only [onRegion, List.mem_append, or_assoc] at h
  rcases h with h | h | h
  · exact .inl (List.mem_of_mem_take h)
  · exact .inr h
  · exact .inl (List.mem_of_mem_drop h)

/-- 区間の外は変わらない。 -/
theorem getElem?_onRegion_of_lt {f : List α → List α} {start stop : Nat} {l : List α} {i : Nat} (hi : i < start)
    (hl : start ≤ l.length) : (onRegion f start stop l)[i]? = l[i]? := by
  rw [onRegion, List.append_assoc, List.getElem?_append_left (by simp; omega), List.getElem?_take_of_lt hi]

/-! ## ループとの一致 -/

theorem drop_region {l : List α} {start size n : Nat} :
    ((l.take (start + size)).drop start).drop n = (l.drop (start + n)).take (size - n) := by
  rw [List.drop_drop, List.drop_take, Nat.add_sub_add_left]

theorem copyUp?_fill? {l : List α} {start size n : Nat} (hn : n ≤ size) (h : start + size ≤ l.length) (x : α) :
    (copyUp? l start n (size - n)).bind (fun l' => fill? l' (start + (size - n)) x n) =
      some (onRegion (shiftUp n x) start (start + size) l) := by
  have hlen : (l.take start ++ (l.drop (start + n)).take (size - n)).length = start + (size - n) := by
    rw [List.length_append, List.length_take, List.length_take, List.length_drop]
    omega
  have hrest : (l.take start ++ (l.drop (start + n)).take (size - n) ++ l.drop (start + (size - n))).drop
      (start + (size - n) + n) = l.drop (start + size) := by
    rw [List.drop_append, List.drop_of_length_le (by omega), List.nil_append, hlen, Nat.add_sub_cancel_left, List.drop_drop,
      Nat.add_assoc, Nat.sub_add_cancel hn]
  rw [copyUp?_eq (by omega), Option.bind_some, fill?_eq (by simp; omega), List.take_left' hlen, hrest, onRegion, shiftUp,
    drop_region, length_region h, Nat.add_sub_cancel_left, Nat.min_eq_left hn]
  simp only [List.append_assoc]

theorem copyDown?_fill? {l : List α} {start size n : Nat} (hn : n ≤ size) (h : start + size ≤ l.length) (x : α) :
    (copyDown? l start n (size - n)).bind (fun l' => fill? l' start x n) =
      some (onRegion (shiftDown n x) start (start + size) l) := by
  have hlen : (l.take (start + n)).length = start + n := by
    rw [List.length_take]
    omega
  have hle : start ≤ (l.take (start + n)).length := by omega
  rw [copyDown?_eq (by omega), Option.bind_some, fill?_eq (by simp; omega), List.append_assoc (l.take (start + n)),
    List.take_append_of_le_length hle, List.take_take, Nat.min_eq_left (Nat.le_add_right ..), List.drop_left' hlen,
    Nat.add_assoc, Nat.add_sub_cancel' hn, onRegion, shiftDown, length_region h, Nat.add_sub_cancel_left,
    Nat.min_eq_left hn, List.drop_take, List.take_take, Nat.add_sub_cancel_left, Nat.min_eq_left (Nat.sub_le ..)]
  simp only [List.append_assoc]

/-- 区間の幅に収めた個数だけずらす。全体をずらすときは、写すループを省く。 -/
theorem shiftUp?_eq (l : List α) (start size : Nat) (h : start + size ≤ l.length) (n : Nat) (x : α) :
    (if min n size < size then copyUp? l start (min n size) (size - min n size) else some l).bind
        (fun l' => fill? l' (start + (size - min n size)) x (min n size)) =
      some (onRegion (shiftUp n x) start (start + size) l) := by
  have hloop : (if min n size < size then copyUp? l start (min n size) (size - min n size) else some l) =
      copyUp? l start (min n size) (size - min n size) := by
    split
    · rfl
    · rw [show size - min n size = 0 by omega, copyUp?]
  have hsize : ((l.take (start + size)).drop start).length = size := by rw [length_region h, Nat.add_sub_cancel_left]
  rw [hloop, copyUp?_fill? (Nat.min_le_right ..) h, onRegion, onRegion, ← shiftUp_min n, hsize]

theorem shiftDown?_eq (l : List α) (start size : Nat) (h : start + size ≤ l.length) (n : Nat) (x : α) :
    (if min n size < size then copyDown? l start (min n size) (size - min n size) else some l).bind
        (fun l' => fill? l' start x (min n size)) =
      some (onRegion (shiftDown n x) start (start + size) l) := by
  have hloop : (if min n size < size then copyDown? l start (min n size) (size - min n size) else some l) =
      copyDown? l start (min n size) (size - min n size) := by
    split
    · rfl
    · rw [show size - min n size = 0 by omega, copyDown?]
  have hsize : ((l.take (start + size)).drop start).length = size := by rw [length_region h, Nat.add_sub_cancel_left]
  rw [hloop, copyDown?_fill? (Nat.min_le_right ..) h, onRegion, onRegion, ← shiftDown_min n, hsize]

theorem fill?_eq_onRegion {l : List α} {start n : Nat} (h : start + n ≤ l.length) (x : α) :
    fill? l start x n = some (onRegion (fun m => List.replicate m.length x) start (start + n) l) := by
  rw [fill?_eq h, onRegion]
  rw [length_region h, Nat.add_sub_cancel_left]

end

end IsekaiTerminal.Lib
