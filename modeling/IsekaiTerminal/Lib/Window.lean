import Mathlib

/-!
# 列の窓

長い列 `stream` のうち、位置 `start` から末尾までを保持する窓を扱う。送信済みの列の末尾を保持して
再送に備えるバッファは、末尾への追加と先頭からの破棄の後も、必ずその列の窓である。
-/

namespace IsekaiTerminal.Lib

variable {α : Type*}

/-- `data` は、`stream` の位置 `start` から末尾までの部分である。 -/
structure Window (stream data : List α) (start : Nat) : Prop where
  le_length : start ≤ stream.length
  eq_drop : data = stream.drop start

namespace Window

variable {stream data : List α} {start : Nat}

theorem nil : Window ([] : List α) [] 0 := ⟨le_rfl, rfl⟩

theorem end_eq (h : Window stream data start) : start + data.length = stream.length := by
  rw [h.eq_drop, List.length_drop]
  have := h.le_length
  omega

theorem append (h : Window stream data start) (bytes : List α) :
    Window (stream ++ bytes) (data ++ bytes) start := by
  refine ⟨h.le_length.trans (by simp), ?_⟩
  rw [h.eq_drop, List.drop_append_of_le_length h.le_length]

theorem drop (h : Window stream data start) {n : Nat} (hn : n ≤ data.length) :
    Window stream (data.drop n) (start + n) := by
  refine ⟨by have := h.end_eq; omega, ?_⟩
  rw [h.eq_drop, List.drop_drop]

/-- 窓の中の位置 `k` から先は、列の同じ位置から先である。 -/
theorem drop_sub (h : Window stream data start) {k : Nat} (hk : start ≤ k) :
    data.drop (k - start) = stream.drop k := by
  rw [h.eq_drop, List.drop_drop, Nat.add_sub_cancel' hk]

end Window

/-! ## 先頭の一致 -/

variable {xs ys zs : List α}

theorem prefix_append_drop (h : xs <+: ys) : xs ++ ys.drop xs.length = ys := by
  obtain ⟨t, rfl⟩ := h
  simp

theorem isPrefix_append_take (h : xs ++ ys <+: zs) (n : Nat) : xs ++ ys.take n <+: zs :=
  ((List.prefix_append_right_inj xs).mpr (List.take_prefix n ys)).trans h

end IsekaiTerminal.Lib
