import Mathlib

/-!
# 飽和演算

幅 `w` ビットの符号なし整数の飽和加算と飽和乗算を自然数の上で定め、`UInt64` の飽和演算を自然数の演算に結びつける。
-/

namespace IsekaiTerminal.Lib

/-- 幅 `w` ビットの最大値。 -/
def maxOf (w : Nat) : Nat := 2 ^ w - 1

def satAdd (w a b : Nat) : Nat := min (a + b) (maxOf w)

def satMul (w a b : Nat) : Nat := min (a * b) (maxOf w)

theorem satAdd_eq_add {w a b : Nat} (h : a + b ≤ maxOf w) : satAdd w a b = a + b := min_eq_left h

theorem satAdd_le_maxOf (w a b : Nat) : satAdd w a b ≤ maxOf w := min_le_right _ _

theorem satAdd_mono {w a b b' : Nat} (h : b ≤ b') : satAdd w a b ≤ satAdd w a b' :=
  min_le_min_right _ (Nat.add_le_add_left h a)

theorem satAdd_eq_add_of_lt {w a b : Nat} (h : satAdd w a b < maxOf w) : satAdd w a b = a + b :=
  min_eq_left (le_of_not_gt fun hlt => (min_eq_right hlt.le ▸ h).false)

/-- 1 ずつ数えた飽和する計数は、数の上限への切り詰めである。 -/
theorem satAdd_min_one (w n : Nat) : satAdd w (min n (maxOf w)) 1 = min (n + 1) (maxOf w) := by
  simp only [satAdd]
  omega

/-! ## 64 ビットの語 -/

def saturatingAdd (a b : UInt64) : UInt64 :=
  if a.toNat + b.toNat ≤ maxOf 64 then a + b else UInt64.ofNat (maxOf 64)

def saturatingSub (a b : UInt64) : UInt64 := if b ≤ a then a - b else 0

theorem toNat_saturatingAdd (a b : UInt64) : (saturatingAdd a b).toNat = satAdd 64 a.toNat b.toNat := by
  unfold saturatingAdd satAdd
  split
  · rename_i h
    rw [UInt64.toNat_add, min_eq_left h, Nat.mod_eq_of_lt]
    exact Nat.lt_of_le_of_lt h (by decide)
  · rename_i h
    rw [min_eq_right (le_of_not_ge h)]
    decide

theorem toNat_saturatingSub (a b : UInt64) : (saturatingSub a b).toNat = a.toNat - b.toNat := by
  unfold saturatingSub
  split
  · rename_i h
    exact UInt64.toNat_sub_of_le _ _ h
  · rename_i h
    rw [UInt64.le_iff_toNat_le] at h
    exact (Nat.sub_eq_zero_of_le (le_of_not_ge h)).symm

theorem toNat_min (a b : UInt64) : (min a b).toNat = min a.toNat b.toNat := by
  change (if a ≤ b then a else b).toNat = _
  by_cases h : a ≤ b
  · rw [if_pos h, min_eq_left (UInt64.le_iff_toNat_le.mp h)]
  · rw [if_neg h, min_eq_right (UInt64.le_iff_toNat_le.not.mp h |> le_of_not_ge)]

theorem toNat_max (a b : UInt64) : (max a b).toNat = max a.toNat b.toNat := by
  change (if a ≤ b then b else a).toNat = _
  by_cases h : a ≤ b
  · rw [if_pos h, max_eq_right (UInt64.le_iff_toNat_le.mp h)]
  · rw [if_neg h, max_eq_left (UInt64.le_iff_toNat_le.not.mp h |> le_of_not_ge)]

end IsekaiTerminal.Lib
