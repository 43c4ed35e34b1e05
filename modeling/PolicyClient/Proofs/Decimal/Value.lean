/-
The rational number that a decimal stands for, and the order of decimals as the order of those
numbers (`compare_compares`). Two positive magnitudes are ordered by the position of their first
digit, which bounds each of them by powers of ten; where it is the same, both are scaled by one power
of ten that makes them whole.
-/
import PolicyClient.Proofs.Decimal.Digits

namespace PolicyClient.Decimal

/-- The number `unscaled · 10 ^ (-scale)`. -/
def value (d : Decimal) : ℚ := d.unscaled * (10 : ℚ) ^ (-d.scale)

/-- The number of a natural number and a scale. -/
def magnitude (n : Nat) (scale : Int) : ℚ := n * (10 : ℚ) ^ (-scale)

theorem ten_zpow_pos (n : Int) : (0 : ℚ) < (10 : ℚ) ^ n := zpow_pos (by norm_num) n

theorem magnitude_pos {n : Nat} (hn : 0 < n) (scale : Int) : 0 < magnitude n scale :=
  mul_pos (by exact_mod_cast hn) (ten_zpow_pos _)

theorem value_of_nonneg {d : Decimal} (h : 0 ≤ d.unscaled) :
    d.value = magnitude d.unscaled.natAbs d.scale := by
  have habs : (d.unscaled.natAbs : Int) = d.unscaled := Int.natAbs_of_nonneg h
  unfold value magnitude
  rw [← Int.cast_natCast d.unscaled.natAbs, habs]

theorem value_of_nonpos {d : Decimal} (h : d.unscaled ≤ 0) :
    d.value = -magnitude d.unscaled.natAbs d.scale := by
  have habs : (d.unscaled.natAbs : Int) = -d.unscaled := Int.ofNat_natAbs_of_nonpos h
  unfold value magnitude
  rw [← Int.cast_natCast d.unscaled.natAbs, habs, Int.cast_neg, neg_mul, neg_neg]

/-! ## Magnitudes -/

/-- The position of the first digit bounds a magnitude. -/
theorem magnitude_bounds {n : Nat} (hn : 0 < n) (scale : Int) :
    (10 : ℚ) ^ ((digitsOf n).length - scale - 1) ≤ magnitude n scale ∧
      magnitude n scale < (10 : ℚ) ^ ((digitsOf n).length - scale) := by
  have hpos : 0 < (digitsOf n).length := Nat.length_toDigits_pos
  have hlow : (10 : ℚ) ^ (((digitsOf n).length : Int) - 1) ≤ n := by
    have := pow_length_le hn
    rw [show ((digitsOf n).length : Int) - 1 = (((digitsOf n).length - 1 : Nat) : Int) by omega,
      zpow_natCast]
    exact_mod_cast this
  have hhigh : (n : ℚ) < (10 : ℚ) ^ ((digitsOf n).length : Int) := by
    rw [zpow_natCast]; exact_mod_cast lt_pow_length n
  unfold magnitude
  constructor
  · rw [show ((digitsOf n).length : Int) - scale - 1 = ((digitsOf n).length - 1) + -scale by ring,
      zpow_add₀ (by norm_num)]
    exact mul_le_mul_of_nonneg_right hlow (ten_zpow_pos _).le
  · rw [sub_eq_add_neg, zpow_add₀ (by norm_num)]
    exact mul_lt_mul_of_pos_right hhigh (ten_zpow_pos _)

theorem magnitude_lt_of_first_lt {a b : Nat} {s t : Int} (ha : 0 < a) (hb : 0 < b)
    (h : ((digitsOf a).length : Int) - s < (digitsOf b).length - t) : magnitude a s < magnitude b t :=
  calc magnitude a s < (10 : ℚ) ^ ((digitsOf a).length - s) := (magnitude_bounds ha s).2
    _ ≤ (10 : ℚ) ^ ((digitsOf b).length - t - 1) := zpow_le_zpow_right₀ (by norm_num) (by omega)
    _ ≤ magnitude b t := (magnitude_bounds hb t).1

theorem tenPow_eq (n : Nat) : tenPow n = 10 ^ n := rfl

/-- A magnitude, scaled by the greater of two powers of ten, is whole. -/
theorem magnitude_scaled (n : Nat) (s t : Int) :
    magnitude n s * (10 : ℚ) ^ max s t = (n * tenPow (t - s).toNat : ℕ) := by
  unfold magnitude
  have hpow : (10 : ℚ) ^ (-s) * (10 : ℚ) ^ max s t = (10 : ℚ) ^ (t - s).toNat := by
    rw [← zpow_add₀ (by norm_num), ← zpow_natCast]
    congr 1; omega
  rw [mul_assoc, hpow, tenPow_eq]
  push_cast
  rfl

theorem compareMagnitude_compares {a b : Nat} {s t : Int} (ha : 0 < a) (hb : 0 < b) :
    (compareMagnitude a s b t).Compares (magnitude a s) (magnitude b t) := by
  unfold compareMagnitude
  dsimp only
  rcases lt_trichotomy (((digitsOf a).length : Int) - s) ((digitsOf b).length - t) with h | h | h
  · rw [compare_lt_iff_lt.2 h]
    exact magnitude_lt_of_first_lt ha hb h
  · rw [compare_eq_iff_eq.2 h]
    -- the first digits stand at one place, so both numbers are compared after one scaling
    have hD := ten_zpow_pos (max s t)
    have ka := magnitude_scaled a s t
    have kb := magnitude_scaled b t s
    rw [max_comm t s] at kb
    generalize a * tenPow (t - s).toNat = A at ka ⊢
    generalize b * tenPow (s - t).toNat = B at kb ⊢
    rcases lt_trichotomy A B with hAB | hAB | hAB
    · rw [compare_lt_iff_lt.2 hAB]
      show magnitude a s < magnitude b t
      rw [← mul_lt_mul_iff_of_pos_right hD, ka, kb]; exact_mod_cast hAB
    · rw [compare_eq_iff_eq.2 hAB]
      show magnitude a s = magnitude b t
      rw [← mul_left_inj' hD.ne', ka, kb, hAB]
    · rw [compare_gt_iff_gt.2 hAB]
      show magnitude b t < magnitude a s
      rw [← mul_lt_mul_iff_of_pos_right hD, ka, kb]; exact_mod_cast hAB
  · rw [compare_gt_iff_gt.2 h]
    exact magnitude_lt_of_first_lt hb ha h

/-! ## The order -/

theorem value_neg {d : Decimal} (h : d.unscaled < 0) : d.value < 0 := by
  rw [value_of_nonpos h.le, neg_lt_zero]
  exact magnitude_pos (by omega) _

theorem value_zero {d : Decimal} (h : d.unscaled = 0) : d.value = 0 := by
  unfold value; rw [h, Int.cast_zero, zero_mul]

theorem value_pos {d : Decimal} (h : 0 < d.unscaled) : 0 < d.value := by
  rw [value_of_nonneg h.le]
  exact magnitude_pos (by omega) _

/-- Decimals are ordered as the numbers that they stand for. -/
theorem compare_compares (x y : Decimal) : (x.compare y).Compares x.value y.value := by
  unfold Decimal.compare
  -- the signs decide unless they are the same; below zero the greater magnitude is the less
  rcases lt_trichotomy x.unscaled 0 with hx | hx | hx <;>
    rcases lt_trichotomy y.unscaled 0 with hy | hy | hy
  · rw [Int.sign_eq_neg_one_of_neg hx, Int.sign_eq_neg_one_of_neg hy, compare_eq_iff_eq.2 rfl]
    dsimp only
    rw [if_neg (by omega), if_neg (by omega), value_of_nonpos hx.le, value_of_nonpos hy.le]
    have := compareMagnitude_compares (a := y.unscaled.natAbs) (s := y.scale)
      (b := x.unscaled.natAbs) (t := x.scale) (by omega) (by omega)
    generalize compareMagnitude _ _ _ _ = o at this ⊢
    cases o
    · exact neg_lt_neg this
    · exact congrArg Neg.neg this.symm
    · exact neg_lt_neg this
  · rw [Int.sign_eq_neg_one_of_neg hx, hy, value_zero hy]; exact value_neg hx
  · rw [Int.sign_eq_neg_one_of_neg hx, Int.sign_eq_one_of_pos hy]
    exact (value_neg hx).trans (value_pos hy)
  · rw [Int.sign_eq_neg_one_of_neg hy, hx, value_zero hx]; exact value_neg hy
  · rw [hx, hy, value_zero hx, value_zero hy]; rfl
  · rw [Int.sign_eq_one_of_pos hy, hx, value_zero hx]; exact value_pos hy
  · rw [Int.sign_eq_one_of_pos hx, Int.sign_eq_neg_one_of_neg hy]
    exact (value_neg hy).trans (value_pos hx)
  · rw [Int.sign_eq_one_of_pos hx, hy, value_zero hy]; exact value_pos hx
  · rw [Int.sign_eq_one_of_pos hx, Int.sign_eq_one_of_pos hy, compare_eq_iff_eq.2 rfl]
    dsimp only
    rw [if_neg (by omega), if_pos hx, value_of_nonneg hx.le, value_of_nonneg hy.le]
    exact compareMagnitude_compares (by omega) (by omega)

/-- Decimals are equal exactly when they stand for one number. -/
theorem same_iff (x y : Decimal) : x.same y = true ↔ x.value = y.value := by
  unfold same
  rw [beq_iff_eq]
  exact (compare_compares x y).eq_eq

end PolicyClient.Decimal
