/-
What doubles are worth. The bits of a magnitude stand for a fraction of natural numbers (`toRatio`);
as a rational number it is zero only for no bits at all (`value_eq_zero_iff`), and those of one are
the last that it does not exceed (`value_le_one_iff`).
-/
import PolicyClient.Decimal.Double
import Mathlib

namespace PolicyClient.Double

/-- The number that the bits of a magnitude stand for. -/
def value (bits : Nat) : ℚ :=
  (toRatio bits).1 / (toRatio bits).2

theorem hiddenBit_eq : hiddenBit = 2 ^ 52 := rfl

theorem hiddenBit_le_shift {n : Nat} (h : 52 ≤ n) : hiddenBit ≤ 1 <<< n := by
  rw [hiddenBit_eq, Nat.one_shiftLeft]
  exact Nat.pow_le_pow_right (by decide) h

/-- Below the hidden bit the exponent is the least one. -/
theorem toRatio_of_lt {bits : Nat} (h : bits < hiddenBit) : toRatio bits = (bits, 1 <<< 1074) :=
  if_pos h

/-- From the hidden bit on, the exponent is what stands above the stored bits. -/
theorem toRatio_of_le {bits : Nat} (h : hiddenBit ≤ bits) :
    toRatio bits = ((bits % hiddenBit + hiddenBit) * 2 ^ (bits / hiddenBit - 1075),
      2 ^ (1075 - bits / hiddenBit)) := by
  have hup : ((bits / hiddenBit : Nat) - 1075 : Int).toNat = bits / hiddenBit - 1075 := by omega
  have hdown : (-((bits / hiddenBit : Nat) - 1075 : Int)).toNat = 1075 - bits / hiddenBit := by omega
  unfold toRatio
  rw [if_neg (Nat.not_lt.2 h)]
  simp only [hup, hdown, Nat.shiftLeft_eq, one_mul]

theorem toRatio_pos (bits : Nat) : 0 < (toRatio bits).2 := by
  rcases Nat.lt_or_ge bits hiddenBit with h | h
  · rw [toRatio_of_lt h, Nat.one_shiftLeft]; positivity
  · rw [toRatio_of_le h]; positivity

theorem value_nonneg (bits : Nat) : 0 ≤ value bits := by
  unfold value; positivity

theorem value_eq_zero_iff {bits : Nat} : value bits = 0 ↔ bits = 0 := by
  have hden : ((toRatio bits).2 : ℚ) ≠ 0 := by exact_mod_cast (toRatio_pos bits).ne'
  unfold value
  rw [div_eq_zero_iff, or_iff_left hden, Nat.cast_eq_zero]
  rcases Nat.lt_or_ge bits hiddenBit with h | h
  · rw [toRatio_of_lt h]
  · rw [toRatio_of_le h]
    have hnum : 0 < (bits % hiddenBit + hiddenBit) * 2 ^ (bits / hiddenBit - 1075) :=
      Nat.mul_pos (by rw [hiddenBit_eq]; omega) (by positivity)
    rw [hiddenBit_eq] at h
    exact iff_of_false hnum.ne' (by omega)

/-- The bits up to those of one, and only these, stand for numbers up to one. -/
theorem value_le_one_iff {bits : Nat} : value bits ≤ 1 ↔ bits ≤ 0x3FF0000000000000 := by
  have hden : (0 : ℚ) < (toRatio bits).2 := by exact_mod_cast toRatio_pos bits
  unfold value
  rw [div_le_one hden, Nat.cast_le]
  rcases Nat.lt_or_ge bits hiddenBit with h | h
  · rw [toRatio_of_lt h]
    refine iff_of_true (h.le.trans (hiddenBit_le_shift (by decide))) ?_
    rw [hiddenBit_eq] at h
    omega
  · rw [toRatio_of_le h, hiddenBit_eq]
    have hbits : bits = 2 ^ 52 * (bits / 2 ^ 52) + bits % 2 ^ 52 := (Nat.div_add_mod _ _).symm
    have hstored : bits % 2 ^ 52 < 2 ^ 52 := Nat.mod_lt _ (by decide)
    generalize bits / 2 ^ 52 = exponent at *
    generalize bits % 2 ^ 52 = stored at *
    rcases Nat.lt_trichotomy exponent 1023 with hexponent | rfl | hexponent
    · have hpow : (2 : Nat) ^ 53 ≤ 2 ^ (1075 - exponent) :=
        Nat.pow_le_pow_right (by decide) (by omega)
      rw [Nat.sub_eq_zero_of_le (by omega : exponent ≤ 1075), Nat.pow_zero, Nat.mul_one]
      exact iff_of_true (by omega) (by omega)
    · show (stored + 2 ^ 52) * 1 ≤ 2 ^ 52 ↔ _
      omega
    · have hpow : (2 : Nat) ^ (1075 - exponent) ≤ 2 ^ 51 :=
        Nat.pow_le_pow_right (by decide) (by omega)
      have hnum : stored + 2 ^ 52 ≤ (stored + 2 ^ 52) * 2 ^ (exponent - 1075) :=
        Nat.le_mul_of_pos_right _ (by positivity)
      exact iff_of_false (by omega) (by omega)

end PolicyClient.Double
