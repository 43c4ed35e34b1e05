/-
Letters and digits of ASCII by their numbers, and names compared through letter case: `sameName` is
equality of the texts in lower case.
-/
import PolicyClient.Text.Blank
import Mathlib

namespace PolicyClient.Text

/-! ## Letters and digits -/

theorem isUpper_iff {c : Char} : c.isUpper = true ↔ 65 ≤ c.toNat ∧ c.toNat ≤ 90 := by
  simp [Char.isUpper, UInt32.le_iff_toNat_le, ← Char.toNat_val]

theorem isLower_iff {c : Char} : c.isLower = true ↔ 97 ≤ c.toNat ∧ c.toNat ≤ 122 := by
  simp [Char.isLower, UInt32.le_iff_toNat_le, ← Char.toNat_val]

theorem isDigit_iff {c : Char} : c.isDigit = true ↔ 48 ≤ c.toNat ∧ c.toNat ≤ 57 := by
  simp [Char.isDigit, UInt32.le_iff_toNat_le, ← Char.toNat_val]

theorem toNat_of_isAlphanum {c : Char} (h : c.isAlphanum = true) :
    48 ≤ c.toNat ∧ c.toNat ≤ 57 ∨ 65 ≤ c.toNat ∧ c.toNat ≤ 90 ∨ 97 ≤ c.toNat ∧ c.toNat ≤ 122 := by
  simp only [Char.isAlphanum, Char.isAlpha, Bool.or_eq_true, isUpper_iff, isLower_iff,
    isDigit_iff] at h
  omega

theorem isAlphanum_toLower (c : Char) : c.toLower.isAlphanum = c.isAlphanum := by
  by_cases h : c.isUpper = true
  · have halpha : c.isAlpha = true := by rw [Char.isAlpha, h, Bool.true_or]
    rw [Char.isAlphanum, Char.isAlphanum, Char.isAlpha_toLower_eq_isAlpha, halpha, Bool.true_or,
      Bool.true_or]
  · rw [Char.toLower_eq_of_not_isUpper h]

/-- Only a letter in upper case is not its own lower case. -/
theorem eq_or_of_toLower {c d : Char} (h : c.toLower = d) :
    c = d ∨ 97 ≤ d.toNat ∧ d.toNat ≤ 122 ∧ c = Char.ofNat (d.toNat - 32) := by
  by_cases hc : c.isUpper = true
  · have hbounds := isUpper_iff.1 hc
    have hd : d.toNat = c.toNat + 32 := by
      rw [← h, Char.toLower_eq_of_isUpper hc, Char.toNat_ofNat, if_pos (.inl (by omega))]
    refine .inr ⟨by omega, by omega, ?_⟩
    rw [hd, Nat.add_sub_cancel, Char.ofNat_toNat]
  · rw [Char.toLower_eq_of_not_isUpper hc] at h
    exact .inl h

/-! ## Letter case -/

theorem sameName_refl (a : String) : sameName a a = true := beq_self_eq_true _

theorem sameName_iff {a b : String} :
    sameName a b = true ↔ a.toList.map Char.toLower = b.toList.map Char.toLower := beq_iff_eq

theorem sameName_congr_left {a b : String} (h : sameName a b = true) (c : String) :
    sameName a c = sameName b c := by
  unfold sameName
  rw [sameName_iff.1 h]

theorem sameName_trans {a b c : String} (hab : sameName a b = true)
    (hbc : sameName b c = true) : sameName a c = true := by
  rw [sameName_congr_left hab, hbc]

theorem sameName_comm (a b : String) : sameName a b = sameName b a := Bool.beq_comm

end PolicyClient.Text
