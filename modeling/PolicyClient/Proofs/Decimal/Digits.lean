/-
Digits and the numbers they spell. A natural number and its digits determine each other as long as
a zero in front stands alone; appending digits shifts the value by a power of ten, and the number
of digits is the power of ten above the value.
-/
import PolicyClient.Document.Numeral
import Mathlib.Tactic

namespace PolicyClient

namespace Numeral

/-! ## Values -/

theorem valueOf_concat (ds : List Digit) (d : Digit) : valueOf (ds ++ [d]) = 10 * valueOf ds + d.val := by
  unfold valueOf; rw [List.foldl_append]; rfl

theorem valueOf_append (as bs : List Digit) :
    valueOf (as ++ bs) = valueOf as * 10 ^ bs.length + valueOf bs := by
  induction bs using List.reverseRecOn with
  | nil => simp [valueOf]
  | append_singleton bs d ih =>
    rw [← List.append_assoc, valueOf_concat, valueOf_concat, ih, List.length_append]
    simp only [List.length_singleton, pow_succ]
    ring

theorem valueOf_zeros (k : Nat) : valueOf (List.replicate k .zero) = 0 := by
  induction k with
  | zero => rfl
  | succ k ih =>
    rw [List.replicate_succ', valueOf_concat, ih]; rfl

theorem valueOf_lt (ds : List Digit) : valueOf ds < 10 ^ ds.length := by
  induction ds using List.reverseRecOn with
  | nil => decide
  | append_singleton ds d ih =>
    have := d.isLt
    rw [valueOf_concat, List.length_append, List.length_singleton, pow_succ]
    omega

theorem valueOf_digitsOf (n : Nat) : valueOf (digitsOf n) = n := by
  induction n using Nat.strongRecOn with
  | ind n ih =>
    by_cases hn : n < 10
    · rw [digitsOf_of_lt hn]
      simp only [valueOf, Digit.last, List.foldl_cons, List.foldl_nil]; omega
    · rw [digitsOf_of_le (by omega), valueOf_concat, ih (n / 10) (by omega)]
      simp only [Digit.last]; omega

/-- Digits are those of their value, unless they have a needless zero in front. -/
theorem digitsOf_valueOf (ds : List Digit) (hne : ds ≠ [])
    (hshort : ds.head? = some .zero → ds.length = 1) : digitsOf (valueOf ds) = ds := by
  induction ds using List.reverseRecOn with
  | nil => exact absurd rfl hne
  | append_singleton ds d ih =>
    have hd : d.val < 10 := d.isLt
    rw [valueOf_concat]
    by_cases hds : ds = []
    · subst hds
      rw [show valueOf [] = 0 from rfl, Nat.mul_zero, Nat.zero_add, digitsOf_of_lt hd]
      simp only [Digit.last, List.nil_append, Nat.mod_eq_of_lt hd]
    -- two digits or more: the first is no zero, so those before the last have a value above zero
    · have hhead : ds.head? ≠ some .zero := by
        intro h
        have := hshort (by rw [List.head?_append, h]; rfl)
        rw [List.length_append, List.length_singleton] at this
        exact hds (List.length_eq_zero_iff.1 (by omega))
      have hv := ih hds (fun h => absurd h hhead)
      have hpos : 0 < valueOf ds := by
        rcases Nat.eq_zero_or_pos (valueOf ds) with h0 | h0
        · rw [h0, digitsOf_of_lt (by decide)] at hv
          exact absurd (by rw [← hv]; rfl) hhead
        · exact h0
      rw [digitsOf_of_le (by omega), show (10 * valueOf ds + d.val) / 10 = valueOf ds by omega, hv]
      congr 2
      exact Fin.ext (by simp only [Digit.last]; omega)

theorem digitsOf_mul_pow {n : Nat} (hn : 0 < n) (k : Nat) :
    digitsOf (n * 10 ^ k) = digitsOf n ++ List.replicate k .zero := by
  have hv : valueOf (digitsOf n ++ List.replicate k .zero) = n * 10 ^ k := by
    rw [valueOf_append, valueOf_zeros, valueOf_digitsOf, List.length_replicate, Nat.add_zero]
  rw [← hv]
  refine digitsOf_valueOf _ (by simp [digitsOf_ne]) (fun h => absurd ?_ (digitsOf_head_ne_zero n hn))
  rwa [List.head?_append_of_ne_nil _ (digitsOf_ne n)] at h

/-! ## Words -/

theorem nat?_ofNat (n : Nat) : (ofNat n).nat? = some n := by
  unfold nat? ofNat; simp [valueOf_digitsOf]

theorem word?_ofNat (w : UInt64) : (ofNat w.toNat).word? = some w := by
  unfold word?
  rw [nat?_ofNat, Option.bind_some, if_pos w.toNat_lt]
  exact congrArg some (UInt64.ofNat_toNat)

/-- A numeral that spells a word is the plain spelling of it. -/
theorem eq_ofNat_of_word? {n : Numeral} {w : UInt64} (h : n.word? = some w) : n = ofNat w.toNat := by
  unfold word? nat? at h
  split at h
  · next hn =>
    obtain ⟨h1, h2, h3⟩ := hn
    simp only [Option.bind_some] at h
    split at h
    · next hlt =>
      cases h
      obtain ⟨neg, whole, fraction, exponent, whole_ne, whole_short, fraction_ne, exponent_ne⟩ := n
      dsimp only at h1 h2 h3 hlt ⊢
      subst h1 h2 h3
      have hw : (UInt64.ofNat (valueOf whole)).toNat = valueOf whole :=
        UInt64.toNat_ofNat_of_lt' hlt
      unfold ofNat
      congr 1
      rw [hw, digitsOf_valueOf whole whole_ne whole_short]
    · cases h
  · cases h

end Numeral

namespace Decimal

/-! ## Characters -/

theorem digitChar_eq (d : Digit) : Nat.digitChar d.val = Numeral.digitChar d := by
  revert d; decide

theorem digitsOf_eq_map (n : Nat) : digitsOf n = (Numeral.digitsOf n).map Numeral.digitChar := by
  unfold digitsOf
  induction n using Nat.strongRecOn with
  | ind n ih =>
    by_cases hn : n < 10
    · rw [Nat.toDigits_of_lt_base hn, Numeral.digitsOf_of_lt hn, List.map_singleton, ← digitChar_eq]
      simp only [Digit.last, Nat.mod_eq_of_lt hn]
    · rw [Nat.toDigits_of_base_le (by decide) (by omega), Numeral.digitsOf_of_le (by omega),
        ih (n / 10) (by omega), List.map_append, List.map_singleton, ← digitChar_eq]
      rfl

/-! ## Lengths -/

theorem lt_pow_length (n : Nat) : n < 10 ^ (digitsOf n).length :=
  (Nat.length_toDigits_le_iff (by decide) Nat.length_toDigits_pos).1 (Nat.le_refl _)

theorem length_digitsOf_le {n k : Nat} (hk : 0 < k) (h : n < 10 ^ k) : (digitsOf n).length ≤ k :=
  (Nat.length_toDigits_le_iff (by decide) hk).2 h

theorem pow_length_le {n : Nat} (hn : 0 < n) : 10 ^ ((digitsOf n).length - 1) ≤ n := by
  have hpos : 0 < (digitsOf n).length := Nat.length_toDigits_pos
  by_contra hlt
  rcases Nat.eq_zero_or_pos ((digitsOf n).length - 1) with h0 | h0
  · rw [h0] at hlt; omega
  · have := length_digitsOf_le h0 (Nat.lt_of_not_le hlt)
    omega

end Decimal
end PolicyClient
