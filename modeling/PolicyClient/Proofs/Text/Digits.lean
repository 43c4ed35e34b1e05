/-
Natural numbers and their digits in a base up to sixteen: what is written is read as the same
number (`natOfDigits?_toDigits`), and a number that is read is bounded by the count of its digits.
-/
import PolicyClient.Text.Digits
import Mathlib.Data.List.Basic
import Mathlib.Tactic.Ring

namespace PolicyClient.Text

variable {base n : Nat} {digits : List Char}

theorem hexDigit?_digitChar {d : Nat} (h : d < 16) : hexDigit? (Nat.digitChar d) = some d := by
  revert d; decide

theorem natOfDigits?_concat {d : Nat} (hdigits : natOfDigits? base digits = some n) (hd : d < base)
    (hbase : base ≤ 16) :
    natOfDigits? base (digits ++ [Nat.digitChar d]) = some (base * n + d) := by
  unfold natOfDigits? at hdigits ⊢
  rw [List.foldlM_append, hdigits]
  simp [hexDigit?_digitChar (Nat.lt_of_lt_of_le hd hbase), hd]

theorem natOfDigits?_toDigits (hone : 1 < base) (hbase : base ≤ 16) (n : Nat) :
    natOfDigits? base (Nat.toDigits base n) = some n := by
  induction n using Nat.strongRecOn with
  | _ n ih =>
    by_cases hn : n < base
    · have hnil : natOfDigits? base [] = some 0 := rfl
      have hsingle := natOfDigits?_concat hnil hn hbase
      rw [Nat.mul_zero, Nat.zero_add, List.nil_append] at hsingle
      rw [Nat.toDigits_of_lt_base hn, hsingle]
    · have hle := Nat.not_lt.1 hn
      have hless : n / base < n := Nat.div_lt_self (by omega) hone
      have hlast := natOfDigits?_concat (ih _ hless) (Nat.mod_lt n (by omega)) hbase
      rw [Nat.toDigits_of_base_le hone hle, hlast, Nat.div_add_mod]

theorem mem_toDigits (hone : 1 < base) {c : Char} (h : c ∈ Nat.toDigits base n) :
    ∃ d < base, c = Nat.digitChar d := by
  induction n using Nat.strongRecOn with
  | _ n ih =>
    by_cases hn : n < base
    · rw [Nat.toDigits_of_lt_base hn, List.mem_singleton] at h
      exact ⟨n, hn, h⟩
    · rw [Nat.toDigits_of_base_le hone (Nat.not_lt.1 hn), List.mem_append,
        List.mem_singleton] at h
      rcases h with h | h
      · exact ih _ (Nat.div_lt_self (by omega) hone) h
      · exact ⟨n % base, Nat.mod_lt n (by omega), h⟩

/-- A zero in front of a number in base ten is the whole number. -/
theorem tail_toDigits {rest : List Char} (h : Nat.toDigits 10 n = '0' :: rest) : rest = [] := by
  -- the first digit is that of the quotient, down to a single digit that is not zero
  have hhead : ∀ n, 0 < n → ∃ d digits, 0 < d ∧ d < 10 ∧
      Nat.toDigits 10 n = Nat.digitChar d :: digits := by
    intro n
    induction n using Nat.strongRecOn with
    | _ n ih =>
      intro hpos
      by_cases hn : n < 10
      · exact ⟨n, [], hpos, hn, Nat.toDigits_of_lt_base hn⟩
      · obtain ⟨d, digits, hd, hlt, hdigits⟩ := ih (n / 10) (by omega) (by omega)
        refine ⟨d, digits ++ [Nat.digitChar (n % 10)], hd, hlt, ?_⟩
        rw [Nat.toDigits_of_base_le (by decide) (by omega), hdigits, List.cons_append]
  have hzero : ∀ d < 10, 0 < d → Nat.digitChar d ≠ '0' := by decide
  rcases Nat.eq_zero_or_pos n with rfl | hpos
  · cases h; rfl
  · obtain ⟨d, digits, hd, hlt, hdigits⟩ := hhead n hpos
    rw [hdigits] at h
    exact absurd (List.cons.inj h).1 (hzero d hlt hd)

/-- A number is less than the power of the base to the count of its digits. -/
theorem lt_pow_of_natOfDigits? (h : natOfDigits? base digits = some n) :
    n < base ^ digits.length := by
  -- the fold goes on from any number, so the induction is on the digits that are left
  have hstep : ∀ (digits : List Char) (start : Nat),
      digits.foldlM (fun n c => do
        let d ← hexDigit? c
        if d < base then some (base * n + d) else none) start = some n →
      n < (start + 1) * base ^ digits.length := by
    intro digits
    induction digits with
    | nil =>
      intro start h
      cases h
      simp
    | cons c digits ih =>
      intro start h
      rw [List.foldlM_cons] at h
      obtain ⟨next, hnext, h⟩ := Option.bind_eq_some_iff.1 h
      obtain ⟨d, -, hnext⟩ := Option.bind_eq_some_iff.1 hnext
      split_ifs at hnext with hd
      cases hnext
      have hle : base * start + d + 1 ≤ base * (start + 1) := by
        rw [Nat.mul_add]
        omega
      calc n < (base * start + d + 1) * base ^ digits.length := ih _ h
        _ ≤ base * (start + 1) * base ^ digits.length := Nat.mul_le_mul_right _ hle
        _ = (start + 1) * base ^ (digits.length + 1) := by ring
  have hlt := hstep digits 0 h
  rwa [Nat.zero_add, Nat.one_mul] at hlt

end PolicyClient.Text
