/-
What the reader of decimals makes of the spelling of a number (`ofText?_spell`): all its digits are
one integer, and the digits behind the point less the exponent are the scale. The reader asks less
than the reader of documents: zeros may stand in front of the whole part.
-/
import PolicyClient.Proofs.Document.Number
import PolicyClient.Proofs.Text.Blank

namespace PolicyClient

namespace Decimal

open Numeral (Style digitChar valueOf fractionChars exponentChars spell)

/-! ## Integers -/

/-- A natural number with a sign. -/
def signed (negative : Bool) (n : Nat) : Int :=
  if negative then -(n : Int) else n

theorem digitChar_isDigit (d : Digit) :
    (digitChar d).isDigit = true ∧ (digitChar d).toNat - 48 = d.val := by
  revert d; decide

/-- No digit is one of the marks in a number. -/
theorem digitChar_ne (d : Digit) : ∀ c ∈ ['_', '-', '+', '.', 'e', 'E'], digitChar d ≠ c := by
  have hmarks : (['_', '-', '+', '.', 'e', 'E'].all fun c => !c.isDigit) = true := by decide
  rintro c hc rfl
  have := List.all_eq_true.1 hmarks _ hc
  rw [(digitChar_isDigit d).1] at this; cases this

theorem ne_of_mem_digits {ds : List Digit} {c : Char} (hc : c ∈ ds.map digitChar) :
    ∀ m ∈ ['_', '-', '+', '.', 'e', 'E'], c ≠ m := by
  obtain ⟨d, -, rfl⟩ := List.mem_map.1 hc
  exact digitChar_ne d

theorem natOfDigits?_digits {ds : List Digit} (hne : ds ≠ []) :
    natOfDigits? (ds.map digitChar) = some (valueOf ds) := by
  have hfold : ∀ (ds : List Digit) (n : Nat), (ds.map digitChar).foldlM (fun n c =>
      if c = '_' then some n else if c.isDigit then some (10 * n + (c.toNat - 48)) else none) n =
        some (ds.foldl (fun n d => 10 * n + d.val) n) := by
    intro ds
    induction ds with
    | nil => intro n; rfl
    | cons d ds ih =>
      intro n
      rw [List.map_cons, List.foldlM_cons, if_neg (digitChar_ne d _ (by decide)),
        if_pos (digitChar_isDigit d).1, (digitChar_isDigit d).2]
      exact ih _
  rcases ds with _ | ⟨d, ds⟩
  · exact absurd rfl hne
  · have hunder : ∀ s, digitChar d :: ds.map digitChar ≠ '_' :: s := fun s h =>
      digitChar_ne d '_' (by decide) (List.cons.inj h).1
    rw [List.map_cons, natOfDigits?.eq_3 _ (List.cons_ne_nil _ _) hunder]
    exact hfold (d :: ds) 0

theorem intOfText?_digits {ds : List Digit} (hne : ds ≠ []) :
    intOfText? (ds.map digitChar) = some (valueOf ds : Int) := by
  have h := natOfDigits?_digits hne
  rcases ds with _ | ⟨d, ds⟩
  · exact absurd rfl hne
  · rw [List.map_cons] at h ⊢
    rw [intOfText?.eq_3, h]
    · rfl
    · intro s h; exact digitChar_ne d '-' (by decide) (List.cons.inj h).1
    · intro s h; exact digitChar_ne d '+' (by decide) (List.cons.inj h).1

theorem intOfText?_minus {ds : List Digit} (hne : ds ≠ []) (negative : Bool) :
    intOfText? ((if negative then ['-'] else []) ++ ds.map digitChar) =
      some (signed negative (valueOf ds)) := by
  cases negative
  · exact intOfText?_digits hne
  · rw [if_pos rfl, List.singleton_append, intOfText?, natOfDigits?_digits hne]; rfl

theorem exponentOfText?_sign (style : Style) (negative : Bool) {ds : List Digit} (hne : ds ≠ []) :
    exponentOfText? (style.sign negative ++ ds.map digitChar) =
      some (signed negative (valueOf ds)) := by
  have hunder : (style.sign negative ++ ds.map digitChar).contains '_' = false := by
    rw [List.contains_eq_mem, decide_eq_false_iff_not, List.mem_append, not_or]
    constructor
    · unfold Style.sign
      split_ifs <;> decide
    · intro hmem
      exact ne_of_mem_digits hmem '_' (by decide) rfl
  unfold exponentOfText?
  rw [hunder, if_neg nofun]
  unfold Style.sign
  cases negative
  · rw [if_neg nofun]
    split
    · rw [List.singleton_append, intOfText?, natOfDigits?_digits hne]; rfl
    · exact intOfText?_digits hne
  · exact intOfText?_minus hne true

/-! ## The parts of a number -/

/-- The exponent that is spelled; it is zero if there is none. -/
def power : Option (Bool × List Digit) → Int
  | none => 0
  | some (negative, ds) => signed negative (valueOf ds)

theorem splitExponent?_spell (style : Style) {mantissa : List Char}
    {exponent : Option (Bool × List Digit)} (hm : ∀ c ∈ mantissa, c ≠ 'e' ∧ c ≠ 'E')
    (he : ∀ e ∈ exponent, e.2 ≠ []) :
    splitExponent? (mantissa ++ exponentChars style exponent) = some (mantissa, power exponent) := by
  have hstop : ∀ c ∈ (exponentChars style exponent).head?, (c != 'e' && c != 'E') = false := by
    rcases exponent with _ | ⟨negative, ds⟩
    · nofun
    · intro c hc
      cases hc
      unfold Style.letter
      split_ifs <;> rfl
  unfold splitExponent?
  rw [span_of_stop (fun c hc => by simp [hm c hc]) hstop]
  rcases exponent with _ | ⟨negative, ds⟩
  · rfl
  · show (exponentOfText? (style.sign negative ++ ds.map digitChar)).map _ = _
    rw [exponentOfText?_sign style negative (he _ rfl)]
    rfl

/-- The point is dropped, and the digits behind it are counted. -/
theorem splitPoint_spell {whole : List Char} (hw : ∀ c ∈ whole, c ≠ '.')
    (fraction : Option (List Digit)) :
    splitPoint (whole ++ fractionChars fraction) =
      (whole ++ (fraction.getD []).map digitChar, (fraction.getD []).length) := by
  have hstop : ∀ c ∈ (fractionChars fraction).head?, (c != '.') = false := by
    rcases fraction with _ | ds
    · nofun
    · intro c hc; cases hc; rfl
  unfold splitPoint
  rw [span_of_stop (fun c hc => by simp [hw c hc]) hstop]
  rcases fraction with _ | ds
  · simp [fractionChars]
  · have hfilter : (ds.map digitChar).filter (· != '_') = ds.map digitChar := by
      rw [List.filter_eq_self]
      intro c hc
      simp [ne_of_mem_digits hc '_' (by decide)]
    simp only [fractionChars, hfilter, List.length_map, Option.getD_some]

/-! ## Numbers -/

theorem mem_sign {negative : Bool} {c : Char} (hc : c ∈ if negative then ['-'] else []) : c = '-' := by
  cases negative
  · cases hc
  · exact List.mem_singleton.1 hc

/-- A number stands for its digits, scaled by the places behind the point less the exponent. -/
theorem ofText?_spell (style : Style) (negative : Bool) {whole : List Digit}
    (fraction : Option (List Digit)) {exponent : Option (Bool × List Digit)} (hw : whole ≠ [])
    (he : ∀ e ∈ exponent, e.2 ≠ []) :
    ofText? (String.ofList (spell style negative whole fraction exponent)) =
      ofScaled? (signed negative (valueOf (whole ++ fraction.getD [])))
        ((fraction.getD []).length - power exponent) := by
  have hwhole : ∀ c ∈ (if negative then ['-'] else []) ++ whole.map digitChar, c ≠ '.' := by
    intro c hc
    rcases List.mem_append.1 hc with hc | hc
    · rw [mem_sign hc]; decide
    · exact ne_of_mem_digits hc _ (by decide)
  have hmantissa : ∀ c ∈ (if negative then ['-'] else []) ++ whole.map digitChar ++
      fractionChars fraction, c ≠ 'e' ∧ c ≠ 'E' := by
    intro c hc
    rcases List.mem_append.1 hc with hc | hc
    · rcases List.mem_append.1 hc with hc | hc
      · rw [mem_sign hc]; decide
      · exact ⟨ne_of_mem_digits hc _ (by decide), ne_of_mem_digits hc _ (by decide)⟩
    · rcases fraction with _ | ds
      · cases hc
      · rcases List.mem_cons.1 hc with rfl | hc
        · decide
        · exact ⟨ne_of_mem_digits hc _ (by decide), ne_of_mem_digits hc _ (by decide)⟩
  have hne : whole ++ fraction.getD [] ≠ [] := by simp [hw]
  -- with the point dropped, the sign and all digits are one integer
  have hdigits := intOfText?_minus hne negative
  rw [List.map_append, ← List.append_assoc] at hdigits
  unfold ofText? spell
  rw [String.toList_ofList, ← List.append_assoc, ← List.append_assoc,
    splitExponent?_spell style hmantissa he]
  simp only [Option.bind_eq_bind, Option.bind_some, splitPoint_spell hwhole]
  rw [hdigits]
  rfl

end Decimal
end PolicyClient
