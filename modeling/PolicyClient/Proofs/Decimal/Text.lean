/-
The text of a decimal. Its digits are laid out as the parts of a number (`Lays`), which the reader
of decimals takes back to the same value (`ofText?_text`), and which spell a numeral unless a lone
zero is padded with zeros (`IsPaddedZero`).
-/
import PolicyClient.Proofs.Decimal.Reading
import PolicyClient.Proofs.Decimal.Value
import PolicyClient.Term.Wire

namespace PolicyClient.Decimal

open Numeral (Style digitChar valueOf fractionChars exponentChars spell)

/-- How decimals are written: a small letter marks the exponent, and a plus is left out. -/
def style : Style := ⟨false, false⟩

/-! ## Padding -/

/-- The zeros that are written behind the digits for a scale. -/
def paddingOf (scale : Int) : Nat :=
  if scale ≤ 0 ∧ scale.natAbs ≤ maxPadding then scale.natAbs else 0

theorem paddingOf_of_lt {scale : Int} (h : scale < -maxPadding) : paddingOf scale = 0 :=
  if_neg (by omega)

theorem paddingOf_of_pos {scale : Int} (h : 0 < scale) : paddingOf scale = 0 :=
  if_neg (by omega)

theorem scale_of_padding {scale : Int} (h : 0 < paddingOf scale) : scale = -paddingOf scale := by
  unfold paddingOf at h ⊢
  split_ifs at h ⊢
  · omega
  · cases h

/-- A zero with a few zeros behind it. Its text is no number of a document. -/
def IsPaddedZero (d : Decimal) : Prop :=
  d.unscaled = 0 ∧ -(maxPadding : Int) ≤ d.scale ∧ d.scale < 0

instance (d : Decimal) : Decidable d.IsPaddedZero :=
  inferInstanceAs (Decidable (_ ∧ _ ∧ _))

theorem isPaddedZero_iff (d : Decimal) :
    d.IsPaddedZero ↔ d.unscaled = 0 ∧ 0 < paddingOf d.scale := by
  unfold IsPaddedZero paddingOf
  split_ifs with h <;> omega

/-- The decimal that is read back: the zeros behind the digits are digits of their own. -/
def settled (d : Decimal) : Decimal where
  unscaled := d.unscaled * 10 ^ paddingOf d.scale
  scale := d.scale + paddingOf d.scale
  scale_ge := by have := d.scale_ge; omega
  scale_lt := by
    have := d.scale_lt
    rcases Nat.eq_zero_or_pos (paddingOf d.scale) with h | h
    · omega
    · have := scale_of_padding h; omega

theorem value_settled (d : Decimal) : d.settled.value = d.value := by
  have hpow : (10 : ℚ) ^ paddingOf d.scale * (10 : ℚ) ^ (-(d.scale + paddingOf d.scale)) =
      (10 : ℚ) ^ (-d.scale) := by
    rw [← zpow_natCast, ← zpow_add₀ (by norm_num)]
    congr 1; omega
  unfold value settled
  rw [← hpow]
  push_cast
  ring

theorem settled_of_no_padding {d : Decimal} (h : paddingOf d.scale = 0) : d.settled = d := by
  obtain ⟨unscaled, scale, h1, h2⟩ := d
  unfold settled
  simp [show paddingOf scale = 0 from h]

/-! ## Layouts -/

/-- A few zeros are written behind the digits. -/
theorem layout_padded (cs : List Char) {scale : Int} (h1 : -(maxPadding : Int) ≤ scale)
    (h2 : scale ≤ 0) : layout cs scale = cs ++ List.replicate scale.natAbs '0' := by
  unfold layout
  dsimp only
  rw [if_pos h2, if_neg (by omega)]

/-- The parts of a number that digits are laid out as for a scale. -/
structure Lays (ds : List Digit) (scale : Int) (whole : List Digit) (fraction : Option (List Digit))
    (exponent : Option (Bool × List Digit)) : Prop where
  chars : layout (ds.map digitChar) scale =
    whole.map digitChar ++ (fractionChars fraction ++ exponentChars style exponent)
  digits : valueOf (whole ++ fraction.getD []) = valueOf ds * 10 ^ paddingOf scale
  places : (fraction.getD []).length - power exponent = scale + paddingOf scale
  whole_ne : whole ≠ []
  fraction_ne : fraction ≠ some []
  exponent_ne : ∀ e ∈ exponent, e.2 ≠ []
  whole_short : (ds.head? = some .zero → ds.length = 1 ∧ paddingOf scale = 0) →
    whole.head? = some .zero → whole.length = 1

theorem signed_digitsOf (negative : Bool) (n : Nat) :
    signed negative (valueOf (Numeral.digitsOf n)) = if negative then -(n : Int) else n := by
  unfold signed; rw [Numeral.valueOf_digitsOf]

variable {ds : List Digit} {scale : Int}

theorem lays_exponent (hne : ds ≠ []) (hs : scale < -maxPadding) :
    Lays ds scale ds none (some (false, Numeral.digitsOf scale.natAbs)) where
  chars := by
    unfold layout
    dsimp only
    rw [if_pos (by omega), if_pos (by omega), digitsOf_eq_map]
    rfl
  digits := by rw [paddingOf_of_lt hs]; simp
  places := by
    rw [paddingOf_of_lt hs]
    show ((0 : Nat) : Int) - signed false _ = _
    rw [signed_digitsOf, if_neg nofun]; omega
  whole_ne := hne
  fraction_ne := nofun
  exponent_ne := by rintro _ ⟨⟩; exact Numeral.digitsOf_ne _
  whole_short h hz := (h hz).1

theorem lays_padded (hne : ds ≠ []) (h1 : -(maxPadding : Int) ≤ scale) (h2 : scale ≤ 0) :
    Lays ds scale (ds ++ List.replicate scale.natAbs .zero) none none := by
  have hp : paddingOf scale = scale.natAbs := if_pos ⟨h2, by omega⟩
  constructor
  case chars =>
    rw [layout_padded _ h1 h2, List.map_append, List.map_replicate]
    show _ = _ ++ _ ++ []
    rw [List.append_nil]; rfl
  case digits =>
    rw [Option.getD_none, List.append_nil, Numeral.valueOf_append, Numeral.valueOf_zeros, hp,
      List.length_replicate, Nat.add_zero]
  case places => rw [hp]; show ((0 : Nat) : Int) - 0 = _; omega
  case whole_ne => simp [hne]
  case fraction_ne => nofun
  case exponent_ne => simp
  case whole_short =>
    intro h hz
    rw [List.head?_append_of_ne_nil _ hne] at hz
    obtain ⟨hlen, hzero⟩ := h hz
    rw [List.length_append, hlen, List.length_replicate, ← hp, hzero]

theorem lays_point (h1 : 0 < scale) (h2 : scale.natAbs < ds.length) :
    Lays ds scale (ds.take (ds.length - scale.natAbs)) (some (ds.drop (ds.length - scale.natAbs)))
      none where
  chars := by
    unfold layout
    dsimp only
    rw [if_neg (by omega), List.length_map, if_pos h2, ← List.map_take, ← List.map_drop]
    show _ = _ ++ (_ ++ [])
    rw [List.append_nil]; rfl
  digits := by rw [paddingOf_of_pos h1, Option.getD_some, List.take_append_drop]; omega
  places := by
    rw [paddingOf_of_pos h1, Option.getD_some, List.length_drop]
    show _ - (0 : Int) = _
    omega
  whole_ne h := by
    have := congrArg List.length h
    rw [List.length_take, List.length_nil] at this; omega
  fraction_ne h := by
    have := congrArg List.length (Option.some.inj h)
    rw [List.length_drop, List.length_nil] at this; omega
  exponent_ne := by simp
  whole_short h hz := by
    rw [List.head?_take, if_neg (by omega)] at hz
    have := (h hz).1
    omega

theorem lays_small (hne : ds ≠ []) (h : maxPadding + ds.length < scale) :
    Lays ds scale ds none (some (true, Numeral.digitsOf scale.natAbs)) where
  chars := by
    unfold layout
    dsimp only
    rw [if_neg (by omega), List.length_map, if_neg (by omega), if_pos (by omega), digitsOf_eq_map]
    rfl
  digits := by rw [paddingOf_of_pos (by omega)]; simp
  places := by
    rw [paddingOf_of_pos (by omega)]
    show ((0 : Nat) : Int) - signed true _ = _
    rw [signed_digitsOf, if_pos rfl]; omega
  whole_ne := hne
  fraction_ne := nofun
  exponent_ne := by rintro _ ⟨⟩; exact Numeral.digitsOf_ne _
  whole_short h hz := (h hz).1

theorem lays_fraction (h0 : 0 < scale) (h1 : ds.length ≤ scale.natAbs)
    (h2 : scale ≤ maxPadding + ds.length) :
    Lays ds scale [.zero] (some (List.replicate (scale.natAbs - ds.length) .zero ++ ds)) none where
  chars := by
    unfold layout
    dsimp only
    rw [if_neg (by omega), List.length_map, if_neg (by omega), if_neg (by omega)]
    show _ = _ :: '.' :: _ ++ []
    rw [List.append_nil, List.map_append, List.map_replicate]; rfl
  digits := by
    rw [paddingOf_of_pos h0, Option.getD_some, ← List.append_assoc, Numeral.valueOf_append,
      show [Digit.zero] ++ List.replicate (scale.natAbs - ds.length) Digit.zero =
        List.replicate (scale.natAbs - ds.length + 1) Digit.zero from rfl, Numeral.valueOf_zeros]
    omega
  places := by
    rw [paddingOf_of_pos h0, Option.getD_some, List.length_append, List.length_replicate]
    show _ - (0 : Int) = _
    omega
  whole_ne := List.cons_ne_nil _ _
  fraction_ne h := by
    have := congrArg List.length (Option.some.inj h)
    rw [List.length_append, List.length_replicate, List.length_nil] at this; omega
  exponent_ne := by simp
  whole_short _ _ := rfl

/-- Digits are laid out as the parts of a number, for every scale. -/
theorem exists_lays (hne : ds ≠ []) (scale : Int) :
    ∃ whole fraction exponent, Lays ds scale whole fraction exponent := by
  by_cases h0 : 0 < scale
  · by_cases h1 : scale.natAbs < ds.length
    · exact ⟨_, _, _, lays_point h0 h1⟩
    · by_cases h2 : maxPadding + ds.length < scale
      · exact ⟨_, _, _, lays_small hne h2⟩
      · exact ⟨_, _, _, lays_fraction h0 (by omega) (by omega)⟩
  · by_cases h1 : scale < -maxPadding
    · exact ⟨_, _, _, lays_exponent hne h1⟩
    · exact ⟨_, _, _, lays_padded hne (by omega) (by omega)⟩

/-! ## Texts -/

/-- The text of a decimal spells a number. -/
theorem exists_text_eq (d : Decimal) : ∃ whole fraction exponent,
    Lays (Numeral.digitsOf d.unscaled.natAbs) d.scale whole fraction exponent ∧
      d.text = String.ofList (spell style (decide (d.unscaled < 0)) whole fraction exponent) := by
  obtain ⟨whole, fraction, exponent, hlays⟩ :=
    exists_lays (Numeral.digitsOf_ne d.unscaled.natAbs) d.scale
  refine ⟨whole, fraction, exponent, hlays, ?_⟩
  unfold text spell
  rw [digitsOf_eq_map, hlays.chars]
  simp only [decide_eq_true_eq]

/-- The text of a decimal is read back as its settled form, whatever its digits and its scale. -/
theorem ofText?_text (d : Decimal) : ofText? d.text = some d.settled := by
  obtain ⟨whole, fraction, exponent, hlays, htext⟩ := exists_text_eq d
  have hdigits : signed (decide (d.unscaled < 0)) (valueOf (whole ++ fraction.getD [])) =
      d.settled.unscaled := by
    rw [hlays.digits, Numeral.valueOf_digitsOf]
    unfold signed settled
    push_cast
    by_cases hneg : d.unscaled < 0
    · rw [if_pos (by simpa using hneg), abs_of_neg hneg]; ring
    · rw [if_neg (by simpa using hneg), abs_of_nonneg (not_lt.1 hneg)]
  rw [htext, ofText?_spell style _ fraction hlays.whole_ne hlays.exponent_ne, hdigits, hlays.places]
  exact dif_pos ⟨d.settled.scale_ge, d.settled.scale_lt⟩

/-- The text of a decimal spells a numeral unless it is a padded zero. -/
theorem exists_numeral_of_not_isPaddedZero {d : Decimal} (h : ¬ d.IsPaddedZero) :
    ∃ n : Numeral, d.text = String.ofList (n.spelling style) := by
  obtain ⟨whole, fraction, exponent, hlays, htext⟩ := exists_text_eq d
  -- only a lone zero begins with a zero, and without padding it stands alone
  have hshort : whole.head? = some .zero → whole.length = 1 := by
    refine hlays.whole_short fun hzero => ⟨Numeral.digitsOf_head _ hzero, ?_⟩
    have hunscaled : d.unscaled = 0 := by
      by_contra hne
      exact Numeral.digitsOf_head_ne_zero _ (Int.natAbs_pos.2 hne) hzero
    rw [isPaddedZero_iff] at h
    by_contra hne
    exact h ⟨hunscaled, Nat.pos_of_ne_zero hne⟩
  exact ⟨⟨_, whole, fraction, exponent, hlays.whole_ne, hshort, hlays.fraction_ne,
    hlays.exponent_ne⟩, htext⟩

/-- The text of a padded zero is at least two zeros. -/
theorem text_of_isPaddedZero {d : Decimal} (h : d.IsPaddedZero) :
    d.text = String.ofList ('0' :: '0' :: List.replicate (d.scale.natAbs - 1) '0') := by
  obtain ⟨hunscaled, hlow, hhigh⟩ := h
  unfold text
  rw [hunscaled, layout_padded _ hlow hhigh.le, show d.scale.natAbs = d.scale.natAbs - 1 + 1 by omega]
  rfl

/-! ## Numerals -/

theorem decimal?_spelling (style : Style) (n : Numeral) :
    n.decimal? = ofText? (String.ofList (n.spelling style)) := by
  unfold Numeral.decimal? Numeral.text
  rw [Numeral.chars_eq_spelling]
  unfold Numeral.spelling
  rw [ofText?_spell _ _ _ n.whole_ne n.exponent_ne, ofText?_spell _ _ _ n.whole_ne n.exponent_ne]

/-- A decimal that is no padded zero is written as a numeral of its value. -/
theorem numeral_of_not_isPaddedZero {d : Decimal} (h : ¬ d.IsPaddedZero) :
    ∃ n, d.numeral = .ok n ∧ n.decimal? = some d.settled := by
  obtain ⟨n, htext⟩ := exists_numeral_of_not_isPaddedZero h
  refine ⟨n, ?_, ?_⟩
  · unfold numeral
    rw [htext, Utf8.encode_ofList, Document.numeralOfBytes_spelling]
  · rw [decimal?_spelling style, ← htext, ofText?_text]

theorem numeral_of_isPaddedZero {d : Decimal} (h : d.IsPaddedZero) : ∃ e, d.numeral = .error e := by
  unfold numeral
  rw [text_of_isPaddedZero h, Utf8.encode_ofList]
  exact ⟨_, Document.numeralOfBytes_zero_digit .zero _⟩

theorem numeral_eq_ok_iff (d : Decimal) : (∃ n, d.numeral = .ok n) ↔ ¬ d.IsPaddedZero := by
  constructor
  · rintro ⟨n, hn⟩ h
    obtain ⟨e, he⟩ := numeral_of_isPaddedZero h
    rw [hn] at he; cases he
  · intro h
    obtain ⟨n, hn, -⟩ := numeral_of_not_isPaddedZero h
    exact ⟨n, hn⟩

/-- A numeral stands for the decimal that was written. -/
theorem decimal?_of_numeral {d : Decimal} {n : Numeral} (h : d.numeral = .ok n) :
    n.decimal? = some d.settled := by
  obtain ⟨n', hn', hd⟩ := numeral_of_not_isPaddedZero ((numeral_eq_ok_iff d).1 ⟨n, h⟩)
  rw [h] at hn'; cases hn'
  exact hd

/-! ## Settled decimals -/

theorem text_settled {d : Decimal} (h : ¬ d.IsPaddedZero) : d.settled.text = d.text := by
  rcases Nat.eq_zero_or_pos (paddingOf d.scale) with hp | hp
  · rw [settled_of_no_padding hp]
  · have hscale := scale_of_padding hp
    have hunscaled : d.unscaled ≠ 0 := fun h0 => h ((isPaddedZero_iff d).2 ⟨h0, hp⟩)
    have hlow : -(maxPadding : Int) ≤ d.scale := by
      by_contra hlt
      rw [paddingOf_of_lt (by omega)] at hp; exact absurd hp (by decide)
    have hpos : (0 : Int) < 10 ^ paddingOf d.scale := by positivity
    -- the zeros of the padding are the last digits of the settled integer
    have hdigits : digitsOf d.settled.unscaled.natAbs =
        digitsOf d.unscaled.natAbs ++ List.replicate (paddingOf d.scale) '0' := by
      unfold settled
      rw [Int.natAbs_mul, Int.natAbs_pow, digitsOf_eq_map, digitsOf_eq_map,
        show Int.natAbs 10 = 10 from rfl, Numeral.digitsOf_mul_pow (Int.natAbs_pos.2 hunscaled),
        List.map_append, List.map_replicate]
      rfl
    have hsign : d.settled.unscaled < 0 ↔ d.unscaled < 0 := by
      unfold settled
      exact ⟨fun hlt => by nlinarith, fun hlt => by nlinarith⟩
    have hzero : d.settled.scale = 0 := by
      show d.scale + _ = 0
      omega
    unfold text
    rw [layout_padded _ (by omega) hzero.le, layout_padded _ hlow (by omega), hdigits, hzero,
      show d.scale.natAbs = paddingOf d.scale by omega]
    simp only [hsign, Int.natAbs_zero, List.replicate_zero, List.append_nil]

/-- A settled decimal is written as the decimal itself. -/
theorem numeral_settled {d : Decimal} {n : Numeral} (h : d.numeral = .ok n) :
    d.settled.numeral = .ok n := by
  unfold numeral at h ⊢
  rw [text_settled ((numeral_eq_ok_iff d).1 ⟨n, h⟩), h]

end PolicyClient.Decimal
