/-
The spellings of JSON numbers, and that the reader of numbers takes every one of them
(`readNumber_spelling`, `numeralOfBytes_spelling`), up to the first byte that cannot carry on a
number. A numeral has four spellings: its exponent may be marked by either letter, and the plus in
front of it may be left out.
-/
import PolicyClient.Document.Scan
import PolicyClient.Proofs.Decimal.Digits
import PolicyClient.Proofs.Text.Utf8

namespace PolicyClient

/-! ## Spellings -/

namespace Numeral

/-- How an exponent is marked: by the letter `E` or `e`, and with a plus or without. -/
structure Style where
  capital : Bool
  plus : Bool

/-- The letter in front of an exponent. -/
def Style.letter (style : Style) : Char :=
  if style.capital then 'E' else 'e'

/-- The sign of an exponent. -/
def Style.sign (style : Style) (negative : Bool) : List Char :=
  if negative then ['-'] else if style.plus then ['+'] else []

/-- The characters of a fraction, with its point. -/
def fractionChars : Option (List Digit) → List Char
  | none => []
  | some ds => '.' :: ds.map digitChar

/-- The characters of an exponent, with its letter and its sign. -/
def exponentChars (style : Style) : Option (Bool × List Digit) → List Char
  | none => []
  | some (negative, ds) => style.letter :: (style.sign negative ++ ds.map digitChar)

/-- The characters of a sign, a whole part, a fraction and an exponent. -/
def spell (style : Style) (negative : Bool) (whole : List Digit) (fraction : Option (List Digit))
    (exponent : Option (Bool × List Digit)) : List Char :=
  (if negative then ['-'] else []) ++
    (whole.map digitChar ++ (fractionChars fraction ++ exponentChars style exponent))

/-- A spelling of a numeral. -/
def spelling (style : Style) (n : Numeral) : List Char :=
  spell style n.negative n.whole n.fraction n.exponent

/-- A numeral is written with a small letter and a plus. -/
theorem chars_eq_spelling (n : Numeral) : n.chars = n.spelling ⟨false, true⟩ := by
  obtain ⟨negative, whole, fraction, exponent, h1, h2, h3, h4⟩ := n
  unfold chars spelling spell
  rw [List.append_assoc, List.append_assoc]
  cases fraction <;> rcases exponent with _ | ⟨_ | _, ds⟩ <;> rfl

/-- A sign or none, the digits, and a point and an exponent if the numeral has them. -/
theorem length_spelling (n : Numeral) (style : Style) : (n.spelling style).length =
    n.negative.toNat + n.whole.length + (fractionChars n.fraction).length +
      (exponentChars style n.exponent).length := by
  have hsign : (if n.negative then ['-'] else []).length = n.negative.toNat := by
    cases n.negative <;> rfl
  unfold spelling spell
  rw [List.length_append, List.length_append, List.length_append, List.length_map, hsign]
  omega

/-! ## Bytes of digits -/

/-- The byte of a digit. -/
def digitByte (d : Digit) : UInt8 :=
  UInt8.ofNat (48 + d.val)

theorem utf8EncodeChar_digitChar (d : Digit) :
    String.utf8EncodeChar (digitChar d) = [digitByte d] := by
  revert d; decide

theorem digitOfByte?_digitByte (d : Digit) : digitOfByte? (digitByte d) = some d := by
  revert d; decide

/-- The digits at the front are taken up to the first byte that is none. -/
theorem takeDigits_digits (ds : List Digit) {rest : Bytes}
    (hrest : ∀ b ∈ rest.head?, digitOfByte? b = none) :
    takeDigits (ds.map digitByte ++ rest) = (ds, rest) := by
  induction ds with
  | nil =>
    cases rest with
    | nil => rfl
    | cons b rest => rw [List.map_nil, List.nil_append, takeDigits, hrest b rfl]
  | cons d ds ih => rw [List.map_cons, List.cons_append, takeDigits, digitOfByte?_digitByte, ih]

end Numeral

theorem Utf8.encodeChars_digits (ds : List Digit) :
    encodeChars (ds.map Numeral.digitChar) = ds.map Numeral.digitByte := by
  unfold encodeChars
  rw [List.flatMap_map, List.map_eq_flatMap]
  exact congrArg (ds.flatMap ·) (funext Numeral.utf8EncodeChar_digitChar)

/-! ## Reading -/

namespace Document

variable {α : Type} {bound bound' : Nat}

/-- The value read and the bytes left, without the bound on these. -/
def parts (s : Scan α bound) : Except Failure (α × Bytes) :=
  s.map fun t => (t.value, t.rest)

theorem parts_map (s : Scan α bound) (h : ∀ t : Taken α bound, t.rest.length < bound') :
    parts (s.map fun t => ⟨t.value, t.rest, h t⟩ : Scan α bound') = parts s := by
  rcases s with e | t <;> rfl

theorem parts_map_value {β : Type} (f : α → β) (s : Scan α bound)
    (h : ∀ t : Taken α bound, t.rest.length < bound') :
    parts (s.map fun t => ⟨f t.value, t.rest, h t⟩ : Scan β bound') =
      (parts s).map fun p => (f p.1, p.2) := by
  rcases s with e | t <;> rfl

theorem parts_eq_ok {s : Scan α bound} {a : α} {rest : Bytes} (h : parts s = .ok (a, rest)) :
    ∃ hs, s = .ok ⟨a, rest, hs⟩ := by
  rcases s with e | t
  · cases h
  · cases h; exact ⟨t.short, rfl⟩

open Numeral Utf8

/-- Nothing that carries on a number comes next. -/
def EndsNumber (rest : Bytes) : Prop :=
  ∀ b ∈ rest.head?, digitOfByte? b = none ∧ b ≠ 0x2E ∧ b ≠ 0x65 ∧ b ≠ 0x45

theorem endsNumber_nil : EndsNumber [] := nofun

variable {rest : Bytes}

/-! ### Exponents -/

theorem exponentSign_sign (style : Style) (negative : Bool) (d : Digit) (rest : Bytes) :
    exponentSign (encodeChars (style.sign negative) ++ digitByte d :: rest) =
      (negative, digitByte d :: rest) := by
  obtain ⟨capital, plus⟩ := style
  cases negative
  · cases plus
    · fin_cases d <;> rfl
    · rfl
  · rfl

/-- The bytes of an exponent begin with its letter. -/
theorem letter_of_head (style : Style) {e : Option (Bool × List Digit)} {b : UInt8}
    (hb : b ∈ (encodeChars (exponentChars style e)).head?) : b = 0x65 ∨ b = 0x45 := by
  obtain ⟨capital, plus⟩ := style
  rcases e with _ | ⟨negative, ds⟩
  · cases hb
  · cases capital <;> cases hb
    · exact .inl rfl
    · exact .inr rfl

theorem readExponent_letter (n : Numeral) {b : UInt8} {rest digits rest' : Bytes} {negative : Bool}
    {ds : List Digit} (hb : b = 0x65 ∨ b = 0x45) (hs : exponentSign rest = (negative, digits))
    (hd : takeDigits digits = (ds, rest')) (hn : n.exponent = some (negative, ds)) :
    parts (readExponent n.negative n.whole n.fraction n.whole_ne n.whole_short n.fraction_ne
      (b :: rest)) = .ok (n, rest') := by
  obtain ⟨sign, whole, fraction, exponent, h1, h2, h3, h4⟩ := n
  dsimp only at hn ⊢
  subst hn
  rw [readExponent, if_pos hb]
  split
  · next heq => rw [hs] at heq; cases hd.symm.trans heq; exact absurd rfl (h4 _ rfl)
  · next heq => rw [hs] at heq; cases hd.symm.trans heq; exact absurd rfl (h4 _ rfl)
  · next heq => rw [hs] at heq; cases hd.symm.trans heq; simp only [hs]; rfl

theorem readExponent_chars (style : Style) (n : Numeral) (hrest : EndsNumber rest) :
    parts (readExponent n.negative n.whole n.fraction n.whole_ne n.whole_short n.fraction_ne
      (encodeChars (exponentChars style n.exponent) ++ rest)) = .ok (n, rest) := by
  rcases hn : n.exponent with _ | ⟨negative, _ | ⟨d, ds⟩⟩
  · obtain ⟨sign, whole, fraction, exponent, h1, h2, h3, h4⟩ := n
    subst hn
    show parts (readExponent sign whole fraction h1 h2 h3 rest) = _
    cases rest with
    | nil => rfl
    | cons b rest =>
      obtain ⟨-, -, hsmall, hcapital⟩ := hrest b rfl
      rw [readExponent, if_neg (not_or.2 ⟨hsmall, hcapital⟩)]
      rfl
  · exact absurd rfl (n.exponent_ne _ hn)
  · have hbytes : ∃ b, encodeChars (exponentChars style (some (negative, d :: ds))) =
        b :: (encodeChars (style.sign negative) ++ (d :: ds).map digitByte) := by
      rw [← encodeChars_digits, ← encodeChars_append]
      obtain ⟨_ | _, plus⟩ := style <;> exact ⟨_, rfl⟩
    obtain ⟨b, hb⟩ := hbytes
    have hletter := letter_of_head style (b := b) (by rw [hb]; rfl)
    have hdigits : takeDigits ((d :: ds).map digitByte ++ rest) = (d :: ds, rest) :=
      takeDigits_digits (d :: ds) fun b hb => (hrest b hb).1
    rw [hb, List.cons_append, List.append_assoc]
    exact readExponent_letter n hletter (exponentSign_sign style negative d _) hdigits hn

/-! ### Fractions -/

theorem readFraction_point (n : Numeral) {s rest' : Bytes} {ds : List Digit}
    (hd : takeDigits s = (ds, rest')) (hn : n.fraction = some ds)
    (he : parts (readExponent n.negative n.whole n.fraction n.whole_ne n.whole_short n.fraction_ne
      rest') = .ok (n, rest)) :
    parts (readFraction n.negative n.whole n.whole_ne n.whole_short (0x2E :: s)) =
      .ok (n, rest) := by
  obtain ⟨negative, whole, fraction, exponent, h1, h2, h3, h4⟩ := n
  dsimp only at hn he ⊢
  subst hn
  rw [readFraction]
  split
  · next heq => cases hd.symm.trans heq; exact absurd rfl h3
  · next heq => cases hd.symm.trans heq; exact absurd rfl h3
  · next heq => cases hd.symm.trans heq; rw [parts_map, he]

/-- What follows the digits in front of an exponent is neither a digit nor a point. -/
theorem ends_before_exponent (style : Style) (e : Option (Bool × List Digit))
    (hrest : EndsNumber rest) :
    ∀ b ∈ (encodeChars (exponentChars style e) ++ rest).head?, digitOfByte? b = none ∧ b ≠ 0x2E := by
  intro b hb
  rcases he : encodeChars (exponentChars style e) with _ | ⟨c, cs⟩
  · rw [he] at hb
    exact ⟨(hrest b hb).1, (hrest b hb).2.1⟩
  · rw [he] at hb
    have hletter := letter_of_head style (e := e) (b := b) (by rw [he]; exact hb)
    rcases hletter with rfl | rfl <;> exact ⟨rfl, by decide⟩

theorem readFraction_chars (style : Style) (n : Numeral) (hrest : EndsNumber rest) :
    parts (readFraction n.negative n.whole n.whole_ne n.whole_short
      (encodeChars (fractionChars n.fraction ++ exponentChars style n.exponent) ++ rest)) =
      .ok (n, rest) := by
  have he := readExponent_chars style n hrest
  have hends := ends_before_exponent style n.exponent hrest
  rcases hn : n.fraction with _ | ds
  · obtain ⟨negative, whole, fraction, exponent, h1, h2, h3, h4⟩ := n
    dsimp only at hn he hends ⊢
    subst hn
    have hpoint : ∀ s, encodeChars (exponentChars style exponent) ++ rest ≠ 0x2E :: s := by
      intro s hs
      exact (hends 0x2E (by rw [hs]; rfl)).2 rfl
    rw [show fractionChars none ++ exponentChars style exponent = exponentChars style exponent from rfl,
      readFraction.eq_2 _ _ _ _ _ hpoint]
    exact he
  · have hbytes : encodeChars (fractionChars (some ds)) = 0x2E :: ds.map digitByte := by
      rw [← encodeChars_digits]; rfl
    rw [encodeChars_append, hbytes, List.append_assoc, List.cons_append]
    exact readFraction_point n (takeDigits_digits ds fun b hb => (hends b hb).1) hn he

/-! ### Numbers -/

theorem readUnsigned_digits (n : Numeral) {s : Bytes}
    (hs : ∀ b ∈ s.head?, digitOfByte? b = none)
    (hf : parts (readFraction n.negative n.whole n.whole_ne n.whole_short s) = .ok (n, rest)) :
    parts (readUnsigned n.negative (n.whole.map digitByte ++ s)) = .ok (n, rest) := by
  obtain ⟨negative, whole, fraction, exponent, h1, h2, h3, h4⟩ := n
  dsimp only at hf ⊢
  rcases whole with _ | ⟨d, ds⟩
  · exact absurd rfl h1
  · rw [List.map_cons, List.cons_append]
    unfold readUnsigned
    simp only [digitOfByte?_digitByte]
    by_cases hd : d = .zero
    · have hds : ds = [] := List.length_eq_zero_iff.1 (Nat.succ.inj (h2 (congrArg some hd)))
      subst hd hds
      rw [dif_pos rfl]
      cases s with
      | nil => exact hf
      | cons c s =>
        show parts (if (digitOfByte? c).isSome then _ else _) = _
        rw [if_neg (by rw [hs c rfl]; nofun)]
        exact hf
    -- the digits taken stand in proofs as well, so they are replaced all at once
    · have htaken : ∀ p, p = (ds, s) → ∀ h h',
          parts (readFraction negative (d :: p.1) h h' p.2) =
            .ok (⟨negative, d :: ds, fraction, exponent, h1, h2, h3, h4⟩, rest) := by
        rintro _ rfl _ _; exact hf
      rw [dif_neg hd, parts_map]
      exact htaken _ (takeDigits_digits ds hs) _ _

theorem readUnsigned_chars (style : Style) (n : Numeral) (hrest : EndsNumber rest) :
    parts (readUnsigned n.negative (encodeChars (n.whole.map digitChar ++
      (fractionChars n.fraction ++ exponentChars style n.exponent)) ++ rest)) = .ok (n, rest) := by
  have hstop : ∀ b ∈ (encodeChars (fractionChars n.fraction ++ exponentChars style n.exponent) ++
      rest).head?, digitOfByte? b = none := by
    rcases n.fraction with _ | ds
    · exact fun b hb => (ends_before_exponent style n.exponent hrest b hb).1
    · intro b hb; cases hb; rfl
  rw [encodeChars_append, encodeChars_digits, List.append_assoc]
  exact readUnsigned_digits n hstop (readFraction_chars style n hrest)

/-- A numeral without a sign begins with a digit. -/
theorem spelling_of_nonneg (style : Style) {n : Numeral} (hn : n.negative = false) :
    ∃ d rest, encodeChars (n.spelling style) = digitByte d :: rest := by
  obtain ⟨negative, whole, fraction, exponent, h1, h2, h3, h4⟩ := n
  dsimp only at hn
  subst hn
  rcases whole with _ | ⟨d, ds⟩
  · exact absurd rfl h1
  · refine ⟨d, encodeChars
      (ds.map digitChar ++ (fractionChars fraction ++ exponentChars style exponent)), ?_⟩
    show String.utf8EncodeChar (digitChar d) ++ _ = _
    rw [utf8EncodeChar_digitChar]; rfl

/-- A spelling of a numeral is taken up to what cannot carry on a number. -/
theorem readNumber_spelling (style : Style) (n : Numeral) (hrest : EndsNumber rest) :
    parts (readNumber (encodeChars (n.spelling style) ++ rest)) = .ok (n, rest) := by
  have h := readUnsigned_chars style n hrest
  cases hneg : n.negative <;> rw [hneg] at h
  -- the first byte is a digit, so no minus is taken
  · have hsign : ∀ s, encodeChars (n.spelling style) ++ rest ≠ 0x2D :: s := by
      intro s hs
      obtain ⟨d, rest', hd⟩ := spelling_of_nonneg style hneg
      rw [hd, List.cons_append] at hs
      have := digitOfByte?_digitByte d
      rw [(List.cons.inj hs).1] at this
      cases this
    rw [readNumber.eq_2 _ hsign]
    unfold spelling spell
    rw [hneg]
    exact h
  · unfold spelling spell
    rw [hneg, if_pos rfl, encodeChars_append, show encodeChars ['-'] = [0x2D] from rfl,
      List.singleton_append, List.cons_append, readNumber, parts_map]
    exact h

/-- A spelling of a numeral begins with a minus or a digit. -/
theorem head_spelling (style : Style) (n : Numeral) : ∃ b s, encodeChars (n.spelling style) = b :: s ∧
    (b = 0x2D ∨ (digitOfByte? b).isSome) := by
  cases hneg : n.negative
  · obtain ⟨d, rest, hd⟩ := spelling_of_nonneg style hneg
    exact ⟨_, _, hd, .inr (by rw [digitOfByte?_digitByte]; rfl)⟩
  · unfold spelling spell
    rw [hneg]
    exact ⟨_, _, rfl, .inl rfl⟩

/-- Every spelling of a numeral is read as that numeral. -/
theorem numeralOfBytes_spelling (style : Style) (n : Numeral) :
    numeralOfBytes (encodeChars (n.spelling style)) = .ok n := by
  have hread := readNumber_spelling style n endsNumber_nil
  rw [List.append_nil] at hread
  obtain ⟨b, s, hb, hfirst⟩ := head_spelling style n
  generalize encodeChars (n.spelling style) = s' at hread hb ⊢
  subst hb
  obtain ⟨_, hread⟩ := parts_eq_ok hread
  unfold numeralOfBytes
  simp only [hread]
  rw [if_pos hfirst]
  rfl

/-- A zero in front of another digit is refused at that digit. -/
theorem numeralOfBytes_zero_digit (d : Digit) (rest : Bytes) :
    numeralOfBytes (0x30 :: digitByte d :: rest) =
      .error (Failure.resolve (0x30 :: digitByte d :: rest) ⟨.badNumber, .next (rest.length + 1)⟩) := by
  have hread : readNumber (0x30 :: digitByte d :: rest) =
      .error ⟨.badNumber, .next (rest.length + 1)⟩ := by
    show (if (digitOfByte? (digitByte d)).isSome then _ else _) = _
    rw [digitOfByte?_digitByte]
    rfl
  unfold numeralOfBytes
  simp only [hread]
  rfl

end Document
end PolicyClient
