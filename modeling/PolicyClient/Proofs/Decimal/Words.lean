/-
The text of a decimal on a machine, where every number has to fit a word of 64 bits or an address.
`machineText?` lays the digits out with each step checked: none leaves its range, none falls below
zero, and the digits are cut strictly inside (`machineText?_eq`). The text has a few characters more
than the digits, whatever the scale, so the number that was read bounds what is written for it.
-/
import PolicyClient.Proofs.Fallible
import PolicyClient.Proofs.Query.Grammar
import PolicyClient.Proofs.Term.Number
import PolicyClient.Proofs.Text.Slice
import PolicyClient.Term.Render

namespace PolicyClient

namespace Decimal

/-! ## Checked steps -/

/-- How many bits an address has. -/
inductive Width
  | bits16
  | bits32
  | bits64

/-- How many addresses there are. A text in memory is shorter than that. -/
def Width.addresses : Width → Nat
  | .bits16 => 2 ^ 16
  | .bits32 => 2 ^ 32
  | .bits64 => 2 ^ 64

/-- How many numbers a word holds. -/
def wordLimit : Nat := 2 ^ 64

/-- A number that fits below a limit. -/
def below? (limit n : Nat) : Option Nat :=
  if n < limit then some n else none

/-- A difference that is not below zero. -/
def minus? (a b : Nat) : Option Nat :=
  if b ≤ a then some (a - b) else none

/-- As many zeros as an address counts. -/
def zeros? (width : Width) (count : Nat) : Option String :=
  (below? width.addresses count).map fun count => String.ofList (List.replicate count '0')

/-- Digits cut at a byte position strictly inside them. -/
def cutInside? (digits : String) (position : Nat) : Option (String × String) :=
  if 0 < position ∧ position < digits.utf8ByteSize then do
    let whole ← Text.slice? digits 0 position
    let fraction ← Text.slice? digits position digits.utf8ByteSize
    return (whole, fraction)
  else none

/-! ## The layout on a machine -/

/-- `layout` with every step checked. -/
def machineLayout? (width : Width) (digits : String) (scale : Int) : Option String := do
  let size ← below? width.addresses digits.utf8ByteSize
  let places ← below? wordLimit scale.natAbs
  if scale ≤ 0 then
    if maxPadding < places then return digits ++ "e" ++ String.ofList (digitsOf places)
    else return digits ++ (← zeros? width places)
  else
    let length ← below? wordLimit size
    if places < length then
      let position ← minus? length places
      let (whole, fraction) ← cutInside? digits (← below? width.addresses position)
      return whole ++ "." ++ fraction
    else
      let padding ← minus? places length
      if maxPadding < padding then return digits ++ "e-" ++ String.ofList (digitsOf places)
      else return "0." ++ (← zeros? width padding) ++ digits

/-- `text` with every step checked. -/
def machineText? (width : Width) (d : Decimal) : Option String :=
  (machineLayout? width (String.ofList (digitsOf d.unscaled.natAbs)) d.scale).map fun digits =>
    (if d.unscaled < 0 then "-" else "") ++ digits

theorem addresses_le (width : Width) : width.addresses ≤ wordLimit := by
  cases width <;> decide

theorem maxPadding_lt_addresses (width : Width) : maxPadding < width.addresses := by
  cases width <;> decide

theorem below?_of_lt {limit n : Nat} (h : n < limit) : below? limit n = some n :=
  if_pos h

theorem minus?_of_le {a b : Nat} (h : b ≤ a) : minus? a b = some (a - b) :=
  if_pos h

theorem zeros?_of_le (width : Width) {count : Nat} (h : count ≤ maxPadding) :
    zeros? width count = some (String.ofList (List.replicate count '0')) := by
  unfold zeros?
  rw [below?_of_lt (Nat.lt_of_le_of_lt h (maxPadding_lt_addresses width))]
  rfl

/-! ### Bytes of digits -/

theorem utf8Size_of_mem_digitsOf {n : Nat} : ∀ c ∈ digitsOf n, c.utf8Size = 1 := by
  have hdigit : ∀ d : Digit, (Numeral.digitChar d).utf8Size = 1 := by decide
  intro c hc
  rw [digitsOf_eq_map] at hc
  obtain ⟨d, -, rfl⟩ := List.mem_map.1 hc
  exact hdigit d

variable {cs : List Char} {scale : Int}

theorem cutInside?_of_lt (h : ∀ c ∈ cs, c.utf8Size = 1) {position : Nat} (hpos : 0 < position)
    (hlt : position < cs.length) : cutInside? (String.ofList cs) position =
      some (String.ofList (cs.take position), String.ofList (cs.drop position)) := by
  have hcs : String.ofList cs =
      String.ofList (cs.take position) ++ String.ofList (cs.drop position) := by
    rw [← String.ofList_append, List.take_append_drop]
  have htake : (String.ofList (cs.take position)).utf8ByteSize = position := by
    rw [Text.utf8ByteSize_ofList fun c hc => h c (List.mem_of_mem_take hc), List.length_take]
    omega
  have hwhole : Text.slice? (String.ofList cs) 0 position =
      some (String.ofList (cs.take position)) :=
    Text.slice?_eq_some_iff.2 ⟨"", _, hcs, rfl, htake⟩
  have hfraction : Text.slice? (String.ofList cs) position (String.ofList cs).utf8ByteSize =
      some (String.ofList (cs.drop position)) :=
    Text.slice?_eq_some_iff.2 ⟨_, "", by rw [String.append_empty]; exact hcs, htake, by rw [← hcs]⟩
  unfold cutInside?
  rw [if_pos ⟨hpos, by rwa [Text.utf8ByteSize_ofList h]⟩, hwhole, hfraction]
  rfl

/-! ### No step fails -/

/-- The layout fails only for digits that are no text of the machine. -/
theorem machineLayout?_eq (width : Width) (h : ∀ c ∈ cs, c.utf8Size = 1)
    (hscale : scale.natAbs < wordLimit) : machineLayout? width (String.ofList cs) scale =
      if cs.length < width.addresses then some (String.ofList (layout cs scale)) else none := by
  unfold machineLayout? layout
  rw [Text.utf8ByteSize_ofList h]
  by_cases hfits : cs.length < width.addresses
  · have hlength : cs.length < wordLimit := Nat.lt_of_lt_of_le hfits (addresses_le width)
    simp only [below?_of_lt hfits, below?_of_lt hlength, below?_of_lt hscale, if_pos hfits,
      Option.bind_eq_bind, Option.bind_some]
    split_ifs with hsign hexponent hinside hpadding
    · exact congrArg some (String.toList_inj.1 (by simp))
    · rw [zeros?_of_le width (Nat.not_lt.1 hexponent)]
      exact congrArg some String.ofList_append.symm
    · -- the cut lies behind the first digit, since there are places, and before the last of them
      have hcut := cutInside?_of_lt h (show 0 < cs.length - scale.natAbs by omega) (by omega)
      rw [minus?_of_le hinside.le, Option.bind_some, below?_of_lt (by omega), Option.bind_some, hcut]
      exact congrArg some (String.toList_inj.1 (by simp))
    · rw [minus?_of_le (Nat.not_lt.1 hinside), Option.bind_some, if_pos hpadding]
      exact congrArg some (String.toList_inj.1 (by simp))
    · rw [minus?_of_le (Nat.not_lt.1 hinside), Option.bind_some, if_neg hpadding,
        zeros?_of_le width (Nat.not_lt.1 hpadding)]
      exact congrArg some (String.toList_inj.1 (by simp))
  · rw [if_neg hfits, show below? width.addresses cs.length = none from if_neg hfits]; rfl

theorem natAbs_scale_le (d : Decimal) : d.scale.natAbs ≤ 2 ^ 63 := by
  have := d.scale_ge
  have := d.scale_lt
  omega

/-- The text fails only for digits that are no text of the machine. -/
theorem machineText?_eq (width : Width) (d : Decimal) :
    d.machineText? width =
      if (digitsOf d.unscaled.natAbs).length < width.addresses then some d.text else none := by
  unfold machineText? text
  rw [machineLayout?_eq width utf8Size_of_mem_digitsOf
    (Nat.lt_of_le_of_lt d.natAbs_scale_le (by decide))]
  by_cases hfits : (digitsOf d.unscaled.natAbs).length < width.addresses
  · rw [if_pos hfits, if_pos hfits, Option.map_some, String.ofList_append]
    split_ifs <;> rfl
  · rw [if_neg hfits, if_neg hfits]; rfl

/-! ## Lengths -/

/-- Thirty-two zeros and a point with a zero before it are the most that a layout adds; an exponent
has nineteen digits at most. -/
theorem length_layout_le (cs : List Char) (h : scale.natAbs ≤ 2 ^ 63) :
    (layout cs scale).length ≤ cs.length + 34 := by
  have hexponent : (digitsOf scale.natAbs).length ≤ 19 :=
    length_digitsOf_le (by decide) (Nat.lt_of_le_of_lt h (by decide))
  unfold layout maxPadding
  dsimp only
  split_ifs <;> simp only [List.length_append, List.length_cons, List.length_replicate,
    List.length_take, List.length_drop] <;> omega

/-- The sign and the digits of the integer of a decimal. -/
def integerChars (d : Decimal) : List Char :=
  (if d.unscaled < 0 then ['-'] else []) ++ digitsOf d.unscaled.natAbs

theorem length_text_le (d : Decimal) : d.text.length ≤ d.integerChars.length + 34 := by
  have := length_layout_le (digitsOf d.unscaled.natAbs) d.natAbs_scale_le
  unfold text integerChars
  rw [String.length_ofList, List.length_append, List.length_append]
  omega

/-- A number that is read has no more digits than its spelling, and a sign only if that has one. -/
theorem length_integerChars_le {n : Numeral} {d : Decimal} (h : n.decimal? = some d)
    (style : Numeral.Style) : d.integerChars.length ≤ (n.spelling style).length := by
  obtain ⟨hunscaled, -⟩ := Numeral.parts_of_decimal? h
  generalize hds : n.whole ++ n.fraction.getD [] = ds at hunscaled
  have hdigits : (digitsOf d.unscaled.natAbs).length ≤ ds.length := by
    have hne : 0 < ds.length := List.length_pos_of_ne_nil (by rw [← hds]; simp [n.whole_ne])
    have hvalue : d.unscaled.natAbs = Numeral.valueOf ds := by
      rw [hunscaled, signed]
      split_ifs <;> omega
    rw [hvalue]
    exact length_digitsOf_le hne (Numeral.valueOf_lt ds)
  have hsign : d.unscaled < 0 → n.negative = true := by
    intro hneg
    by_contra hpos
    rw [hunscaled, signed, if_neg hpos] at hneg
    omega
  have hfraction : ds.length ≤ n.whole.length + (Numeral.fractionChars n.fraction).length := by
    rw [← hds, List.length_append]
    cases n.fraction with
    | none => exact Nat.le_refl _
    | some fraction => simp [Numeral.fractionChars]
  rw [integerChars, List.length_append, Numeral.length_spelling]
  split_ifs with hneg
  · rw [hsign hneg, List.length_singleton, Bool.toNat_true]; omega
  · rw [List.length_nil]; omega

/-- Two spellings of an exponent differ by a plus at most. -/
theorem length_exponentChars_le (style style' : Numeral.Style) (exponent : Option (Bool × List Digit)) :
    (Numeral.exponentChars style exponent).length ≤
      (Numeral.exponentChars style' exponent).length + 1 := by
  rcases exponent with _ | ⟨negative, ds⟩
  · exact Nat.zero_le _
  · have hsign : (style.sign negative).length ≤ 1 := by
      unfold Numeral.Style.sign
      split_ifs <;> decide
    unfold Numeral.exponentChars
    rw [List.length_cons, List.length_cons, List.length_append, List.length_append]
    omega

theorem length_numeral_le {d : Decimal} {n : Numeral} (h : d.numeral = .ok n) :
    n.text.length ≤ d.text.length + 1 := by
  obtain ⟨m, htext⟩ := exists_numeral_of_not_isPaddedZero ((numeral_eq_ok_iff d).1 ⟨n, h⟩)
  have hm : m = n := by
    unfold numeral at h
    rw [htext, Utf8.encode_ofList, Document.numeralOfBytes_spelling] at h
    exact Except.ok.inj h
  subst hm
  have := length_exponentChars_le ⟨false, true⟩ style m.exponent
  rw [htext, Numeral.text, Numeral.chars_eq_spelling, String.length_ofList, String.length_ofList,
    Numeral.length_spelling, Numeral.length_spelling]
  omega

end Decimal

/-- No step of the layout leaves the numbers of a machine or cuts the digits at one of their ends: it
fails only for digits that are themselves too long for the machine. The text has at most thirty-six
characters more than the integer of the decimal, so the rendering and the encoding of a number that
was read are not much longer than its spelling, whatever its exponent. -/
theorem text_fits_words (d : Decimal) :
    (∀ width : Decimal.Width, d.machineText? width =
      if (Decimal.digitsOf d.unscaled.natAbs).length < width.addresses then some d.text else none) ∧
    d.text.length ≤ d.integerChars.length + 36 ∧
    ∀ (n : Numeral) (style : Numeral.Style), n.decimal? = some d →
      (Term.numeric d).render.length ≤ (n.spelling style).length + 36 ∧
      ∀ doc, (Term.numeric d).toDocument = .ok doc → ∃ m : Numeral,
        doc = Term.tagged "number" (.number m) ∧ m.text.length ≤ (n.spelling style).length + 36 := by
  have htext := d.length_text_le
  refine ⟨fun width => d.machineText?_eq width, by omega, fun n style hn => ?_⟩
  have hread := Decimal.length_integerChars_le hn style
  constructor
  · rw [Term.render]; omega
  · intro doc hdoc
    rw [Term.toDocument] at hdoc
    obtain ⟨m, hm, rfl⟩ := Fallible.map_eq_ok.1 hdoc
    have := Decimal.length_numeral_le hm
    exact ⟨m, rfl, by omega⟩

/-- The largest exponent that is read. -/
theorem text_fits_words_largest_exponent :
    ∃ (n : Numeral) (d : Decimal), n.decimal? = some d ∧ d.scale = -0x8000000000000000 ∧
      (n.spelling Decimal.style).length = 21 ∧ (Term.numeric d).render.length ≤ 57 ∧
      ∀ width : Decimal.Width, d.machineText? width = some "1e9223372036854775808" := by
  let n : Numeral := ⟨false, [.last 1], none, some (false, [.last 9, .last 2, .last 2, .last 3, .last 3,
    .last 7, .last 2, .zero, .last 3, .last 6, .last 8, .last 5, .last 4, .last 7, .last 7, .last 5,
    .last 8, .zero, .last 8]), by decide, by decide, by decide, by decide⟩
  let d : Decimal := ⟨1, -0x8000000000000000, by decide, by decide⟩
  have hn : n.decimal? = some d := by
    rw [Numeral.decimal?_eq_ofScaled?]; rfl
  have htext : d.text = "1e9223372036854775808" := by decide +kernel
  obtain ⟨hmachine, -, hread⟩ := text_fits_words d
  refine ⟨n, d, hn, rfl, rfl, (hread n Decimal.style hn).1, fun width => ?_⟩
  rw [hmachine, htext, if_pos]
  cases width <;> decide

end PolicyClient
