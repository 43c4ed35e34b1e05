/-
Decimal numbers of any length: an integer and the number of its digits that stand behind the
point. A decimal is read from text by `ofText?` and written by `text`; `compare` is the order of
the values, found without writing either number out, so exponents of any size cost nothing.
-/
import PolicyClient.Decimal.Power

namespace PolicyClient

/-- The value `unscaled · 10 ^ (-scale)`; the scale is a signed 64-bit number. -/
structure Decimal where
  unscaled : Int
  scale : Int
  scale_ge : -0x8000000000000000 ≤ scale := by decide
  scale_lt : scale < 0x8000000000000000 := by decide
  deriving DecidableEq, Repr

namespace Decimal

instance : Inhabited Decimal := ⟨⟨0, 0, by decide, by decide⟩⟩

/-- The decimal with a given scale, if the scale fits. -/
def ofScaled? (unscaled scale : Int) : Option Decimal :=
  if h : -0x8000000000000000 ≤ scale ∧ scale < 0x8000000000000000 then
    some ⟨unscaled, scale, h.1, h.2⟩
  else none

/-- An integer as a decimal without fraction. -/
def ofInt (n : Int) : Decimal :=
  ⟨n, 0, by decide, by decide⟩

/-! ## Reading -/

/-- The value of decimal digits; an underscore between digits is skipped, and at least one
digit comes first. -/
def natOfDigits? : List Char → Option Nat
  | [] => none
  | '_' :: _ => none
  | s => s.foldlM (fun n c =>
      if c = '_' then some n else if c.isDigit then some (10 * n + (c.toNat - 48)) else none) 0

/-- An integer with an optional sign. -/
def intOfText? : List Char → Option Int
  | '-' :: s => (natOfDigits? s).map fun n => -(n : Int)
  | '+' :: s => (natOfDigits? s).map fun n => (n : Int)
  | s => (natOfDigits? s).map fun n => (n : Int)

/-- An exponent has digits only behind its sign. -/
def exponentOfText? (s : List Char) : Option Int :=
  if s.contains '_' then none else intOfText? s

/-- The mantissa before an `e` or `E` and the exponent behind it. -/
def splitExponent? (s : List Char) : Option (List Char × Int) :=
  match s.span (fun c => c != 'e' && c != 'E') with
  | (mantissa, []) => some (mantissa, 0)
  | (mantissa, _ :: exponent) => (exponentOfText? exponent).map (mantissa, ·)

/-- The digits of a mantissa without its point, and how many of them follow the point. -/
def splitPoint (mantissa : List Char) : List Char × Nat :=
  match mantissa.span (· != '.') with
  | (whole, []) => (whole, 0)
  | (whole, _ :: fraction) => (whole ++ fraction, (fraction.filter (· != '_')).length)

/-- Reads an optional sign, digits with at most one point, and an optional exponent. -/
def ofText? (s : String) : Option Decimal := do
  let (mantissa, exponent) ← splitExponent? s.toList
  let (digits, places) := splitPoint mantissa
  let unscaled ← intOfText? digits
  ofScaled? unscaled (places - exponent)

/-! ## Writing -/

/-- More padding zeros than this are written as an exponent. -/
def maxPadding : Nat := 32

/-- The digits of a natural number in base ten. -/
def digitsOf (n : Nat) : List Char :=
  Nat.toDigits 10 n

/-- Digits with their point placed `scale` digits from the right. -/
def layout (digits : List Char) (scale : Int) : List Char :=
  let places := scale.natAbs
  if scale ≤ 0 then
    if maxPadding < places then digits ++ 'e' :: digitsOf places
    else digits ++ List.replicate places '0'
  else if places < digits.length then
    digits.take (digits.length - places) ++ '.' :: digits.drop (digits.length - places)
  else if maxPadding < places - digits.length then digits ++ 'e' :: '-' :: digitsOf places
  else '0' :: '.' :: (List.replicate (places - digits.length) '0' ++ digits)

/-- The exact text of a decimal: the zeros of its scale are kept. -/
def text (d : Decimal) : String :=
  String.ofList
    ((if d.unscaled < 0 then ['-'] else []) ++ layout (digitsOf d.unscaled.natAbs) d.scale)

/-- How a decimal is named in a message: a zero has no scale there. -/
def label (d : Decimal) : String :=
  if d.unscaled = 0 then "0" else d.text

/-! ## Order -/

/-- The order of two positive magnitudes `a · 10 ^ (-s)` and `b · 10 ^ (-t)`. The position of the
first digit decides; where it is the same, the shorter number takes a few zeros. -/
def compareMagnitude (a : Nat) (s : Int) (b : Nat) (t : Int) : Ordering :=
  let first (n : Nat) (scale : Int) : Int := (digitsOf n).length - scale
  match Ord.compare (first a s) (first b t) with
  | .eq => Ord.compare (a * tenPow (t - s).toNat) (b * tenPow (s - t).toNat)
  | decided => decided

/-- The order of the values. -/
protected def compare (x y : Decimal) : Ordering :=
  match Ord.compare x.unscaled.sign y.unscaled.sign with
  | .eq =>
    if x.unscaled = 0 then .eq
    else if 0 < x.unscaled then
      compareMagnitude x.unscaled.natAbs x.scale y.unscaled.natAbs y.scale
    else compareMagnitude y.unscaled.natAbs y.scale x.unscaled.natAbs x.scale
  | decided => decided

/-- Equality of the values, however they are written. -/
def same (x y : Decimal) : Bool :=
  x.compare y == .eq

end Decimal
end PolicyClient
