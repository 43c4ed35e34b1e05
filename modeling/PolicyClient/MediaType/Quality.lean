/-
Quality values: numbers written in decimal and held as IEEE 754 doubles. The text is read exactly
and rounded once, to the nearest double and on a tie to the even one.
-/
import PolicyClient.Decimal.Double
import PolicyClient.Text.Blank

namespace PolicyClient

/-- A double: the bits of its magnitude and its sign, or none at all. -/
inductive Quality
  | finite (negative : Bool) (magnitude : Nat)
  | infinite (negative : Bool)
  | nan
  deriving DecidableEq, Repr

namespace Quality

/-! ## Reading -/

/-- The double nearest to `digits · 10 ^ exponent`. -/
def ofScaled (negative : Bool) (digits : Nat) (exponent : Int) : Quality :=
  match Double.ofDecimal? digits exponent with
  | some bits => .finite negative bits
  | none => .infinite negative

/-- The value of decimal digits, of which there may be none. -/
def natOf (digits : List Char) : Nat :=
  digits.foldl (fun n c => 10 * n + (c.toNat - 48)) 0

/-- A text without its sign, and whether that was a minus. -/
def splitSign : List Char → Bool × List Char
  | '-' :: s => (true, s)
  | '+' :: s => (false, s)
  | s => (false, s)

/-- The exponent at the end of a number: nothing, or `e`, a sign and digits. -/
def exponentOf? : List Char → Option Int
  | [] => some 0
  | c :: s =>
    let (negative, digits) := splitSign s
    if (c = 'e' ∨ c = 'E') ∧ digits ≠ [] ∧ digits.all Char.isDigit then
      some (if negative then -(natOf digits : Int) else natOf digits)
    else none

/-- A number without its sign: digits with at most one point, and an exponent. -/
def unsigned? (negative : Bool) (s : List Char) : Option Quality :=
  let (whole, s) := s.span Char.isDigit
  let (fraction, s) :=
    match s with
    | '.' :: s => s.span Char.isDigit
    | s => ([], s)
  if whole = [] ∧ fraction = [] then none
  else (exponentOf? s).map fun exponent =>
    ofScaled negative (natOf (whole ++ fraction)) (exponent - fraction.length)

/-- The words for values that are no numbers. -/
def word? (negative : Bool) (s : List Char) : Option Quality :=
  let word := Text.lower s
  if word = "nan" then some .nan
  else if word = "inf" ∨ word = "infinity" then some (.infinite negative)
  else none

/-- The value that a text spells. -/
def ofText? (text : String) : Option Quality :=
  let (negative, s) := splitSign text.toList
  (unsigned? negative s).or (word? negative s)

/-! ## Range and bits -/

/-- The value one. -/
def one : Quality :=
  .finite false 0x3FF0000000000000

/-- From zero to one, where minus zero counts as zero. -/
def inRange : Quality → Bool
  | .finite negative magnitude =>
    magnitude == 0 || (!negative && magnitude ≤ 0x3FF0000000000000)
  | _ => false

/-- The 64 bits of the value. -/
def bits : Quality → Nat
  | .finite negative magnitude => (if negative then 0x8000000000000000 else 0) + magnitude
  | .infinite negative => (if negative then 0x8000000000000000 else 0) + 0x7FF0000000000000
  | .nan => 0x7FF8000000000000

end Quality
end PolicyClient
