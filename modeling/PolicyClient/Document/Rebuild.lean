/-
Documents taken apart and put together again. Everything stays as it is but the spelling of some
numbers: minus zero loses its sign, and digits that are the fewest for a double are written as
doubles are, with an exponent if the double is very small or beyond 128-bit integers. Where a
double lies halfway between two such spellings, the upper one becomes the even one.
-/
import PolicyClient.Decimal.Double
import PolicyClient.Document.Form
import PolicyClient.Document.Reader

namespace PolicyClient

/-! ## Numbers -/

namespace Numeral

/-- The first digit of a number that is not zero and all digits behind it up to the last that is not
zero. -/
def significant (n : Numeral) : List Digit :=
  let digits := (n.whole ++ n.fraction.getD []).dropWhile (· == .zero)
  (digits.reverse.dropWhile (· == .zero)).reverse

/-- The power of ten that the first significant digit of a plain number stands for. -/
def leading (n : Numeral) : Int :=
  let zeros := ((n.whole ++ n.fraction.getD []).takeWhile (· == .zero)).length
  (n.whole.length : Int) - 1 - zeros

/-- Whether a plain number may stand for a double: it is no integer of up to 128 bits, and no zero
ends its fraction. -/
def isReal (n : Numeral) : Bool :=
  match n.fraction with
  | none => (if n.negative then (1 <<< 127) + 1 else 1 <<< 128) ≤ valueOf n.whole
  | some digits => digits.getLast? != some .zero

/-- The double that a plain number spells with the fewest digits; where two spellings are equally
near, the upper one counts. -/
def double? (n : Numeral) : Option Nat :=
  let digits := valueOf n.significant
  let exponent := n.leading + 1 - n.significant.length
  if n.isReal then
    (Double.ofDecimal? digits exponent).filter fun bits =>
      bits != 0 && Double.shortest? .upper bits == some (digits, exponent)
  else none

/-- The number with another last digit behind the point. -/
def withLast (n : Numeral) (digit : Digit) : Numeral :=
  { n with
    fraction := n.fraction.map (·.dropLast ++ [digit])
    fraction_ne := by cases n.fraction <;> simp }

/-- A digit, more digits behind the point, and an exponent. -/
def scientific (negative : Bool) (first : Digit) (rest : List Digit) (exponent : Int) : Numeral :=
  { negative
    whole := [first]
    fraction := if rest = [] then none else some rest
    exponent := some (exponent < 0, digitsOf exponent.natAbs)
    whole_ne := by simp
    whole_short := by simp
    fraction_ne := by split <;> simp_all
    exponent_ne := by simp [digitsOf_ne] }

/-- A plain number as doubles are written: with an exponent if it is below 10⁻⁵ or at least 10¹⁶. -/
def layOut (n : Numeral) : Numeral :=
  if -5 ≤ n.leading ∧ n.leading < 16 then n
  else
    match n.significant with
    | first :: rest => scientific n.negative first rest n.leading
    | [] => n

/-- The spelling of a number that is put together again. -/
def rebuilt (n : Numeral) : Numeral :=
  if n.exponent ≠ none then n
  else if n.negative = true ∧ n.whole = [.zero] ∧ n.fraction = none then .ofNat 0
  else
    match n.double?.bind (Double.shortest? .even) with
    | some (digits, _) => (n.withLast (.last digits)).layOut
    | none => n

end Numeral

/-! ## Documents -/

namespace Document

/-- The number that the value of `numberKey` spells. -/
def spelledNumber : Document → Except FormError Document
  | .text value =>
    match numeralOfBytes (Utf8.encode value) with
    | .ok n => .ok (.number n)
    | .error e => .error (.spelling e)
  | d => Form.wanted "string containing a number" d

mutual

/-- The document put together again. An object whose first key is `numberKey` is a number, and has
no other member. -/
def rebuild : Document → Except FormError Document
  | .null => .ok .null
  | .bool value => .ok (.bool value)
  | .number n => .ok (.number n.rebuilt)
  | .text value => .ok (.text value)
  | .array items => (rebuildItems items).map .array
  | .object [] => .ok (.object [])
  | .object ((key, value) :: rest) =>
    if key = numberKey then do
      let number ← spelledNumber value
      if rest.isEmpty then return number else throw (.tooLong (rest.length + 1) "map")
    else do
      let value ← rebuild value
      let rest ← rebuildMembers rest
      return .object ((key, value) :: rest)

/-- The items put together again. -/
def rebuildItems : List Document → Except FormError (List Document)
  | [] => .ok []
  | d :: ds => do
    let d ← rebuild d
    let ds ← rebuildItems ds
    return d :: ds

/-- The members put together again. -/
def rebuildMembers : List (String × Document) → Except FormError (List (String × Document))
  | [] => .ok []
  | (key, d) :: rest => do
    let d ← rebuild d
    let rest ← rebuildMembers rest
    return (key, d) :: rest

end

end Document

namespace Form

/-- Any document. -/
def document : Form Document := Document.rebuild

/-- The members of an object. -/
def members : Form Members
  | .object members => Document.rebuildMembers members
  | d => wanted "a map" d

end Form
end PolicyClient
