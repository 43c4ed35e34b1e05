/-
Doubles: the numbers that 64 bits hold. A ratio is rounded once, to the nearest double and on a tie
to the even one; `shortest` finds the fewest decimal digits that are rounded back to a double, and
of several the nearest.
-/
import PolicyClient.Decimal.Power

namespace PolicyClient.Double

/-- The bit in front of the 52 that a normal double stores. -/
def hiddenBit : Nat := 0x10000000000000

/-! ## Rounding -/

/-- The quotient rounded to the nearest integer, a tie to the even neighbour. -/
def roundDiv (num den : Nat) : Nat :=
  let floor := num / den
  let twice := 2 * (num % den)
  if twice < den then floor
  else if den < twice then floor + 1
  else floor + floor % 2

/-- The numerator and denominator of `num / den · 2 ^ (-q)`. -/
def scaleBy (num den : Nat) (q : Int) : Nat × Nat :=
  (num <<< (-q).toNat, den <<< q.toNat)

/-- The exponent of the last bit that a double keeps of `num / den`. -/
def lastBit (num den : Nat) : Int :=
  let guess : Int := (num.log2 : Int) - den.log2 - 53
  let (n, d) := scaleBy num den guess
  let exponent := if 2 * hiddenBit ≤ n / d then guess + 1 else guess
  max exponent (-1074)

/-- The bits of the double nearest to `num / den`, if it is finite. -/
def ofRatio? (num den : Nat) : Option Nat :=
  let q := lastBit num den
  let (n, d) := scaleBy num den q
  let bits := (q + 1074).toNat * hiddenBit + roundDiv n d
  if bits < 0x7FF0000000000000 then some bits else none

/-- The numerator and denominator of `digits · 10 ^ exponent`. -/
def ratioOf (digits : Nat) (exponent : Int) : Nat × Nat :=
  (digits * tenPow exponent.toNat, tenPow (-exponent).toNat)

/-- The bits of the double nearest to `digits · 10 ^ exponent`, if it is finite. Numbers far out of
range are not written out. -/
def ofDecimal? (digits : Nat) (exponent : Int) : Option Nat :=
  let size : Int := (Nat.toDigits 10 digits).length + exponent
  if digits = 0 ∨ size < -330 then some 0
  else if 310 < size then none
  else ofRatio? (ratioOf digits exponent).1 (ratioOf digits exponent).2

/-! ## Shortest digits -/

/-- The numerator and denominator of a double. -/
def toRatio (bits : Nat) : Nat × Nat :=
  if bits < hiddenBit then (bits, 1 <<< 1074)
  else
    let q : Int := (bits / hiddenBit : Nat) - 1075
    ((bits % hiddenBit + hiddenBit) <<< q.toNat, 1 <<< (-q).toNat)

/-- The least power of ten above a ratio. -/
def magnitude (num den : Nat) : Int :=
  let guess : Int := (Nat.toDigits 10 num).length - (Nat.toDigits 10 den).length
  if num * tenPow (-guess).toNat < den * tenPow guess.toNat then guess else guess + 1

/-- Which of two neighbours is taken where a value lies halfway between them. -/
inductive Tie
  | even
  | upper
  deriving DecidableEq, Repr

/-- Whether the lower neighbour is taken for a value that lies halfway. -/
def Tie.isLower (tie : Tie) (below : Nat) : Bool :=
  match tie with
  | .even => below % 2 == 0
  | .upper => false

/-- The neighbour of a double on the grid of `10 ^ exponent` that is rounded back to it; of two the
nearer. -/
def neighbour? (tie : Tie) (bits : Nat) (exponent : Int) : Option Nat :=
  let (num, den) := toRatio bits
  let num := num * tenPow (-exponent).toNat
  let den := den * tenPow exponent.toNat
  let below := num / den
  let hits (digits : Nat) : Bool := ofDecimal? digits exponent == some bits
  let nearer := match Ord.compare (2 * (num % den)) den with
    | .lt => true
    | .eq => tie.isLower below
    | .gt => false
  if hits below && (nearer || !hits (below + 1)) then some below
  else if hits (below + 1) then some (below + 1)
  else none

/-- The fewest digits that are rounded back to a double that is not zero, as a natural number and a
power of ten. A double just below a power of ten may have that power for its one digit. -/
def shortest? (tie : Tie) (bits : Nat) : Option (Nat × Int) :=
  let (num, den) := toRatio bits
  let top := magnitude num den
  (List.range 17).findSome? fun (k : Nat) =>
    (neighbour? tie bits (top - (k + 1))).map fun digits =>
      if digits = 10 then (1, top - k) else (digits, top - (k + 1))

end PolicyClient.Double
