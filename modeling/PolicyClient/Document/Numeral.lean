/-
Numbers of documents as they are spelled: digits are kept, so `1.50` and `1.5` are two numerals
of one value. Only two spellings are merged on reading: the exponent is marked by a small `e`, and
it always has a sign.
-/
import PolicyClient.Decimal

namespace PolicyClient

/-- A decimal digit. -/
abbrev Digit := Fin 10

theorem Digit.bound_pos : 0 < 10 := by decide

/-- The digit of the number zero. -/
def Digit.zero : Digit :=
  ⟨0, Digit.bound_pos⟩

/-- The last digit of a natural number. -/
def Digit.last (n : Nat) : Digit :=
  ⟨n % 10, Nat.mod_lt n Digit.bound_pos⟩

/-- The spelling of a number: whole part, digits behind the point, and an exponent with its sign.
The whole part has no needless zero in front, and no part that is present is empty. -/
structure Numeral where
  negative : Bool
  whole : List Digit
  fraction : Option (List Digit)
  exponent : Option (Bool × List Digit)
  whole_ne : whole ≠ [] := by decide
  whole_short : whole.head? = some .zero → whole.length = 1 := by decide
  fraction_ne : fraction ≠ some [] := by decide
  exponent_ne : ∀ e ∈ exponent, e.2 ≠ [] := by decide
  deriving DecidableEq, Repr

namespace Numeral

/-! ## Digits -/

/-- The character of a digit. -/
def digitChar (d : Digit) : Char :=
  Char.ofNat (48 + d)

/-- The digit that a byte stands for. -/
def digitOfByte? (b : UInt8) : Option Digit :=
  if h : 48 ≤ b.toNat ∧ b.toNat < 58 then some ⟨b.toNat - 48, by omega⟩ else none

/-- The digits at the start of the bytes, and what follows them. -/
def takeDigits : List UInt8 → List Digit × List UInt8
  | [] => ([], [])
  | b :: rest =>
    match digitOfByte? b with
    | some d => (d :: (takeDigits rest).1, (takeDigits rest).2)
    | none => ([], b :: rest)

theorem takeDigits_length (s : List UInt8) :
    (takeDigits s).1.length + (takeDigits s).2.length = s.length := by
  induction s with
  | nil => rfl
  | cons b rest ih =>
    unfold takeDigits
    split
    · simp only [List.length_cons]
      omega
    · simp

/-! ## Text -/

/-- The characters of a numeral. -/
def chars (n : Numeral) : List Char :=
  (if n.negative then ['-'] else []) ++ n.whole.map digitChar ++
    (match n.fraction with
      | none => []
      | some digits => '.' :: digits.map digitChar) ++
    (match n.exponent with
      | none => []
      | some (negative, digits) => 'e' :: (if negative then '-' else '+') :: digits.map digitChar)

/-- The text of a numeral. -/
def text (n : Numeral) : String :=
  String.ofList n.chars

/-! ## Natural numbers -/

/-- The value of a run of digits. -/
def valueOf (digits : List Digit) : Nat :=
  digits.foldl (fun n d => 10 * n + d.val) 0

/-- The natural number that is spelled without sign, fraction and exponent. -/
def nat? (n : Numeral) : Option Nat :=
  if n.negative = false ∧ n.fraction = none ∧ n.exponent = none then some (valueOf n.whole)
  else none

/-- The 64-bit word that is spelled without sign, fraction and exponent. -/
def word? (n : Numeral) : Option UInt64 :=
  n.nat?.bind fun k => if k < UInt64.size then some (UInt64.ofNat k) else none

/-- The digits of a natural number, most significant first. -/
def digitsOf (n : Nat) : List Digit :=
  if n < 10 then [Digit.last n] else digitsOf (n / 10) ++ [Digit.last n]

theorem digitsOf_of_lt {n : Nat} (h : n < 10) : digitsOf n = [Digit.last n] := by
  rw [digitsOf, if_pos h]

theorem digitsOf_of_le {n : Nat} (h : 10 ≤ n) :
    digitsOf n = digitsOf (n / 10) ++ [Digit.last n] := by
  rw [digitsOf, if_neg (Nat.not_lt.2 h)]

theorem digitsOf_ne (n : Nat) : digitsOf n ≠ [] := by
  unfold digitsOf
  split <;> simp

theorem digitsOf_head_eq {n : Nat} (h : 10 ≤ n) :
    (digitsOf n).head? = (digitsOf (n / 10)).head? := by
  rw [digitsOf_of_le h, List.head?_append]
  cases hd : digitsOf (n / 10) with
  | nil => exact absurd hd (digitsOf_ne _)
  | cons d ds => rfl

theorem digitsOf_head_ne_zero (n : Nat) (h : 0 < n) : (digitsOf n).head? ≠ some .zero := by
  induction n using Nat.strongRecOn with
  | _ n ih =>
    by_cases hn : n < 10
    · rw [digitsOf_of_lt hn, List.head?_cons]
      intro hz
      have := congrArg Fin.val (Option.some.inj hz)
      simp only [Digit.last, Digit.zero] at this
      omega
    · rw [digitsOf_head_eq (Nat.not_lt.1 hn)]
      exact ih (n / 10) (by omega) (by omega)

/-- A zero in front stands alone. -/
theorem digitsOf_head (n : Nat) (h : (digitsOf n).head? = some .zero) :
    (digitsOf n).length = 1 := by
  by_cases hn : 0 < n
  · exact absurd h (digitsOf_head_ne_zero n hn)
  · rw [digitsOf_of_lt (by omega)]
    rfl

/-- The plain spelling of a natural number. -/
def ofNat (n : Nat) : Numeral :=
  ⟨false, digitsOf n, none, none, digitsOf_ne n, digitsOf_head n, by decide, by decide⟩

/-- The decimal that a numeral spells, if its scale fits. -/
def decimal? (n : Numeral) : Option Decimal :=
  Decimal.ofText? n.text

end Numeral
end PolicyClient
