/-
White space and letter case in text. `isBlank` is Unicode's White_Space property; `trim` removes
it from both ends of a text and leaves the middle alone. Names of headers and parameters are
compared by `sameName`, which looks through the case of ASCII letters only.
-/
namespace PolicyClient.Text

/-! ## White space -/

/-- The White_Space property of Unicode. -/
def isBlank (c : Char) : Bool :=
  let n := c.toNat
  (9 ≤ n && n ≤ 13) || n == 0x20 || n == 0x85 || n == 0xA0 || n == 0x1680 ||
    (0x2000 ≤ n && n ≤ 0x200A) || n == 0x2028 || n == 0x2029 || n == 0x202F || n == 0x205F ||
    n == 0x3000

/-- What is left after the longest run at the end that satisfies `p` is dropped. -/
def dropEndWhile {α : Type} (p : α → Bool) (s : List α) : List α :=
  (s.reverse.dropWhile p).reverse

/-- The text without white space at its two ends. -/
def trim (s : List Char) : List Char :=
  dropEndWhile isBlank (s.dropWhile isBlank)

/-! ## Letter case -/

/-- Equality of names up to the case of ASCII letters. -/
def sameName (a b : String) : Bool :=
  a.toList.map Char.toLower == b.toList.map Char.toLower

/-- The text with its ASCII letters in lower case. -/
def lower (s : List Char) : String :=
  String.ofList (s.map Char.toLower)

/-! ## Cutting -/

/-- The parts before and after the first occurrence of `c`, if there is one. -/
def splitFirst? (c : Char) (s : List Char) : Option (List Char × List Char) :=
  match s.span (· != c) with
  | (_, []) => none
  | (before, _ :: after) => some (before, after)

/-- The texts with `separator` between each two neighbours. -/
def join (separator : String) (parts : List String) : String :=
  String.intercalate separator parts

end PolicyClient.Text
