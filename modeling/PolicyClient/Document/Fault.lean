/-
What can be wrong with the text of a document, and where. A place is kept as the number of bytes
that lie behind it; `Place.resolve` turns it into a line and a column once the whole text is at
hand. Lines are counted from one, columns are the bytes of the line up to the place.
-/
import PolicyClient.Text.Utf8

namespace PolicyClient.Document

/-! ## Faults -/

/-- The ways in which bytes fail to be a document. -/
inductive Fault
  | endInValue
  | endInString
  | endInList
  | endInObject
  | noValue
  | unknownWord
  | badNumber
  | badEscape
  | controlCharacter
  | loneSurrogate
  | cutSurrogate
  | notUtf8
  | noListEnd
  | noObjectEnd
  | keyNotText
  | noColon
  | trailingComma
  | trailingCharacters
  | tooDeep
  | mismatch (found expected : String)
  deriving DecidableEq, Repr

/-- The wording of a fault. -/
def Fault.message : Fault → String
  | .endInValue => "EOF while parsing a value"
  | .endInString => "EOF while parsing a string"
  | .endInList => "EOF while parsing a list"
  | .endInObject => "EOF while parsing an object"
  | .noValue => "expected value"
  | .unknownWord => "expected ident"
  | .badNumber => "invalid number"
  | .badEscape => "invalid escape"
  | .controlCharacter => "control character (\\u0000-\\u001F) found while parsing a string"
  | .loneSurrogate => "lone leading surrogate in hex escape"
  | .cutSurrogate => "unexpected end of hex escape"
  | .notUtf8 => "invalid unicode code point"
  | .noListEnd => "expected `,` or `]`"
  | .noObjectEnd => "expected `,` or `\x7d`"
  | .keyNotText => "key must be a string"
  | .noColon => "expected `:`"
  | .trailingComma => "trailing comma"
  | .trailingCharacters => "trailing characters"
  | .tooDeep => "recursion limit exceeded"
  | .mismatch found expected => "invalid type: " ++ found ++ ", expected " ++ expected

/-! ## Places -/

/-- Where a fault shows: behind the bytes taken so far, at the byte that comes next, or at a
place of another text. -/
inductive Place
  | taken (left : Nat)
  | next (left : Nat)
  | fixed (line column : Nat)
  deriving DecidableEq, Repr

/-- A fault at a place of a text still being read. -/
structure Failure where
  fault : Fault
  place : Place
  deriving DecidableEq, Repr

/-- A fault with its line and column. -/
structure ReadError where
  fault : Fault
  line : Nat
  column : Nat
  deriving DecidableEq, Repr

/-- The message of an error, with its place. -/
def ReadError.message (e : ReadError) : String :=
  e.fault.message ++ s!" at line {e.line} column {e.column}"

/-- The line and column behind the first `taken` bytes. -/
def lineColumn (text : Bytes) (taken : Nat) : Nat × Nat :=
  let before := text.take taken
  (before.count 10 + 1, (before.reverse.takeWhile (· != 10)).length)

/-- The line and column of a place. The byte that comes next counts as taken, if there is one. -/
def Place.resolve (text : Bytes) : Place → Nat × Nat
  | .taken left => lineColumn text (text.length - left)
  | .next left => lineColumn text (text.length - (left - 1))
  | .fixed line column => (line, column)

/-- The error that a failure amounts to in a text. -/
def Failure.resolve (text : Bytes) (f : Failure) : ReadError :=
  ⟨f.fault, (f.place.resolve text).1, (f.place.resolve text).2⟩

/-! ## Places inside messages -/

/-- The decimal digits at the start of a text, and what follows them. -/
def spanDigits (s : List Char) : List Char × List Char :=
  s.span Char.isDigit

/-- The line and column that a text names, if it is nothing but `L column C` in 64-bit words. -/
def placeOfText? (s : List Char) : Option (Nat × Nat) := do
  let (line, rest) := spanDigits s
  let column ← (" column ".toList.isPrefixOf? rest)
  guard (column.all Char.isDigit)
  let line ← (String.ofList line).toNat?
  let column ← (String.ofList column).toNat?
  guard (line < UInt64.size ∧ column < UInt64.size)
  return (line, column)

/-- The text before and behind the last ` at line `. -/
def splitPlace? (message : List Char) : Option (List Char × List Char) :=
  match message with
  | [] => none
  | c :: rest =>
    match splitPlace? rest with
    | some (before, behind) => some (c :: before, behind)
    | none => (" at line ".toList.isPrefixOf? message).map fun behind => ([], behind)

/-- A message that ends in a place: the numbers of the place lose their leading zeros, and a place
on line zero is dropped. -/
def settlePlace (message : String) : String :=
  let settled : Option String := do
    let (before, behind) ← splitPlace? message.toList
    let (line, column) ← placeOfText? behind
    let text := String.ofList before
    return if line = 0 then text else text ++ s!" at line {line} column {column}"
  settled.getD message

end PolicyClient.Document
