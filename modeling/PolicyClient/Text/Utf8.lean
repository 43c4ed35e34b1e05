/-
UTF-8 as a machine that takes one byte at a time. `decode` yields one entry per scalar value and
one `none` per maximal malformed subsequence, so the strict reading, the reading with replacement
characters and the length of the well-formed beginning are all views of one pass.
-/
namespace PolicyClient

/-- A body or a document as it travels. -/
abbrev Bytes := List UInt8

namespace Utf8

/-! ## The machine -/

/-- Between two scalar values, or inside one: `left` more bytes are due, the next within
`low` to `high`, and `bits` holds the payload so far. -/
inductive State
  | idle
  | pending (left : Nat) (bits : Nat) (low high : UInt8)
  deriving DecidableEq, Repr

/-- A byte that is not a continuation byte starts a new scalar value or stands for itself. -/
def start (b : UInt8) : State × List (Option Char) :=
  if b < 0x80 then (.idle, [some (Char.ofNat b.toNat)])
  else if b < 0xC2 then (.idle, [none])
  else if b < 0xE0 then (.pending 1 (b.toNat - 0xC0) 0x80 0xBF, [])
  else if b == 0xE0 then (.pending 2 0 0xA0 0xBF, [])
  else if b == 0xED then (.pending 2 0xD 0x80 0x9F, [])
  else if b < 0xF0 then (.pending 2 (b.toNat - 0xE0) 0x80 0xBF, [])
  else if b == 0xF0 then (.pending 3 0 0x90 0xBF, [])
  else if b < 0xF4 then (.pending 3 (b.toNat - 0xF0) 0x80 0xBF, [])
  else if b == 0xF4 then (.pending 3 4 0x80 0x8F, [])
  else (.idle, [none])

/-- A byte that does not continue the pending sequence ends it as malformed and is read afresh. -/
def step : State → UInt8 → State × List (Option Char)
  | .idle, b => start b
  | .pending left bits low high, b =>
    if low ≤ b ∧ b ≤ high then
      let bits := bits * 64 + (b.toNat - 0x80)
      if left ≤ 1 then (.idle, [some (Char.ofNat bits)])
      else (.pending (left - 1) bits 0x80 0xBF, [])
    else
      let (state, out) := start b
      (state, none :: out)

/-- The entries that the bytes yield from a state; a sequence cut off by the end is malformed. -/
def run : State → Bytes → List (Option Char)
  | .idle, [] => []
  | .pending .., [] => [none]
  | state, b :: rest =>
    let (state, out) := step state b
    out ++ run state rest

/-- The scalar values of the bytes in order, `none` for each malformed subsequence. -/
def decode (bytes : Bytes) : List (Option Char) :=
  run .idle bytes

/-! ## Views -/

/-- The bytes of a text. -/
def encode (s : String) : Bytes :=
  s.toList.flatMap String.utf8EncodeChar

/-- The text that the bytes encode, if they are well formed. -/
def text? (bytes : Bytes) : Option String :=
  ((decode bytes).mapM id).map String.ofList

/-- The text with U+FFFD in place of each malformed subsequence. -/
def lossy (bytes : Bytes) : String :=
  String.ofList ((decode bytes).map (·.getD '\uFFFD'))

/-- How many bytes at the start are well formed. -/
def validLength (bytes : Bytes) : Nat :=
  ((decode bytes).takeWhile Option.isSome).foldl (fun n c => n + (c.getD ' ').utf8Size) 0

end Utf8
end PolicyClient
