/-
The tokens of a document's text. Each reader takes bytes from the front and returns the rest with
a proof that it is shorter, so the readers built on them end. Strings are collected as bytes,
their escapes resolved, and checked for UTF-8 once they are complete.
-/
import PolicyClient.Document.Fault
import PolicyClient.Document.Numeral

namespace PolicyClient.Document

/-- A value read from the front of some bytes, and the fewer than `bound` bytes behind it. -/
structure Taken (α : Type) (bound : Nat) where
  value : α
  rest : Bytes
  short : rest.length < bound

/-- Reading a value from bytes that number at most `bound - 1`. -/
abbrev Scan (α : Type) (bound : Nat) := Except Failure (Taken α bound)

/-- Fails behind the bytes taken. -/
def failTaken {α : Type} (fault : Fault) (rest : Bytes) : Except Failure α :=
  .error ⟨fault, .taken rest.length⟩

/-- Fails at the byte that comes next. -/
def failNext {α : Type} (fault : Fault) (rest : Bytes) : Except Failure α :=
  .error ⟨fault, .next rest.length⟩

/-! ## White space and words -/

/-- Space, tab, line feed and carriage return. -/
def isBlankByte (b : UInt8) : Bool :=
  b == 0x20 || b == 0x09 || b == 0x0A || b == 0x0D

/-- The bytes behind leading white space. -/
def skipBlank (s : Bytes) : Bytes :=
  s.dropWhile isBlankByte

theorem skipBlank_length (s : Bytes) : (skipBlank s).length ≤ s.length :=
  (List.dropWhile_suffix _).length_le

/-- Takes the remaining letters of a word. -/
def readWord : (word : List Char) → (s : Bytes) → Scan Unit (s.length + 1)
  | [], s => .ok ⟨(), s, by omega⟩
  | _ :: _, [] => failTaken .endInValue []
  | c :: word, b :: rest =>
    if b.toNat = c.toNat then
      (readWord word rest).map fun t => ⟨(), t.rest, by have := t.short; simp; omega⟩
    else failTaken .unknownWord rest

/-! ## Numbers -/

/-- The sign in front of an exponent: whether it is a minus, and the bytes behind it. -/
def exponentSign : Bytes → Bool × Bytes
  | 0x2B :: digits => (false, digits)
  | 0x2D :: digits => (true, digits)
  | digits => (false, digits)

theorem exponentSign_length (s : Bytes) : (exponentSign s).2.length ≤ s.length := by
  unfold exponentSign
  split <;> simp

theorem takeDigits_rest_length (s : Bytes) : (Numeral.takeDigits s).2.length ≤ s.length := by
  have := Numeral.takeDigits_length s
  omega

theorem takeDigits_exponentSign_length (s : Bytes) :
    (Numeral.takeDigits (exponentSign s).2).2.length ≤ s.length :=
  Nat.le_trans (takeDigits_rest_length _) (exponentSign_length s)

/-- The exponent, if one follows, completes a numeral. -/
def readExponent (negative : Bool) (whole : List Digit) (fraction : Option (List Digit))
    (whole_ne : whole ≠ []) (whole_short : whole.head? = some .zero → whole.length = 1)
    (fraction_ne : fraction ≠ some []) (s : Bytes) : Scan Numeral (s.length + 1) :=
  match s with
  | [] => .ok ⟨⟨negative, whole, fraction, none, whole_ne, whole_short, fraction_ne, nofun⟩,
      [], Nat.zero_lt_succ _⟩
  | b :: rest =>
    if b = 0x65 ∨ b = 0x45 then
      match h : Numeral.takeDigits (exponentSign rest).2 with
      | ([], []) => failTaken .endInValue []
      | ([], _ :: wrong) => failTaken .badNumber wrong
      | (d :: ds, rest') => .ok
          ⟨⟨negative, whole, fraction, some ((exponentSign rest).1, d :: ds), whole_ne, whole_short,
            fraction_ne, by rintro _ ⟨⟩; exact List.cons_ne_nil d ds⟩, rest', by
              have := takeDigits_exponentSign_length rest
              rw [h] at this
              exact Nat.lt_succ_of_le (Nat.le_succ_of_le this)⟩
    else .ok ⟨⟨negative, whole, fraction, none, whole_ne, whole_short, fraction_ne, nofun⟩,
      b :: rest, Nat.lt_succ_self _⟩

/-- The digits behind the point, if one follows, and the exponent. -/
def readFraction (negative : Bool) (whole : List Digit)
    (whole_ne : whole ≠ []) (whole_short : whole.head? = some .zero → whole.length = 1)
    (s : Bytes) : Scan Numeral (s.length + 1) :=
  match s with
  | 0x2E :: rest =>
    match h : Numeral.takeDigits rest with
    | ([], []) => failTaken .endInValue []
    | ([], wrong) => failNext .badNumber wrong
    | (d :: ds, rest') =>
      (readExponent negative whole (some (d :: ds)) whole_ne whole_short (by simp) rest').map
        fun t => ⟨t.value, t.rest, by
          have := Numeral.takeDigits_length rest
          have := t.short
          simp_all; omega⟩
  | s => readExponent negative whole none whole_ne whole_short (by simp) s

/-- A number behind its sign. A zero in front stands alone. -/
def readUnsigned (negative : Bool) (s : Bytes) : Scan Numeral s.length :=
  match s with
  | [] => failTaken .endInValue []
  | b :: rest =>
    match Numeral.digitOfByte? b with
    | none => failTaken .badNumber rest
    | some d =>
      if h : d = .zero then
        match rest with
        | [] => readFraction negative [.zero] (List.cons_ne_nil _ _) (fun _ => rfl) []
        | c :: rest' =>
          if (Numeral.digitOfByte? c).isSome then failNext .badNumber (c :: rest')
          else readFraction negative [.zero] (List.cons_ne_nil _ _) (fun _ => rfl) (c :: rest')
      else
        (readFraction negative (d :: (Numeral.takeDigits rest).1) (List.cons_ne_nil _ _)
            (fun hd => absurd (Option.some.inj hd) h) (Numeral.takeDigits rest).2).map
          fun t => ⟨t.value, t.rest,
            Nat.lt_of_lt_of_le t.short (Nat.succ_le_succ (takeDigits_rest_length rest))⟩

/-- A number with its sign. -/
def readNumber (s : Bytes) : Scan Numeral s.length :=
  match s with
  | 0x2D :: rest =>
    (readUnsigned true rest).map fun t => ⟨t.value, t.rest, by have := t.short; simp; omega⟩
  | s => readUnsigned false s

/-- A text that is one number and nothing else. A byte left over is a bad number whatever else
is wrong before it. -/
def numeralOfBytes (s : Bytes) : Except ReadError Numeral :=
  let result : Except Failure Numeral :=
    match s with
    | [] => failNext .endInValue []
    | b :: _ =>
      if b = 0x2D ∨ (Numeral.digitOfByte? b).isSome then
        match readNumber s with
        | .ok t => if t.rest.isEmpty then .ok t.value else failNext .badNumber t.rest
        | .error ⟨fault, .taken left⟩ =>
          if left = 0 then .error ⟨fault, .taken left⟩ else .error ⟨.badNumber, .next left⟩
        | .error failure => .error failure
      else failNext .badNumber s
  result.mapError (·.resolve s)

/-! ## Strings -/

/-- The value of a digit in base sixteen, in either case. -/
def hexValue? (b : UInt8) : Option Nat :=
  let n := b.toNat
  if 48 ≤ n ∧ n ≤ 57 then some (n - 48)
  else if 97 ≤ n ∧ n ≤ 102 then some (n - 87)
  else if 65 ≤ n ∧ n ≤ 70 then some (n - 55)
  else none

/-- Four digits in base sixteen. -/
def readHex (s : Bytes) : Scan Nat s.length :=
  match s with
  | a :: b :: c :: d :: rest =>
    match hexValue? a, hexValue? b, hexValue? c, hexValue? d with
    | some a, some b, some c, some d =>
      .ok ⟨((a * 16 + b) * 16 + c) * 16 + d, rest, by simp; omega⟩
    | _, _, _, _ => failTaken .badEscape rest
  | _ => failTaken .endInString []

/-- The character of an escape in base sixteen. A leading surrogate takes a second escape. -/
def readUnicode (s : Bytes) : Scan Bytes s.length := do
  let first ← readHex s
  have h₁ := first.short
  if 0xDC00 ≤ first.value ∧ first.value ≤ 0xDFFF then failTaken .loneSurrogate first.rest
  else if first.value < 0xD800 ∨ 0xDBFF < first.value then
    return ⟨String.utf8EncodeChar (Char.ofNat first.value), first.rest, h₁⟩
  else
    match hr : first.rest with
    | [] => failTaken .endInString []
    | b :: behind =>
      if b ≠ 0x5C then failTaken .cutSurrogate behind
      else
        match hb : behind with
        | [] => failTaken .endInString []
        | u :: digits =>
          if u ≠ 0x75 then failTaken .cutSurrogate digits
          else
            let second ← readHex digits
            if 0xDC00 ≤ second.value ∧ second.value ≤ 0xDFFF then
              let scalar := 0x10000 + (first.value - 0xD800) * 0x400 + (second.value - 0xDC00)
              return ⟨String.utf8EncodeChar (Char.ofNat scalar), second.rest, by
                have := second.short
                simp [hr, hb] at h₁; omega⟩
            else failTaken .loneSurrogate second.rest

/-- The bytes that an escape stands for, read behind its backslash. -/
def readEscape (s : Bytes) : Scan Bytes s.length :=
  match s with
  | [] => failTaken .endInString []
  | c :: rest =>
    let plain (b : UInt8) : Scan Bytes (c :: rest).length := .ok ⟨[b], rest, by simp⟩
    if c = 0x22 ∨ c = 0x5C ∨ c = 0x2F then plain c
    else if c = 0x62 then plain 0x08
    else if c = 0x66 then plain 0x0C
    else if c = 0x6E then plain 0x0A
    else if c = 0x72 then plain 0x0D
    else if c = 0x74 then plain 0x09
    else if c = 0x75 then
      (readUnicode rest).map fun t => ⟨t.value, t.rest, by have := t.short; simp; omega⟩
    else failTaken .badEscape rest

/-- The bytes of a string up to its closing quote. -/
def readRaw (s : Bytes) : Scan Bytes s.length :=
  match s with
  | [] => failTaken .endInString []
  | b :: rest =>
    if b = 0x22 then .ok ⟨[], rest, by simp⟩
    else if b = 0x5C then do
      let escape ← readEscape rest
      have := escape.short
      let more ← readRaw escape.rest
      return ⟨escape.value ++ more.value, more.rest, by have := more.short; simp; omega⟩
    else if b < 0x20 then failTaken .controlCharacter rest
    else do
      let more ← readRaw rest
      return ⟨b :: more.value, more.rest, by have := more.short; simp; omega⟩
termination_by s.length

/-- The text of a string behind its opening quote. Bytes that are no UTF-8 show at the first of
them, as far as the escapes before it allow to tell. -/
def readText (s : Bytes) : Scan String s.length := do
  let raw ← readRaw s
  match Utf8.text? raw.value with
  | some value => return ⟨value, raw.rest, raw.short⟩
  | none =>
    .error ⟨.notUtf8, .taken (raw.rest.length + (raw.value.length - Utf8.validLength raw.value))⟩

end PolicyClient.Document
