/-
Reading a document from bytes. Containers nest at most 127 deep. Members of an object may come in
any order and more than once; the last value of a key stays. An object whose first key is
`numberKey` is a number spelled in a string, and has no other member.
-/
import PolicyClient.Document.Basic
import PolicyClient.Document.Scan

namespace PolicyClient.Document

/-- The containers that may be open at a time, and one more. -/
def maxDepth : Nat := 128

/-- The key that marks an object as a number spelled in a string. -/
def numberKey : String := "$serde_json::private::Number"

/-! ## Mismatches -/

/-- How a number is named where another kind is wanted: a whole number that fits a machine word is
shown. -/
def numberLabel (n : Numeral) : String :=
  if n.fraction.isSome ∨ n.exponent.isSome then "number"
  else
    let value := Numeral.valueOf n.whole
    if n.negative = false ∧ value < UInt64.size then s!"integer `{value}`"
    else if n.negative = true ∧ 0 < value ∧ 2 * value ≤ UInt64.size then s!"integer `-{value}`"
    else "number"

/-- The failure of bytes that begin with something else than the string that is wanted. Words and
numbers are taken first, containers are not. -/
def mismatch (expected : String) (s : Bytes) : Failure :=
  let found (label : String) (rest : Bytes) : Failure :=
    ⟨.mismatch label expected, .taken rest.length⟩
  let word (letters label : String) (rest : Bytes) : Failure :=
    match readWord letters.toList rest with
    | .ok t => found label t.rest
    | .error failure => failure
  match s with
  | [] => ⟨.endInValue, .next 0⟩
  | b :: rest =>
    if b = 0x6E then word "ull" "null" rest
    else if b = 0x74 then word "rue" "boolean `true`" rest
    else if b = 0x66 then word "alse" "boolean `false`" rest
    else if b = 0x2D ∨ (Numeral.digitOfByte? b).isSome then
      match readNumber (b :: rest) with
      | .ok t => found (numberLabel t.value) t.rest
      | .error failure => failure
    else if b = 0x5B then found "sequence" s
    else if b = 0x7B then found "map" s
    else ⟨.noValue, .next s.length⟩

/-! ## Numbers in strings -/

/-- What follows a colon that has to come next. -/
def readColon (s : Bytes) : Scan Unit s.length :=
  match h : skipBlank s with
  | [] => failNext .endInObject []
  | b :: rest =>
    if b = 0x3A then
      .ok ⟨(), rest, by have := skipBlank_length s; simp [h] at this; omega⟩
    else failNext .noColon (b :: rest)

/-- The rest of an object behind `numberKey`. -/
def readSpelledNumber (s : Bytes) : Scan Numeral s.length := do
  let colon ← readColon s
  have h₁ := colon.short
  match hb : skipBlank colon.rest with
  | [] => failNext .endInValue []
  | b :: rest =>
    have h₂ := skipBlank_length colon.rest
    if b = 0x22 then
      let spelled ← readText rest
      match numeralOfBytes (Utf8.encode spelled.value) with
      | .error e => .error ⟨e.fault, .fixed e.line e.column⟩
      | .ok n =>
        match hc : skipBlank spelled.rest with
        | [] => failNext .endInObject []
        | c :: rest' =>
          if c = 0x7D then
            return ⟨n, rest', by
              have h₃ := skipBlank_length spelled.rest
              have h₄ := spelled.short
              rw [hc] at h₃; rw [hb] at h₂
              simp only [List.length_cons] at h₂ h₃; omega⟩
          else if c = 0x2C then failNext .trailingComma (c :: rest')
          else failNext .trailingCharacters (c :: rest')
    else .error (mismatch "string containing a number" (b :: rest))

/-! ## Values -/

mutual

/-- A value, with white space in front; `depth` is one more than the containers that may open. -/
def readValue (depth : Nat) (s : Bytes) : Scan Document s.length :=
  match h : skipBlank s with
  | [] => failNext .endInValue []
  | b :: rest =>
    have hs : rest.length < s.length := by
      have := skipBlank_length s; simp [h] at this; omega
    let word (letters : String) (value : Document) : Scan Document s.length :=
      (readWord letters.toList rest).map fun t => ⟨value, t.rest, by have := t.short; omega⟩
    if b = 0x6E then word "ull" .null
    else if b = 0x74 then word "rue" (.bool true)
    else if b = 0x66 then word "alse" (.bool false)
    else if b = 0x22 then
      (readText rest).map fun t => ⟨.text t.value, t.rest, by have := t.short; omega⟩
    else if b = 0x2D ∨ (Numeral.digitOfByte? b).isSome then
      (readNumber (b :: rest)).map fun t =>
        ⟨.number t.value, t.rest, by have := t.short; simp at this; omega⟩
    else if b = 0x5B then
      if depth ≤ 1 then failNext .tooDeep (b :: rest)
      else
        (readArray (depth - 1) rest).map fun t =>
          ⟨.array t.value, t.rest, by have := t.short; omega⟩
    else if b = 0x7B then
      if depth ≤ 1 then failNext .tooDeep (b :: rest)
      else
        (readObject (depth - 1) rest).map fun t =>
          ⟨t.value, t.rest, by have := t.short; omega⟩
    else failNext .noValue (b :: rest)
termination_by 3 * s.length

/-- The items of an array up to its end. -/
def readArray (depth : Nat) (s : Bytes) : Scan (List Document) s.length :=
  match h : skipBlank s with
  | [] => failNext .endInList []
  | b :: rest =>
    have hs : rest.length + 1 ≤ s.length := by
      have := skipBlank_length s; rw [h] at this; simpa using this
    if b = 0x5D then .ok ⟨[], rest, hs⟩
    else
      (readItems depth (b :: rest)).map fun t =>
        ⟨t.value, t.rest, by have := t.short; simp at this; omega⟩
termination_by 3 * s.length + 2

/-- One item or more, up to the end of the array. -/
def readItems (depth : Nat) (s : Bytes) : Scan (List Document) s.length := do
  let item ← readValue depth s
  have h₁ := item.short
  match h : skipBlank item.rest with
  | [] => failNext .endInList []
  | b :: rest =>
    have h₂ : rest.length + 1 ≤ item.rest.length := by
      have := skipBlank_length item.rest; rw [h] at this; simpa using this
    if b = 0x5D then return ⟨[item.value], rest, by omega⟩
    else if b = 0x2C then
      match hr : skipBlank rest with
      | [] => failNext .endInValue []
      | c :: rest' =>
        have h₃ : rest'.length + 1 ≤ rest.length := by
          have := skipBlank_length rest; rw [hr] at this; simpa using this
        if c = 0x5D then failNext .trailingComma (c :: rest')
        else
          let more ← readItems depth (c :: rest')
          return ⟨item.value :: more.value, more.rest, by
            have := more.short; simp at this; omega⟩
    else failNext .noListEnd (b :: rest)
termination_by 3 * s.length + 1

/-- An object behind its opening brace. -/
def readObject (depth : Nat) (s : Bytes) : Scan Document s.length :=
  match h : skipBlank s with
  | [] => failNext .endInObject []
  | b :: rest =>
    have hs : rest.length + 1 ≤ s.length := by
      have := skipBlank_length s; rw [h] at this; simpa using this
    if b = 0x7D then .ok ⟨.object [], rest, hs⟩
    else if b = 0x22 then do
      let key ← readText rest
      have h₁ := key.short
      if key.value = numberKey then
        let n ← readSpelledNumber key.rest
        return ⟨.number n.value, n.rest, by have := n.short; omega⟩
      else
        let value ← readField depth key.rest
        have h₂ := value.short
        let more ← readMembers depth value.rest
        return ⟨ofMembers ((key.value, value.value) :: more.value), more.rest, by
          have := more.short; omega⟩
    else failNext .keyNotText (b :: rest)
termination_by 3 * s.length

/-- The colon behind a key and the value of the member. -/
def readField (depth : Nat) (s : Bytes) : Scan Document s.length := do
  let colon ← readColon s
  have := colon.short
  let value ← readValue depth colon.rest
  return ⟨value.value, value.rest, by have := value.short; omega⟩
termination_by 3 * s.length

/-- The members behind the first, up to the end of the object. -/
def readMembers (depth : Nat) (s : Bytes) : Scan (List (String × Document)) s.length :=
  match h : skipBlank s with
  | [] => failNext .endInObject []
  | b :: rest =>
    have hs : rest.length + 1 ≤ s.length := by
      have := skipBlank_length s; rw [h] at this; simpa using this
    if b = 0x7D then .ok ⟨[], rest, hs⟩
    else if b = 0x2C then
      match hr : skipBlank rest with
      | [] => failNext .endInValue []
      | c :: rest' =>
        have h₁ : rest'.length + 1 ≤ rest.length := by
          have := skipBlank_length rest; rw [hr] at this; simpa using this
        if c = 0x22 then do
          let key ← readText rest'
          have h₂ := key.short
          let value ← readField depth key.rest
          have h₃ := value.short
          let more ← readMembers depth value.rest
          return ⟨(key.value, value.value) :: more.value, more.rest, by
            have := more.short; omega⟩
        else if c = 0x7D then failNext .trailingComma (c :: rest')
        else failNext .keyNotText (c :: rest')
    else failNext .noObjectEnd (b :: rest)
termination_by 3 * s.length

end

/-! ## Whole texts -/

/-- Only white space may follow the value. -/
def readEnd (s : Bytes) : Except Failure Unit :=
  match skipBlank s with
  | [] => .ok ()
  | rest => failNext .trailingCharacters rest

/-- The value at the front of the bytes, and what follows it. -/
def readFront (bytes : Bytes) : Except ReadError (Document × Bytes) :=
  ((readValue maxDepth bytes).map fun t => (t.value, t.rest)).mapError (·.resolve bytes)

/-- Nothing but white space may follow; places are those of the whole text. -/
def checkEnd (bytes rest : Bytes) : Except ReadError Unit :=
  (readEnd rest).mapError (·.resolve bytes)

/-- The document that the bytes hold. -/
def ofBytes (bytes : Bytes) : Except ReadError Document := do
  let (value, rest) ← readFront bytes
  checkEnd bytes rest
  return value

/-- The document that a text holds. -/
def ofText (text : String) : Except ReadError Document :=
  ofBytes (Utf8.encode text)

/-- The string that the bytes hold; no other document will do. -/
def stringOfBytes (bytes : Bytes) : Except ReadError String :=
  let result : Except Failure String := do
    match skipBlank bytes with
    | [] => failNext .endInValue []
    | b :: rest =>
      if b = 0x22 then
        let text ← readText rest
        readEnd text.rest
        return text.value
      else .error (mismatch "a string" (b :: rest))
  result.mapError (·.resolve bytes)

end PolicyClient.Document
