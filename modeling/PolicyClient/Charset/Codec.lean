/-
Decoding and encoding bodies. Decoding yields one entry per character and one `none` per malformed
sequence; encoding fails as soon as one character has no bytes. A byte order mark is a character
like any other. The codecs of the charsets known by name alone are given from outside.
-/
import PolicyClient.Charset.Label
import PolicyClient.Charset.Table
import PolicyClient.Text.Utf8

namespace PolicyClient.Charset

/-! ## UTF-16 -/

/-- A unit in the order of its bytes. -/
def unit (bigEndian : Bool) (first second : UInt8) : Nat :=
  if bigEndian then first.toNat * 256 + second.toNat else second.toNat * 256 + first.toNat

/-- A unit that no leading surrogate stands before: a character, a malformed trailing surrogate, or
the start of a pair. -/
def startUnit (u : Nat) : Option Nat × List (Option Char) :=
  if 0xD800 ≤ u ∧ u ≤ 0xDBFF then (some u, [])
  else if 0xDC00 ≤ u ∧ u ≤ 0xDFFF then (none, [none])
  else (none, [some (Char.ofNat u)])

/-- A unit behind a leading surrogate completes a pair, or leaves the surrogate malformed. -/
def nextUnit : Option Nat → Nat → Option Nat × List (Option Char)
  | none, u => startUnit u
  | some lead, u =>
    if 0xDC00 ≤ u ∧ u ≤ 0xDFFF then
      (none, [some (Char.ofNat (0x10000 + (lead - 0xD800) * 0x400 + (u - 0xDC00)))])
    else ((startUnit u).1, none :: (startUnit u).2)

/-- The characters of the units; what the end cuts off is malformed. -/
def decodeUnits (bigEndian : Bool) : Option Nat → Bytes → List (Option Char)
  | none, [] => []
  | some _, [] => [none]
  | _, [_] => [none]
  | lead, a :: b :: rest =>
    let (lead, out) := nextUnit lead (unit bigEndian a b)
    out ++ decodeUnits bigEndian lead rest

/-! ## Single bytes -/

/-- The code points of the upper half of a single-byte charset. -/
def upperHalf : Charset → List Nat
  | .windows1252 => windows1252Table
  | .iso8859x15 => iso8859x15Table
  | .windows1251 => windows1251Table
  | .koi8r => koi8rTable
  | .userDefined => (List.range 128).map (0xF780 + ·)
  | _ => []

/-- The character of a byte, given the code points of the upper half. -/
def decodeByte (upper : List Nat) (b : UInt8) : Option Char :=
  if b < 0x80 then some (Char.ofNat b.toNat)
  else (upper[b.toNat - 0x80]?).map Char.ofNat

/-- The byte of a character, given the code points of the upper half. -/
def encodeChar? (upper : List Nat) (c : Char) : Option UInt8 :=
  if c.toNat < 0x80 then some (UInt8.ofNat c.toNat)
  else (upper.findIdx? (· == c.toNat)).map fun i => UInt8.ofNat (0x80 + i)

/-! ## Charsets known by name alone -/

/-- How the bytes of a charset are read and written. -/
structure Codec where
  encode? : String → Option Bytes
  decode : Bytes → List (Option Char)

/-- The characters of ASCII and no others. -/
def Codec.ascii : Codec where
  encode? text := text.toList.mapM (encodeChar? [])
  decode bytes := bytes.map (decodeByte [])

/-- The codecs of the charsets known by name alone. -/
abbrev Codecs := String → Codec

/-- No charset that is known by name alone has more than ASCII. -/
def Codecs.ascii : Codecs := fun _ => Codec.ascii

/-! ## All charsets -/

/-- The characters of the bytes, `none` for each malformed sequence. -/
def decode (codecs : Codecs) (charset : Charset) (bytes : Bytes) : List (Option Char) :=
  match charset with
  | .utf8 => Utf8.decode bytes
  | .utf16le => decodeUnits false none bytes
  | .utf16be => decodeUnits true none bytes
  | .replacement => if bytes.isEmpty then [] else [none]
  | .other name => (codecs name).decode bytes
  | single => bytes.map (decodeByte single.upperHalf)

/-- The text of well-formed bytes. -/
def decode? (codecs : Codecs) (charset : Charset) (bytes : Bytes) : Option String :=
  ((charset.decode codecs bytes).mapM id).map String.ofList

/-- The text with U+FFFD in place of each malformed sequence. -/
def decodeLossy (codecs : Codecs) (charset : Charset) (bytes : Bytes) : String :=
  String.ofList ((charset.decode codecs bytes).map (·.getD '\uFFFD'))

/-- The bytes of a text. UTF-16 and `replacement` are for reading only. -/
def encode? (codecs : Codecs) (charset : Charset) (text : String) : Option Bytes :=
  match charset with
  | .utf8 => some (Utf8.encode text)
  | .utf16le | .utf16be | .replacement => none
  | .other name => (codecs name).encode? text
  | single => text.toList.mapM (encodeChar? single.upperHalf)

end PolicyClient.Charset
