/-
Converters between bodies and bytes. A converter names the media types that it handles and says for
a content type with bytes and a shape, or with a body, whether it accepts the work. Text is written
in the charset of the content type; JSON is written in UTF-8, whatever the content type says.
`codecs` are those of the charsets known by name alone.
-/
import PolicyClient.Body.Basic
import PolicyClient.Charset.Codec
import PolicyClient.Document.Printer
import PolicyClient.Document.Reader

namespace PolicyClient

/-- A converter between bodies and bytes. -/
structure Converter where
  name : String
  mediaTypes : List MediaType
  canRead : (contentType : Option MediaType) → Bytes → Shape → Bool
  read : (contentType : Option MediaType) → Bytes → Shape → Except ConversionError Body
  canWrite : (contentType : Option MediaType) → Body → Bool
  write : (contentType : Option MediaType) → Body → Except ConversionError Bytes

namespace Converter

open Charset (Codecs)

/-- Whether a content type falls under media types; an absent one always does. -/
def covers (mediaTypes : List MediaType) : Option MediaType → Bool
  | none => true
  | some contentType => mediaTypes.any (·.includes contentType)

/-- Whether a converter handles a content type. -/
def supports (c : Converter) (contentType : Option MediaType) : Bool :=
  covers c.mediaTypes contentType

/-! ## Text -/

/-- The charset of a content type that names one, or the one given. -/
def charsetOf (fallback : Charset) (contentType : Option MediaType) : Charset :=
  (contentType.bind (·.charset)).getD fallback

/-- The media types of text. -/
def textTypes : List MediaType := [.textPlain, .textAll]

/-- The text of bytes in a charset. -/
def readText (codecs : Codecs) (charset : Charset) (bytes : Bytes) : Except ConversionError Body :=
  match charset.decode? codecs bytes with
  | some text => .ok (.text text)
  | none => .error (.reading (.malformed charset))

/-- The bytes of a text in a charset. -/
def writeText (codecs : Codecs) (charset : Charset) (text : String) : Except ConversionError Bytes :=
  match charset.encode? codecs text with
  | some bytes => .ok bytes
  | none => .error (.writing (.notEncodable charset))

/-- Reads and writes text, in a charset of its own where the content type names none. -/
def text (fallback : Charset) (codecs : Codecs := .ascii) : Converter where
  name := "text"
  mediaTypes := textTypes
  canRead contentType _ shape := shape == .text && covers textTypes contentType
  read contentType bytes shape :=
    if shape = .text then readText codecs (charsetOf fallback contentType) bytes
    else .error (.wrongShape .text shape)
  canWrite contentType body := body.shape == .text && covers textTypes contentType
  write contentType body :=
    match body with
    | .text value => writeText codecs (charsetOf fallback contentType) value
    | body => .error (.wrongShape .text body.shape)

/-! ## JSON -/

/-- The media types of JSON. -/
def jsonTypes : List MediaType := [.applicationJson, .applicationAllJson]

/-- How documents are laid out. -/
inductive Layout
  | compact
  | indented
  deriving DecidableEq, Repr

/-- The text of a document in a layout. -/
def Layout.print : Layout → Document → String
  | .compact, d => d.print
  | .indented, d => d.printIndented

/-- The bytes in UTF-8: those of another charset are decoded, with U+FFFD for what is malformed. -/
def toUtf8 (codecs : Codecs) (contentType : Option MediaType) (bytes : Bytes) : Bytes :=
  match contentType.bind (·.charset) with
  | none => bytes
  | some .utf8 => bytes
  | some charset => Utf8.encode (charset.decodeLossy codecs bytes)

/-- The body of a shape that UTF-8 bytes hold: a document, or a text that is spelled as one. -/
def readJson (bytes : Bytes) : Shape → Except ConversionError Body
  | .json =>
    match Document.ofBytes bytes with
    | .ok d => .ok (.json d)
    | .error e => .error (.reading (.notDocument e))
  | .text =>
    match Document.stringOfBytes bytes with
    | .ok s => .ok (.text s)
    | .error e => .error (.reading (.notDocument e))
  | .binary => .error (.reading .noBinary)

/-- The UTF-8 bytes of a body, where a text is a document of its own. -/
def writeJson (layout : Layout) : Body → Except ConversionError Bytes
  | .json d => .ok (Utf8.encode (layout.print d))
  | .text s => .ok (Utf8.encode (layout.print (.text s)))
  | .binary _ => .error (.writing .noBinary)

/-- Reads and writes documents. -/
def json (layout : Layout) (codecs : Codecs := .ascii) : Converter where
  name := "json"
  mediaTypes := jsonTypes
  canRead contentType _ shape := shape != .binary && covers jsonTypes contentType
  read contentType bytes shape := readJson (toUtf8 codecs contentType bytes) shape
  canWrite contentType body := body.shape != .binary && covers jsonTypes contentType
  write _ body := writeJson layout body

end Converter
end PolicyClient
