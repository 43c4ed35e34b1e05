/-
The bodies of requests and responses in memory, the shape in which a caller wants one, and what can
go wrong between a body and its bytes.
-/
import PolicyClient.Document.Form
import PolicyClient.MediaType.Basic
import PolicyClient.Text.Utf8

namespace PolicyClient

/-! ## Bodies and shapes -/

/-- The shape of a body. -/
inductive Shape
  | text
  | json
  | binary
  deriving DecidableEq, Repr

/-- The name of a shape. -/
def Shape.name : Shape → String
  | .text => "text"
  | .json => "json"
  | .binary => "binary"

/-- A body in memory. -/
inductive Body
  | text (value : String)
  | json (value : Document)
  | binary (value : Bytes)
  deriving Repr

/-- The shape of a body. -/
def Body.shape : Body → Shape
  | .text _ => .text
  | .json _ => .json
  | .binary _ => .binary

/-! ## Errors -/

/-- Why a body cannot be written. -/
inductive WriteFault
  | notEncodable (charset : Charset)
  | noBinary
  deriving DecidableEq, Repr

/-- Why bytes cannot be read. -/
inductive ReadFault
  | malformed (charset : Charset)
  | notDocument (error : Document.ReadError)
  | noBinary
  | form (error : FormError)
  deriving DecidableEq, Repr

/-- Why a body and its bytes cannot be converted into each other. -/
inductive ConversionError
  | noConverter (shape : Shape) (contentType : Option MediaType)
  | writing (fault : WriteFault)
  | reading (fault : ReadFault)
  | wrongShape (expected actual : Shape)
  deriving DecidableEq, Repr

/-- The wording of a fault. -/
def WriteFault.message : WriteFault → String
  | .notEncodable charset => "text cannot be encoded as " ++ charset.name
  | .noBinary => "binary payloads have no JSON representation"

/-- The wording of a fault. -/
def ReadFault.message : ReadFault → String
  | .malformed charset => "body is not valid " ++ charset.name
  | .notDocument error => error.message
  | .noBinary => "JSON documents cannot be read as binary"
  | .form error => error.message

/-- How a content type is shown, which may be absent. -/
def showContentType : Option MediaType → String
  | some contentType => contentType.render
  | none => "<none>"

/-- The wording of an error. -/
def ConversionError.message : ConversionError → String
  | .noConverter shape contentType =>
    s!"Cannot convert {shape.name} with content type {showContentType contentType}"
  | .writing fault => s!"Failed to serialize body: {fault.message}"
  | .reading fault => s!"Failed to deserialize body: {fault.message}"
  | .wrongShape expected actual => s!"Expected a {expected.name} body, got {actual.name}"

/-! ## Taking a shape -/

namespace Body

/-- The text of a body that is text. -/
def toText : Body → Except ConversionError String
  | .text value => .ok value
  | body => .error (.wrongShape .text body.shape)

/-- The document of a body that is one. -/
def toDocument : Body → Except ConversionError Document
  | .json value => .ok value
  | body => .error (.wrongShape .json body.shape)

end Body
end PolicyClient
