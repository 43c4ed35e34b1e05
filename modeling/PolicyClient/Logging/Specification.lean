/-
Which parts of an exchange are logged. The flags have an order, in which a list fills them.
-/
import PolicyClient.Document.Form

namespace PolicyClient

/-- The parts of an exchange that are logged. -/
structure LogSpecification where
  requestLine : Bool := false
  requestHeaders : Bool := false
  requestBody : Bool := false
  statusCode : Bool := false
  responseHeaders : Bool := false
  responseBody : Bool := false
  deriving DecidableEq, Repr

namespace LogSpecification

/-! ## Presets -/

/-- Nothing is logged. -/
def none : LogSpecification := {}

/-- Everything is logged. -/
def all : LogSpecification := ⟨true, true, true, true, true, true⟩

/-- The request line and all of the response are logged. -/
def verbose : LogSpecification :=
  { requestLine := true, statusCode := true, responseHeaders := true, responseBody := true }

/-- Whether nothing is logged. -/
def isNone (spec : LogSpecification) : Bool :=
  spec == none

/-! ## Flags by name -/

/-- The names of the flags in their order. -/
def names : List String :=
  ["request_line", "request_headers", "request_body", "status_code", "response_headers",
    "response_body"]

/-- The flags in their order, by name. -/
def flags (spec : LogSpecification) : List (String × Bool) :=
  names.zip [spec.requestLine, spec.requestHeaders, spec.requestBody, spec.statusCode,
    spec.responseHeaders, spec.responseBody]

/-- The specification with a flag set; other names change nothing. -/
def set (spec : LogSpecification) (name : String) (value : Bool) : LogSpecification :=
  match name with
  | "request_line" => { spec with requestLine := value }
  | "request_headers" => { spec with requestHeaders := value }
  | "request_body" => { spec with requestBody := value }
  | "status_code" => { spec with statusCode := value }
  | "response_headers" => { spec with responseHeaders := value }
  | "response_body" => { spec with responseBody := value }
  | _ => spec

/-! ## Reading -/

/-- The specification of the flags listed; a flag that is missing is false. -/
def ofFields (fields : List (String × Document)) : Except FormError LogSpecification :=
  fields.foldlM (fun spec (name, d) =>
    if names.contains name then (Form.bool d).map (spec.set name) else .ok spec) none

/-- Flags as members of an object, or as an array in their order. -/
def ofDocument : Form LogSpecification
  | .object members => ofFields members
  | .array items => do
    let spec ← ofFields (names.zip items)
    Form.checkLength items names.length
    return spec
  | d => Form.wanted "struct LogSpecification" d

end LogSpecification
end PolicyClient
