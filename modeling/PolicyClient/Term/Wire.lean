/-
Terms as documents. A term travels as an object whose `type` names its kind and whose `value`
holds the rest; other members are ignored. Reading is strict: the first malformed node in the order
of the document is the error, and the type of a node is looked at before its value.
-/
import PolicyClient.Term.Basic
import PolicyClient.Document.Printer
import PolicyClient.Document.Reader

namespace PolicyClient

/-! ## Errors -/

/-- Why a document is no tree of terms. -/
inductive DecodeError
  /-- The type of a term is missing or none of the nine. -/
  | unknownType (shown : String)
  /-- A node that has to be an object is of another kind. -/
  | notObject (node found : String)
  /-- A node that has to be an array is of another kind. -/
  | notArray (node items found : String)
  /-- The value of a term has the wrong kind, or there is none. -/
  | badValue (type expected found : String)
  /-- A reference or a call without terms. -/
  | noTerms (type : String)
  /-- The index of an expression is no 64-bit word. -/
  | badIndex (shown : String)
  | indexNotNumber (found : String)
  | termsMissing
  | badTerms (found : String)
  /-- The scale of a number does not fit. -/
  | badNumber (shown : String)
  | responseNotObject
  | resultNotObject
  deriving DecidableEq, Repr

/-- The wording of an error. -/
def DecodeError.message : DecodeError → String
  | .unknownType shown => s!"Unknown term type: {shown}"
  | .notObject node found => s!"Invalid {node}: expected an object, got {found}"
  | .notArray node items found => s!"Invalid {node}: expected an array of {items}, got {found}"
  | .badValue type expected found => s!"Invalid {type}: expected {expected} as value, got {found}"
  | .noTerms type => s!"Invalid {type}: must contain at least one term"
  | .badIndex shown => s!"Invalid expression: index {shown} is not a non-negative integer"
  | .indexNotNumber found => s!"Invalid expression: index must be a number, got {found}"
  | .termsMissing => "Invalid expression: missing terms"
  | .badTerms found => s!"Invalid expression: terms must be an array or a term, got {found}"
  | .badNumber shown => s!"Invalid number '{shown}'"
  | .responseNotObject => "Invalid compile response: expected an object"
  | .resultNotObject => "Invalid partial evaluation result: expected an object"

/-! ## Numbers -/

/-- The numeral that a decimal is written as. -/
def Decimal.numeral (d : Decimal) : Except Document.ReadError Numeral :=
  Document.numeralOfBytes (Utf8.encode d.text)

namespace Term

/-! ## Reading -/

/-- The kind of the member `value`, if there is one. -/
def valueKind (members : Members) : String :=
  match members.get? "value" with
  | none => "nothing"
  | some value => value.kind

/-- The string under `value`. -/
def textValue (type : String) (members : Members) : Except DecodeError String :=
  match members.get? "value" with
  | some (.text value) => .ok value
  | _ => .error (.badValue type "a string" (valueKind members))

/-- The number under `value`. -/
def numberValue (members : Members) : Except DecodeError Decimal :=
  match members.get? "value" with
  | some (.number n) =>
    match n.decimal? with
    | some d => .ok d
    | none => .error (.badNumber n.text)
  | _ => .error (.badValue "number" "a number" (valueKind members))

/-- The truth value under `value`. -/
def boolValue (members : Members) : Except DecodeError Bool :=
  match members.get? "value" with
  | some (.bool value) => .ok value
  | _ => .error (.badValue "boolean" "a boolean" (valueKind members))

/-- A list of terms with a first one. -/
def headed (type : String) (build : Term → List Term → Term) :
    List Term → Except DecodeError Term
  | [] => .error (.noTerms type)
  | t :: ts => .ok (build t ts)

mutual

/-- The term that a document holds. -/
def ofDocument : Document → Except DecodeError Term
  | .object members =>
    match Members.get? members "type" with
    | none => .error (.unknownType "<missing>")
    | some (.text type) =>
      if type = "ref" then termsValue "ref" members >>= headed "ref" .ref
      else if type = "call" then termsValue "call" members >>= headed "call" .call
      else if type = "var" then (textValue "var" members).map .var
      else if type = "number" then (numberValue members).map .numeric
      else if type = "string" then (textValue "string" members).map .text
      else if type = "boolean" then (boolValue members).map .bool
      else if type = "null" then .ok .null
      else if type = "array" then (termsValue "array" members).map .array
      else if type = "set" then (termsValue "set" members).map setOf
      else .error (.unknownType type)
    | some other => .error (.unknownType other.print)
  | other => .error (.notObject "term" other.kind)

/-- The terms under `value`. -/
def termsValue (type : String) : List (String × Document) → Except DecodeError (List Term)
  | [] => .error (.badValue type "an array" "nothing")
  | (key, value) :: members =>
    if key = "value" then
      match value with
      | .array items => ofDocuments items
      | other => .error (.badValue type "an array" other.kind)
    else termsValue type members

/-- The terms that the documents hold, or the error of the first that holds none. -/
def ofDocuments : List Document → Except DecodeError (List Term)
  | [] => .ok []
  | d :: ds => do
    let t ← ofDocument d
    let ts ← ofDocuments ds
    return t :: ts

end

/-! ## Writing -/

/-- The object of a type and a value. -/
def tagged (type : String) (value : Document) : Document :=
  .object [("type", .text type), ("value", value)]

mutual

/-- The document of a term; it fails only at a number whose text is no numeral. -/
def toDocument : Term → Except Document.ReadError Document
  | .ref root keys => do
    let root ← toDocument root
    let keys ← toDocuments keys
    return tagged "ref" (.array (root :: keys))
  | .call function args => do
    let function ← toDocument function
    let args ← toDocuments args
    return tagged "call" (.array (function :: args))
  | .var name => .ok (tagged "var" (.text name))
  | .numeric value => value.numeral.map fun n => tagged "number" (.number n)
  | .text value => .ok (tagged "string" (.text value))
  | .bool value => .ok (tagged "boolean" (.bool value))
  | .null => .ok (.object [("type", .text "null")])
  | .array items => (toDocuments items).map fun items => tagged "array" (.array items)
  | .set items => (toDocuments items).map fun items => tagged "set" (.array items)

/-- The documents of the terms. -/
def toDocuments : List Term → Except Document.ReadError (List Document)
  | [] => .ok []
  | t :: ts => do
    let d ← toDocument t
    let ds ← toDocuments ts
    return d :: ds

end

end Term
end PolicyClient
