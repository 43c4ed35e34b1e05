/-
Forms: what a document has to be for a value to be taken from it. A record is an object with the
fields as members, where other members are passed over, or an array of its fields in their order.
-/
import PolicyClient.Document.Fault
import PolicyClient.Document.Basic
import PolicyClient.Text.Literal

namespace PolicyClient

/-! ## Errors -/

/-- Why a document does not have a form. -/
inductive FormError
  | mismatch (found expected : String)
  | missing (field : String)
  | tooShort (count : Nat) (record : String) (size : Nat)
  | tooLong (count : Nat) (container : String)
  | notWord
  | spelling (error : Document.ReadError)
  deriving DecidableEq, Repr

/-- The wording of an error. -/
def FormError.message : FormError → String
  | .mismatch found expected => "invalid type: " ++ found ++ ", expected " ++ expected
  | .missing field => s!"missing field `{field}`"
  | .tooShort count record size =>
    s!"invalid length {count}, expected struct {record} with {size} element" ++
      (if size = 1 then "" else "s")
  | .tooLong count container => s!"invalid length {count}, expected fewer elements in {container}"
  | .notWord => "invalid number"
  | .spelling error => error.message

/-- How a document is named where another one is wanted. -/
def Document.label : Document → String
  | .null => "null"
  | .bool value => if value then "boolean `true`" else "boolean `false`"
  | .number _ => "number"
  | .text value => "string " ++ Text.literal value
  | .array _ => "sequence"
  | .object _ => "map"

/-! ## Forms -/

/-- How a value is taken from a document. -/
abbrev Form (α : Type) := Document → Except FormError α

namespace Form

/-- The error of a document where another one is wanted. -/
def wanted {α : Type} (expected : String) (d : Document) : Except FormError α :=
  .error (.mismatch d.label expected)

/-- A string. -/
def text : Form String
  | .text value => .ok value
  | d => wanted "a string" d

/-- A truth value. -/
def bool : Form Bool
  | .bool value => .ok value
  | d => wanted "a boolean" d

/-- A number that is a 64-bit word. -/
def word : Form UInt64
  | .number n =>
    match n.word? with
    | some w => .ok w
    | none => .error .notWord
  | d => wanted "u64" d

/-- An array of values of one form. -/
def list {α : Type} (item : Form α) : Form (List α)
  | .array items => items.mapM item
  | d => wanted "a sequence" d

/-- A value, or null. -/
def optional {α : Type} (form : Form α) : Form (Option α)
  | .null => .ok none
  | d => (form d).map some

/-! ## Records -/

/-- A field of a record: its name, its form, and the values it has where it is missing from an
object and from an array. -/
structure Field (α : Type) where
  name : String
  form : Form α
  inObject : Option α
  inArray : Option α

/-- A field among the members of an object. -/
def Field.ofMembers {α : Type} (field : Field α) (members : Members) : Except FormError α :=
  match Members.get? members field.name with
  | some d => field.form d
  | none =>
    match field.inObject with
    | some value => .ok value
    | none => .error (.missing field.name)

/-- A field at an index of a record that is an array. -/
def Field.ofItems {α : Type} (field : Field α) (record : String) (size : Nat)
    (items : List Document) (index : Nat) : Except FormError α :=
  match items[index]? with
  | some d => field.form d
  | none =>
    match field.inArray with
    | some value => .ok value
    | none => .error (.tooShort index record size)

/-- Fails for an array with more items than a record has fields. -/
def checkLength (items : List Document) (size : Nat) : Except FormError Unit :=
  if size < items.length then .error (.tooLong items.length "array") else .ok ()

/-- A record with one field. -/
def single {α : Type} (record : String) (field : Field α) : Form α
  | .object members => field.ofMembers members
  | .array items => do
    let value ← field.ofItems record 1 items 0
    checkLength items 1
    return value
  | d => wanted ("struct " ++ record) d

end Form
end PolicyClient
