/-
The settings of a client: the server, the limits of an exchange and what is logged. Settings are
read from YAML, where a missing field has its default and an unknown one is passed over; a reader of
all of YAML may take the place of `ofText`.
-/
import PolicyClient.Logging.Specification
import PolicyClient.Yaml.Reader

namespace PolicyClient

/-- The settings of a client; the timeouts are in seconds. -/
structure Settings where
  url : String := "http://localhost:8181"
  connectTimeout : UInt64 := 5
  requestTimeout : UInt64 := 30
  followRedirects : Bool := true
  logging : LogSpecification := .verbose
  deriving DecidableEq, Repr

/-! ## Errors -/

/-- Why there are no settings, or settings that will not do. -/
inductive SettingsFault
  | unreadable (path reason : String)
  | notYaml (fault : Yaml.Fault)
  | notMapping
  | badKey
  | repeated (field : String)
  | badValue (field : String)
  | noConnectTimeout
  | noRequestTimeout
  deriving DecidableEq, Repr

/-- The wording of a fault. -/
def SettingsFault.message : SettingsFault → String
  | .unreadable path reason => "Cannot read " ++ path ++ ": " ++ reason
  | .notYaml fault => fault.message
  | .notMapping => "expected a mapping"
  | .badKey => "expected a name for a field"
  | .repeated field => s!"duplicate field `{field}`"
  | .badValue field => s!"bad value for `{field}`"
  | .noConnectTimeout => "connect_timeout_secs must be greater than zero"
  | .noRequestTimeout => "request_timeout_secs must be greater than zero"

/-! ## Scalars -/

namespace Yaml

/-- The truth value of a plain scalar. -/
def bool? : Yaml → Option Bool
  | .scalar true value =>
    if ["true", "True", "TRUE"].contains value then some true
    else if ["false", "False", "FALSE"].contains value then some false
    else none
  | _ => none

/-- The digits of a number in base ten, without needless zeros in front. -/
def decimalDigits? (s : List Char) : Option Nat :=
  match s with
  | [] => none
  | ['0'] => some 0
  | '0' :: _ => none
  | s => Text.natOfDigits? 10 s

/-- The number that a plain scalar spells: a plus sign may stand in front, and a mark for base two,
eight or sixteen. -/
def natOfText? (text : String) : Option Nat :=
  let s := match text.toList with
    | '+' :: s => s
    | s => s
  match s with
  | '0' :: 'x' :: d :: digits => Text.natOfDigits? 16 (d :: digits)
  | '0' :: 'o' :: d :: digits => Text.natOfDigits? 8 (d :: digits)
  | '0' :: 'b' :: d :: digits => Text.natOfDigits? 2 (d :: digits)
  | s => decimalDigits? s

/-- The 64-bit word of a plain scalar. -/
def word? : Yaml → Option UInt64
  | .scalar true value =>
    (natOfText? value).bind fun n => if n < UInt64.size then some (UInt64.ofNat n) else none
  | _ => none

/-- The text of a scalar. -/
def text? : Yaml → Option String
  | .scalar _ value => some value
  | _ => none

/-- The entries of a mapping, by name; nothing at all is a mapping without entries. -/
def fields : Yaml → Except SettingsFault (List (String × Yaml))
  | .mapping entries => entries.mapM fun (key, value) =>
      match key.text? with
      | some name => .ok (name, value)
      | none => .error .badKey
  | .scalar true "" => .ok []
  | _ => .error .notMapping

end Yaml

/-! ## Reading -/

/-- Fails if one of the names that count comes twice. -/
def checkRepeated (names : List String) (fields : List (String × Yaml)) :
    Except SettingsFault Unit :=
  match names.find? fun name => 1 < (fields.map (·.1)).count name with
  | some name => .error (.repeated name)
  | none => .ok ()

/-- A field that has to have a certain form. -/
def fieldValue {α : Type} (name : String) (value : Option α) : Except SettingsFault α :=
  match value with
  | some a => .ok a
  | none => .error (.badValue name)

namespace LogSpecification

/-- The specification in YAML; a flag that is missing is false. -/
def ofYaml (node : Yaml) : Except SettingsFault LogSpecification := do
  let fields ← node.fields
  checkRepeated names fields
  fields.foldlM (fun spec (name, value) =>
    if names.contains name then (fieldValue name value.bool?).map (spec.set name)
    else .ok spec) none

end LogSpecification

namespace Settings

/-- The names of the fields. -/
def names : List String :=
  ["url", "connect_timeout_secs", "request_timeout_secs", "follow_redirects", "logging"]

/-- The settings with one field set; other names change nothing. -/
def set (s : Settings) (name : String) (value : Yaml) : Except SettingsFault Settings :=
  match name with
  | "url" => (fieldValue name value.text?).map fun url => { s with url }
  | "connect_timeout_secs" =>
    (fieldValue name value.word?).map fun connectTimeout => { s with connectTimeout }
  | "request_timeout_secs" =>
    (fieldValue name value.word?).map fun requestTimeout => { s with requestTimeout }
  | "follow_redirects" =>
    (fieldValue name value.bool?).map fun followRedirects => { s with followRedirects }
  | "logging" => (LogSpecification.ofYaml value).map fun logging => { s with logging }
  | _ => .ok s

/-- The settings in a YAML document. -/
def ofYaml (node : Yaml) : Except SettingsFault Settings := do
  let fields ← node.fields
  checkRepeated names fields
  fields.foldlM (fun s (name, value) => s.set name value) {}

/-- How settings are read from a text. -/
abbrev Reader := String → Except SettingsFault Settings

/-- The settings in a text of YAML without anchors, tags, directives and block scalars. -/
def ofText : Reader := fun text => do
  ofYaml (← (Yaml.ofText text).mapError .notYaml)

end Settings
end PolicyClient
