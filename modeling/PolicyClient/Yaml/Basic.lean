/-
YAML as far as settings use it: scalars, sequences and mappings, in blocks and in brackets, and
why a text may not be understood.
-/
namespace PolicyClient

/-- A node. A plain scalar is one that stands without quotes; an absent node is an empty one. -/
inductive Yaml
  | scalar (plain : Bool) (value : String)
  | sequence (items : List Yaml)
  | mapping (entries : List (Yaml × Yaml))
  deriving Repr

namespace Yaml

instance : Inhabited Yaml := ⟨.scalar true ""⟩

/-- The node where nothing is written. -/
def empty : Yaml := .scalar true ""

/-! ## Faults -/

/-- Why a text is not understood. -/
inductive Fault
  | forbiddenCharacter
  | badEscape
  | unclosedQuote
  | tabInIndentation
  | noToken
  | unexpectedToken
  | unexpectedColon
  | noColon
  | nestedOnOneLine
  | unclosedCollection
  | secondDocument
  | tooDeep
  deriving DecidableEq, Repr

/-- The wording of a fault. -/
def Fault.message : Fault → String
  | .forbiddenCharacter => "control characters are not allowed"
  | .badEscape => "found unknown escape character"
  | .unclosedQuote => "found unexpected end of a quoted scalar"
  | .tabInIndentation => "found a tab character that violates indentation"
  | .noToken => "found character that cannot start any token"
  | .unexpectedToken => "found a token that does not belong here"
  | .unexpectedColon => "found unexpected ':'"
  | .noColon => "could not find expected ':'"
  | .nestedOnOneLine => "nested values are not allowed in this context"
  | .unclosedCollection => "found unexpected end of a flow collection"
  | .secondDocument => "more than one document is not supported"
  | .tooDeep => "nested too deeply"

end Yaml
end PolicyClient
