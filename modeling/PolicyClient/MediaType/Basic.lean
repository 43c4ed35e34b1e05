/-
Media types. Type and subtype are tokens in lower case; parameters keep the order in which their
names first came, and their names are looked up without regard to case. A media type is built by
`ofParts` or read by `parse`, which alone decide what is well formed.
-/
import PolicyClient.Charset.Label
import PolicyClient.MediaType.Quality
import PolicyClient.Text.Quoted

namespace PolicyClient

/-- A media type with its parameters and the charset that they name. -/
structure MediaType where
  type : String
  subtype : String
  parameters : List (String × String)
  charset : Option Charset
  deriving DecidableEq, Repr

/-! ## Errors -/

/-- Why a text is no type and subtype. -/
inductive FormatFault
  | empty
  | noSlash
  | noSubtype
  | emptyType
  | emptySubtype
  | badType (type : String)
  | badSubtype (subtype : String)
  | wildcardType
  deriving DecidableEq, Repr

/-- Why a name and a value are no parameter. -/
inductive ParameterFault
  | badName
  | emptyValue
  | qualityOutOfRange
  | qualityNotNumber
  | unknownCharset
  deriving DecidableEq, Repr

/-- Why there is no media type. -/
inductive MediaTypeError
  | format (input : String) (fault : FormatFault)
  | parameter (name value : String) (fault : ParameterFault)
  deriving DecidableEq, Repr

/-- The reason that a message gives. -/
def FormatFault.reason : FormatFault → String
  | .empty => "media type must not be empty"
  | .noSlash => "does not contain '/'"
  | .noSubtype => "does not contain subtype after '/'"
  | .emptyType => "type must not be empty"
  | .emptySubtype => "subtype must not be empty"
  | .badType type => s!"type '{type}' is not a valid token"
  | .badSubtype subtype => s!"subtype '{subtype}' is not a valid token"
  | .wildcardType => "wildcard type is legal only in '*/*' (all media types)"

/-- The reason that a message gives. -/
def ParameterFault.reason : ParameterFault → String
  | .badName => "name is not a valid token"
  | .emptyValue => "value must not be empty"
  | .qualityOutOfRange => "quality value should be between 0.0 and 1.0"
  | .qualityNotNumber => "quality value is not a number"
  | .unknownCharset => "unknown character encoding"

/-- The wording of an error. -/
def MediaTypeError.message : MediaTypeError → String
  | .format input fault => "Invalid media type '" ++ input ++ "': " ++ fault.reason
  | .parameter name value fault =>
    "Invalid media type parameter '" ++ name ++ "=" ++ value ++ "': " ++ fault.reason

namespace MediaType

/-! ## Tokens -/

/-- The characters of a token: ASCII letters, digits and a few marks. -/
def isTokenChar (c : Char) : Bool :=
  c.isAlphanum || "!#$%&'*+-.^_`|~".toList.contains c

/-- A token has at least one character. -/
def isToken (s : List Char) : Bool :=
  !s.isEmpty && s.all isTokenChar

/-- Checks a type and a subtype; `input` is what an error shows. -/
def checkType (input : String) (type subtype : List Char) : Except MediaTypeError Unit :=
  if type = [] then .error (.format input .emptyType)
  else if subtype = [] then .error (.format input .emptySubtype)
  else if isToken type = false then .error (.format input (.badType (String.ofList type)))
  else if isToken subtype = false then .error (.format input (.badSubtype (String.ofList subtype)))
  else if type = ['*'] ∧ subtype ≠ ['*'] then .error (.format input .wildcardType)
  else .ok ()

/-- A media type without parameters. -/
def bare (type subtype : String) : MediaType :=
  ⟨type, subtype, [], none⟩

/-! ## Parameters -/

/-- The parameters with one set. A name that is there keeps its place and its spelling. -/
def setParameter : List (String × String) → String → String → List (String × String)
  | [], name, value => [(name, value)]
  | (key, old) :: rest, name, value =>
    if Text.sameName key name then (key, value) :: rest
    else (key, old) :: setParameter rest name value

/-- The charset after a parameter is set: `charset` has to name one, and `q` a value from zero to
one. -/
def charsetAfter (current : Option Charset) (name value : String) :
    Except MediaTypeError (Option Charset) :=
  if Text.sameName name "q" then
    match Quality.ofText? value with
    | none => .error (.parameter name value .qualityNotNumber)
    | some q => if q.inRange then .ok current else .error (.parameter name value .qualityOutOfRange)
  else if Text.sameName name "charset" then
    match Charset.ofLabel? value with
    | none => .error (.parameter name value .unknownCharset)
    | some charset => .ok (some charset)
  else .ok current

/-- The media type with one more parameter. -/
def withParameter (m : MediaType) (name value : String) : Except MediaTypeError MediaType :=
  if isToken name.toList = false then .error (.parameter name value .badName)
  else if value = "" then .error (.parameter name value .emptyValue)
  else (charsetAfter m.charset name value).map fun charset =>
    { m with parameters := setParameter m.parameters name value, charset }

/-- The media type with the parameters listed, set one after the other. -/
def withParameters (m : MediaType) (parameters : List (String × String)) :
    Except MediaTypeError MediaType :=
  parameters.foldlM (fun m (name, value) => m.withParameter name value) m

/-- The value of a parameter. -/
def parameter? (m : MediaType) (name : String) : Option String :=
  (m.parameters.find? fun p => Text.sameName p.1 name).map (·.2)

/-- The value of `q`, one unless it is given. -/
def quality (m : MediaType) : Quality :=
  ((m.parameter? "q").bind Quality.ofText?).getD .one

/-! ## Building and reading -/

/-- The media type of a type, a subtype and parameters with unquoted values. White space around
type and subtype is dropped. -/
def ofParts (type subtype : String) (parameters : List (String × String)) :
    Except MediaTypeError MediaType := do
  let t := Text.trim type.toList
  let s := Text.trim subtype.toList
  checkType (type ++ "/" ++ subtype) t s
  (bare (Text.lower t) (Text.lower s)).withParameters parameters

/-- The name and the unquoted value of a segment; one without `=` is passed over. -/
def parameterOf? (segment : List Char) : Option (String × String) :=
  (Text.splitFirst? '=' (Text.trim segment)).map fun (name, value) =>
    (String.ofList (Text.trim name), String.ofList (Text.Quoted.unquote (Text.trim value)))

/-- The type and subtype that stand before the parameters. A lone `*` means `*/*`. -/
def parseType (input : String) (s : List Char) : Except MediaTypeError MediaType :=
  let full := Text.trim s
  if full = [] then .error (.format input .empty)
  else
    match Text.splitFirst? '/' (if full = ['*'] then ['*', '/', '*'] else full) with
    | none => .error (.format input .noSlash)
    | some (_, []) => .error (.format input .noSubtype)
    | some (type, subtype) => do
      checkType input type subtype
      return bare (Text.lower type) (Text.lower subtype)

/-- Reads a media type: what stands before the first semicolon, then parameters. -/
def parse (input : String) : Except MediaTypeError MediaType := do
  let (front, behind) := (Text.splitFirst? ';' input.toList).getD (input.toList, [])
  let m ← parseType input front
  m.withParameters ((Text.Quoted.split ';' behind).filterMap parameterOf?)

/-- Reads media types between commas; blank items are passed over. -/
def parseList (input : String) : Except MediaTypeError (List MediaType) :=
  ((Text.Quoted.split ',' input.toList).filter fun item => Text.trim item ≠ []).mapM
    fun item => parse (String.ofList item)

/-! ## Writing -/

/-- A parameter behind a semicolon; a value that is no token is quoted. -/
def renderParameter (name value : String) : String :=
  ";" ++ name ++ "=" ++
    if isToken value.toList then value else String.ofList (Text.Quoted.quote value.toList)

/-- The text of a media type. -/
def render (m : MediaType) : String :=
  m.type ++ "/" ++ m.subtype ++ String.join (m.parameters.map fun p => renderParameter p.1 p.2)

/-- The text of media types in a header. -/
def renderList (ms : List MediaType) : String :=
  String.intercalate ", " (ms.map render)

/-! ## Inclusion -/

/-- Whether the type is `*`. -/
def isWildcardType (m : MediaType) : Bool :=
  m.type == "*"

/-- What follows `*+` in a subtype that stands for all subtypes with that suffix. -/
def wildcardSuffix? (m : MediaType) : Option (List Char) :=
  match m.subtype.toList with
  | '*' :: '+' :: suffix => some suffix
  | _ => none

/-- Whether the subtype is `*` or `*+suffix`. -/
def isWildcardSubtype (m : MediaType) : Bool :=
  m.subtype == "*" || m.wildcardSuffix?.isSome

/-- What follows the first `+` of a subtype. -/
def suffix? (m : MediaType) : Option (List Char) :=
  (Text.splitFirst? '+' m.subtype.toList).map (·.2)

/-- Whether a media type stands for another. Parameters do not matter. -/
def includes (m other : MediaType) : Bool :=
  if m.isWildcardType then true
  else if m.type ≠ other.type then false
  else if m.subtype = other.subtype ∨ m.subtype = "*" then true
  else
    match m.wildcardSuffix?, other.suffix? with
    | some suffix, some otherSuffix => suffix == otherSuffix
    | _, _ => false

/-! ## Well-known media types -/

/-- JSON documents. -/
def applicationJson : MediaType := bare "application" "json"

/-- All kinds of documents in JSON. -/
def applicationAllJson : MediaType := bare "application" "*+json"

/-- Text. -/
def textPlain : MediaType := bare "text" "plain"

/-- All kinds of text. -/
def textAll : MediaType := bare "text" "*"

/-- Everything. -/
def all : MediaType := bare "*" "*"

end MediaType
end PolicyClient
