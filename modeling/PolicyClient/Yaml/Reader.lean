/-
Nodes from tokens. Between two tokens that need a node there may be none, which is an empty one.
Nodes may nest as deep as the text is long.
-/
import PolicyClient.Yaml.Token

namespace PolicyClient.Yaml

/-- Behind an item in brackets comes a comma, which is dropped, or the closing bracket. -/
def takeComma (close : Token) : List Token → Except Fault (List Token)
  | [] => .error .unclosedCollection
  | t :: rest =>
    if t = .comma then .ok rest
    else if t = close then .ok (t :: rest)
    else .error .unclosedCollection

mutual

/-- A node. Inside brackets there are no blocks; the items of a sequence may stand right below the
key of a mapping, without a block of their own. -/
def takeNode (block underKey : Bool) : (fuel : Nat) → List Token →
    Except Fault (Yaml × List Token)
  | 0, _ => .error .tooDeep
  | fuel + 1, tokens =>
    match tokens with
    | .scalar plain text :: rest => .ok (.scalar plain text, rest)
    | .openSequence :: rest => do
      let (items, rest) ← takeFlowItems fuel rest
      return (.sequence items, rest)
    | .openMapping :: rest => do
      let (entries, rest) ← takeFlowEntries fuel rest
      return (.mapping entries, rest)
    | .sequenceStart :: rest =>
      if block then do
        let (items, rest) ← takeItems fuel rest
        return (.sequence items, rest)
      else .error .unexpectedToken
    | .mappingStart :: rest =>
      if block then do
        let (entries, rest) ← takeEntries fuel rest
        return (.mapping entries, rest)
      else .error .unexpectedToken
    | .dash :: rest =>
      if underKey then do
        let (items, rest) ← takeDashes fuel (.dash :: rest)
        return (.sequence items, rest)
      else .error .unexpectedToken
    | _ => .error .unexpectedToken

/-- A node, or an empty one in front of a token that cannot begin one. -/
def takeWritten (block underKey : Bool) (stops : List Token) : (fuel : Nat) → List Token →
    Except Fault (Yaml × List Token)
  | 0, _ => .error .tooDeep
  | fuel + 1, tokens =>
    if tokens.head?.any stops.contains then .ok (.empty, tokens)
    else takeNode block underKey fuel tokens

/-- The value of a key, which is empty if there is no colon. -/
def takeValue (block : Bool) (stops : List Token) : (fuel : Nat) → List Token →
    Except Fault (Yaml × List Token)
  | 0, _ => .error .tooDeep
  | fuel + 1, tokens =>
    match tokens with
    | .value :: rest => takeWritten block block stops fuel rest
    | _ => .ok (.empty, tokens)

/-- The items of a block up to its end. -/
def takeItems : (fuel : Nat) → List Token → Except Fault (List Yaml × List Token)
  | 0, _ => .error .tooDeep
  | fuel + 1, tokens =>
    match tokens with
    | .dash :: rest => do
      let (item, rest) ← takeWritten true false [.dash, .blockEnd] fuel rest
      let (items, rest) ← takeItems fuel rest
      return (item :: items, rest)
    | .blockEnd :: rest => .ok ([], rest)
    | _ => .error .unexpectedToken

/-- The items right below a key, as far as there are dashes. -/
def takeDashes : (fuel : Nat) → List Token → Except Fault (List Yaml × List Token)
  | 0, _ => .error .tooDeep
  | fuel + 1, tokens =>
    match tokens with
    | .dash :: rest => do
      let (item, rest) ← takeWritten true false [.dash, .key, .value, .blockEnd] fuel rest
      let (items, rest) ← takeDashes fuel rest
      return (item :: items, rest)
    | _ => .ok ([], tokens)

/-- The entries of a block up to its end. -/
def takeEntries : (fuel : Nat) → List Token → Except Fault (List (Yaml × Yaml) × List Token)
  | 0, _ => .error .tooDeep
  | fuel + 1, tokens =>
    match tokens with
    | .key :: rest => do
      let (key, rest) ← takeWritten true true [.key, .value, .blockEnd] fuel rest
      let (value, rest) ← takeValue true [.key, .value, .blockEnd] fuel rest
      let (entries, rest) ← takeEntries fuel rest
      return ((key, value) :: entries, rest)
    | .blockEnd :: rest => .ok ([], rest)
    | _ => .error .unexpectedToken

/-- The items up to a closing bracket. An item with a key is a mapping; where the key is empty, the
token behind it is passed over. -/
def takeFlowItems : (fuel : Nat) → List Token → Except Fault (List Yaml × List Token)
  | 0, _ => .error .tooDeep
  | fuel + 1, tokens =>
    match tokens with
    | .closeSequence :: rest => .ok ([], rest)
    | .key :: rest => do
      let (key, rest) ←
        if rest.head?.any [.value, .comma, .closeSequence].contains then pure (.empty, rest.drop 1)
        else takeNode false false fuel rest
      let (value, rest) ← takeValue false [.comma, .closeSequence] fuel rest
      let (items, rest) ← takeFlowItems fuel (← takeComma .closeSequence rest)
      return (.mapping [(key, value)] :: items, rest)
    | _ => do
      let (item, rest) ← takeNode false false fuel tokens
      let (items, rest) ← takeFlowItems fuel (← takeComma .closeSequence rest)
      return (item :: items, rest)

/-- The entries up to a closing bracket. What has no colon is a key without a value. -/
def takeFlowEntries : (fuel : Nat) → List Token → Except Fault (List (Yaml × Yaml) × List Token)
  | 0, _ => .error .tooDeep
  | fuel + 1, tokens =>
    match tokens with
    | .closeMapping :: rest => .ok ([], rest)
    | .key :: rest => do
      let (key, rest) ← takeWritten false false [.value, .comma, .closeMapping] fuel rest
      let (value, rest) ← takeValue false [.comma, .closeMapping] fuel rest
      let (entries, rest) ← takeFlowEntries fuel (← takeComma .closeMapping rest)
      return ((key, value) :: entries, rest)
    | _ => do
      let (key, rest) ← takeNode false false fuel tokens
      let (entries, rest) ← takeFlowEntries fuel (← takeComma .closeMapping rest)
      return ((key, .empty) :: entries, rest)

end

/-! ## Documents -/

/-- The document that tokens make up; only marks that end it may follow. Without any token it is
empty. -/
def ofTokens (tokens : List Token) : Except Fault Yaml := do
  let fuel := 4 * tokens.length + 4
  let (node, rest) ← match tokens with
    | [] => pure (.empty, [])
    | [.documentStart] => pure (.empty, [])
    | .documentStart :: rest =>
      takeWritten true false [.documentStart, .documentEnd] fuel rest
    | _ => takeNode true false fuel tokens
  if !rest.all (· == .documentEnd) then throw .secondDocument
  return node

/-- The document of a text. -/
def ofText (text : String) : Except Fault Yaml := do
  ofTokens (← Token.ofText text)

end PolicyClient.Yaml
