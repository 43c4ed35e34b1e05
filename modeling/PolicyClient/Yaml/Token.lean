/-
The tokens of YAML. In a block the column of a token decides to which collection it belongs, so the
ends of blocks are tokens too; inside brackets columns do not count. A colon makes a key of what
stands in front of it on its line, so the tokens that open a mapping are put in front of that once
the colon is read. Anchors, tags, directives and block scalars are refused.
-/
import PolicyClient.Yaml.Scalar

namespace PolicyClient.Yaml

/-- A token. A block is opened by `sequenceStart` or `mappingStart` and ended by `blockEnd`. -/
inductive Token
  | documentStart
  | documentEnd
  | sequenceStart
  | mappingStart
  | blockEnd
  | openSequence
  | closeSequence
  | openMapping
  | closeMapping
  | comma
  | dash
  | key
  | value
  | scalar (plain : Bool) (text : String)
  deriving DecidableEq, Repr

/-! ## Candidates for keys -/

/-- How many bytes may lie between the start of a key and its colon. -/
def maxKey : Nat := 1024

/-- A place where a key may have begun, and how many tokens stand in front of it. What stands at the
column of a block is required to be a key. -/
structure Candidate where
  place : Place
  number : Nat
  required : Bool

/-- Gives a candidate up. -/
def Candidate.drop : Option Candidate → Except Fault (Option Candidate)
  | some ⟨_, _, true⟩ => .error .noColon
  | _ => .ok none

/-- Gives a candidate up unless a colon here would be near enough, on the same line. -/
def Candidate.review (here : Place) : Option Candidate → Except Fault (Option Candidate)
  | none => .ok none
  | some c =>
    if c.place.line = here.line ∧ here.offset ≤ c.place.offset + maxKey then .ok (some c)
    else Candidate.drop (some c)

/-! ## The state of a lexer -/

/-- The tokens so far, in reverse, and what decides on those that follow: the candidate of the
innermost brackets and those of the brackets around them, the columns of the open blocks, innermost
first, and whether a key may stand here. -/
structure Lexer where
  cursor : Cursor
  reversed : List Token := []
  candidate : Option Candidate := none
  outer : List (Option Candidate) := []
  columns : List Nat := []
  keyAllowed : Bool := true

namespace Lexer

/-- Whether a bracket is open. -/
def inFlow (l : Lexer) : Bool :=
  !l.outer.isEmpty

/-- The least column that belongs to the innermost block. -/
def least (l : Lexer) : Nat :=
  match l.columns with
  | [] => 0
  | column :: _ => column + 1

/-- The column of the next character. -/
def column (l : Lexer) : Nat :=
  l.cursor.place.column

/-- Adds a token that is written with `count` characters. -/
def push (l : Lexer) (token : Token) (count : Nat) : Lexer :=
  { l with cursor := l.cursor.skip count, reversed := token :: l.reversed }

/-- Puts a token behind the first `number` tokens. -/
def insert (l : Lexer) (number : Nat) (token : Token) : Lexer :=
  let later := l.reversed.length - number
  { l with reversed := l.reversed.take later ++ token :: l.reversed.drop later }

/-! ## Blocks -/

/-- Opens a block at a column, behind the first `number` tokens, if that is no column of an open
block yet. -/
def openBlock (l : Lexer) (start : Token) (column number : Nat) : Lexer :=
  if l.inFlow || column < l.least then l
  else { l.insert number start with columns := column :: l.columns }

/-- Ends the innermost blocks. -/
def endBlocks (l : Lexer) (count : Nat) : Lexer :=
  { l with
    columns := l.columns.drop count
    reversed := List.replicate count .blockEnd ++ l.reversed }

/-- Ends the blocks that lie right of the next character. -/
def endBlocksRight (l : Lexer) : Lexer :=
  if l.inFlow then l else l.endBlocks (l.columns.takeWhile (l.column < ·)).length

/-- Ends all blocks, and gives the candidate up. -/
def endAll (l : Lexer) : Except Fault Lexer := do
  let l := if l.inFlow then l else l.endBlocks l.columns.length
  return { l with candidate := ← Candidate.drop l.candidate, keyAllowed := false }

/-- Opens a block at the next character, where one may begin. -/
def enterBlock (l : Lexer) (start : Token) : Except Fault Lexer :=
  if l.inFlow then .ok l
  else if l.keyAllowed then .ok (l.openBlock start l.column l.reversed.length)
  else .error .nestedOnOneLine

/-! ## Tokens one by one -/

/-- Makes a candidate of the next character, where a key may stand. -/
def offer (l : Lexer) : Except Fault Lexer :=
  if l.keyAllowed then do
    let _ ← Candidate.drop l.candidate
    let required := !l.inFlow && l.columns.head? == some l.column
    return { l with candidate := some ⟨l.cursor.place, l.reversed.length, required⟩ }
  else .ok l

/-- Adds the mark that begins or ends a document. -/
def mark (l : Lexer) (token : Token) : Except Fault Lexer :=
  l.endAll.map (·.push token 3)

/-- Opens a bracket; a bracket may be a key. -/
def openBracket (l : Lexer) (token : Token) : Except Fault Lexer := do
  let l ← l.offer
  return { l.push token 1 with
    candidate := none, outer := l.candidate :: l.outer, keyAllowed := true }

/-- Closes a bracket. -/
def closeBracket (l : Lexer) (token : Token) : Except Fault Lexer := do
  let candidate ← Candidate.drop l.candidate
  return { l.push token 1 with
    candidate := l.outer.headD candidate, outer := l.outer.drop 1, keyAllowed := false }

/-- Adds a comma. -/
def comma (l : Lexer) : Except Fault Lexer := do
  return { l.push .comma 1 with candidate := ← Candidate.drop l.candidate, keyAllowed := true }

/-- Adds the dash of an item. -/
def dash (l : Lexer) : Except Fault Lexer := do
  let l ← l.enterBlock .sequenceStart
  return { l.push .dash 1 with candidate := ← Candidate.drop l.candidate, keyAllowed := true }

/-- Adds the question mark in front of a key. -/
def question (l : Lexer) : Except Fault Lexer := do
  let l ← l.enterBlock .mappingStart
  return { l.push .key 1 with candidate := ← Candidate.drop l.candidate, keyAllowed := !l.inFlow }

/-- Adds a colon; if there is a candidate, it is the key. -/
def colon (l : Lexer) : Except Fault Lexer :=
  match l.candidate with
  | some c =>
    let l := (l.insert c.number .key).openBlock .mappingStart c.place.column c.number
    .ok { l.push .value 1 with candidate := none, keyAllowed := false }
  | none => do
    let l ← l.enterBlock .mappingStart
    return { l.push .value 1 with keyAllowed := !l.inFlow }

/-- Adds a quoted scalar. -/
def quoted (l : Lexer) (quote : Char) : Except Fault Lexer := do
  let l ← l.offer
  let (text, cursor) ← takeQuoted quote l.cursor
  return { l.push (.scalar false text) 0 with cursor, keyAllowed := false }

/-- Adds a plain scalar; behind one that ends with its line a key may stand. -/
def plain (l : Lexer) : Except Fault Lexer := do
  let l ← l.offer
  let (text, keyAllowed, cursor) ← takePlain l.inFlow l.least l.cursor
  return { l.push (.scalar true text) 0 with cursor, keyAllowed }

/-- Adds the token that stands at the cursor. -/
def step (l : Lexer) : Except Fault Lexer :=
  if l.cursor.isMark '-' then l.mark .documentStart
  else if l.cursor.isMark '.' then l.mark .documentEnd
  else
    match l.cursor.rest with
    | [] => .ok l
    | '[' :: _ => l.openBracket .openSequence
    | ']' :: _ => l.closeBracket .closeSequence
    | '\x7b' :: _ => l.openBracket .openMapping
    | '\x7d' :: _ => l.closeBracket .closeMapping
    | ',' :: _ => l.comma
    | '-' :: rest => if endsToken rest then l.dash else l.plain
    | '?' :: rest => if l.inFlow || endsToken rest then l.question else l.plain
    | ':' :: rest => if l.inFlow || endsToken rest then l.colon else l.plain
    | c :: _ =>
      if c = '\'' ∨ c = '"' then l.quoted c
      else if c = '\t' ∨ "&*!|>%@`".toList.contains c then .error .noToken
      else l.plain

/-- Goes on to the next token, and ends what cannot hold it. -/
def advance (l : Lexer) : Except Fault Lexer := do
  let (cursor, keyAllowed) := l.cursor.seek l.inFlow l.keyAllowed
  let candidate ← Candidate.review cursor.place l.candidate
  let outer ← l.outer.mapM (Candidate.review cursor.place)
  return { l with cursor, keyAllowed, candidate, outer }.endBlocksRight

/-- The tokens up to the end of the text, in reverse. -/
def run : (fuel : Nat) → Lexer → Except Fault (List Token)
  | 0, _ => .error .tooDeep
  | fuel + 1, l => do
    let l ← l.advance
    if l.cursor.rest.isEmpty then return (← l.endAll).reversed
    run fuel (← l.step)

end Lexer

/-! ## Texts -/

/-- The tokens of a text. -/
def Token.ofText (text : String) : Except Fault (List Token) := do
  if !text.toList.all isAllowed then throw .forbiddenCharacter
  let chars := unifyLines text.toList
  return (← Lexer.run (chars.length + 1) { cursor := ⟨chars, {}⟩ }).reverse

end PolicyClient.Yaml
