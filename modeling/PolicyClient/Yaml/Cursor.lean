/-
The characters of YAML, and the place of a reader in its text. The structure of a block is given by
columns, which count characters; how far a key reaches is counted in bytes.
-/
import PolicyClient.Yaml.Basic

namespace PolicyClient.Yaml

/-! ## Characters -/

/-- The characters that a text may hold. -/
def isAllowed (c : Char) : Bool :=
  let n := c.toNat
  c == '\t' || c == '\n' || c == '\r' || (0x20 ≤ n && n ≤ 0x7E) || n == 0x85 ||
    (0xA0 ≤ n && n ≤ 0xFFFD) || 0x10000 ≤ n

/-- The text with a line feed for a line end. The separators of lines and of paragraphs end a line
too, but stay what they are. -/
def unifyLines : List Char → List Char
  | [] => []
  | '\r' :: '\n' :: rest => '\n' :: unifyLines rest
  | c :: rest => (if c = '\r' ∨ c = '\u0085' then '\n' else c) :: unifyLines rest

/-- Whether a line ends with this character. -/
def isBreak (c : Char) : Bool :=
  c == '\n' || c == '\u2028' || c == '\u2029'

/-- A space or a tab. -/
def isGap (c : Char) : Bool :=
  c == ' ' || c == '\t'

/-- Whether the text ends, breaks or has a gap here. -/
def endsToken : List Char → Bool
  | [] => true
  | c :: _ => isGap c || isBreak c

/-! ## Places -/

/-- A place: its line, its column, and how many bytes stand in front of it in its line. -/
structure Place where
  line : Nat := 0
  column : Nat := 0
  offset : Nat := 0

/-- The place behind a character. -/
def Place.after (p : Place) (c : Char) : Place :=
  if isBreak c then ⟨p.line + 1, 0, 0⟩ else ⟨p.line, p.column + 1, p.offset + c.utf8Size⟩

/-- A place in a text and what follows it. -/
structure Cursor where
  rest : List Char
  place : Place := {}

namespace Cursor

/-- The place behind `count` characters. -/
def skip (c : Cursor) (count : Nat) : Cursor :=
  ⟨c.rest.drop count, (c.rest.take count).foldl Place.after c.place⟩

/-- The place of the next token, and whether a key may stand there. Blanks, line ends and comments
are passed over, and so is a byte order mark that starts a line. Where a key of a block may stand, a
tab is no blank; a new line of a block is such a place. -/
def seekFrom (flow : Bool) : (s : List Char) → (comment key : Bool) → Place → Cursor × Bool
  | [], _, key, p => (⟨[], p⟩, key)
  | c :: rest, comment, key, p =>
    if isBreak c then seekFrom flow rest false (key || !flow) (p.after c)
    else if comment || c = '#' then seekFrom flow rest true key (p.after c)
    else if c = ' ' || (c = '\t' && (flow || !key)) || (c = '\uFEFF' && p.column = 0) then
      seekFrom flow rest false key (p.after c)
    else (⟨c :: rest, p⟩, key)

/-- The next token, inside brackets or outside, and whether a key may stand there. -/
def seek (c : Cursor) (flow key : Bool) : Cursor × Bool :=
  seekFrom flow c.rest false key c.place

/-- Whether a line starts with three such characters and nothing attached to them. -/
def isMark (c : Cursor) (mark : Char) : Bool :=
  c.place.column == 0 && c.rest.take 3 == [mark, mark, mark] && endsToken (c.rest.drop 3)

/-- Whether a document ends or begins here. -/
def isBoundary (c : Cursor) : Bool :=
  c.isMark '-' || c.isMark '.'

end Cursor
end PolicyClient.Yaml
