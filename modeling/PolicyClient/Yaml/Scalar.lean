/-
Scalars. Lines of a scalar are folded: a single line feed becomes a space, of several all but the
first are kept, other line ends are kept all, and blanks around them are dropped.
-/
import PolicyClient.Text.Digits
import PolicyClient.Yaml.Cursor

namespace PolicyClient.Yaml

/-! ## Gaps -/

/-- What lies between two words: blanks, or line ends. Of these the first is absent if it is
escaped; the further ones are held in reverse. -/
inductive Gap
  | blanks (reversed : List Char)
  | lines (first : Option Char) (further : List Char)

namespace Gap

/-- A gap with one more blank. -/
def blank : Gap → Char → Gap
  | .blanks cs, c => .blanks (c :: cs)
  | gap, _ => gap

/-- A gap with one more line end. -/
def line : Gap → Char → Gap
  | .blanks _, c => .lines (some c) []
  | .lines first further, c => .lines first (c :: further)

/-- Whether a gap holds a line end. -/
def isBroken : Gap → Bool
  | .blanks _ => false
  | .lines _ _ => true

/-- The characters that a gap leaves in a scalar, in reverse. -/
def fold : Gap → List Char
  | .blanks cs => cs
  | .lines (some '\n') [] => [' ']
  | .lines (some '\n') further => further
  | .lines first further => further ++ first.toList

end Gap

/-! ## Plain scalars -/

/-- The characters that end a plain scalar inside brackets. -/
def endsFlow (c : Char) : Bool :=
  c == ',' || c == '[' || c == ']' || c == '\x7b' || c == '\x7d'

/-- A word: what stands before a blank, a line end, a colon with nothing attached to it, or, inside
brackets, a comma or a bracket. -/
def takeWord (flow : Bool) : List Char → Except Fault (List Char)
  | [] => .ok []
  | c :: rest =>
    if isGap c ∨ isBreak c ∨ (flow ∧ endsFlow c) then .ok []
    else if c = ':' then
      if endsToken rest then .ok []
      else if flow ∧ rest.head?.any (fun d => d == '?' || endsFlow d) then .error .unexpectedColon
      else (takeWord flow rest).map (c :: ·)
    else (takeWord flow rest).map (c :: ·)

/-- The gap at a place and the place behind it. Once a line has ended, a tab in front of column
`least` is a fault. -/
def takeGap (least : Nat) : (s : List Char) → Gap → Place → Except Fault (Gap × Cursor)
  | [], gap, p => .ok (gap, ⟨[], p⟩)
  | c :: rest, gap, p =>
    if isBreak c then takeGap least rest (gap.line c) (p.after c)
    else if isGap c then
      if gap.isBroken ∧ c = '\t' ∧ p.column < least then .error .tabInIndentation
      else takeGap least rest (gap.blank c) (p.after c)
    else .ok (gap, ⟨c :: rest, p⟩)

/-- The words of a plain scalar from a place on, joined to those in front by a gap, in reverse; the
gap behind the last word, and the place behind that. -/
def takeWords (flow : Bool) (least : Nat) : (fuel : Nat) → (reversed : List Char) → Gap → Cursor →
    Except Fault (List Char × Gap × Cursor)
  | 0, reversed, gap, c => .ok (reversed, gap, c)
  | fuel + 1, reversed, gap, c => do
    if c.isBoundary || c.rest.head? == some '#' then return (reversed, gap, c)
    let word ← takeWord flow c.rest
    if word.isEmpty then return (reversed, gap, c)
    let reversed := word.reverse ++ gap.fold ++ reversed
    let c := c.skip word.length
    let (gap, c) ← takeGap least c.rest (.blanks []) c.place
    if !flow && c.place.column < least then return (reversed, gap, c)
    takeWords flow least fuel reversed gap c

/-- A plain scalar, the place of what follows, and whether that stands on a line of its own. The
lines of a scalar in a block start at column `least` or behind it. -/
def takePlain (flow : Bool) (least : Nat) (c : Cursor) : Except Fault (String × Bool × Cursor) := do
  let (reversed, gap, c) ← takeWords flow least c.rest.length [] (.blanks []) c
  return (String.ofList reversed.reverse, gap.isBroken, c)

/-! ## Quoted scalars -/

/-- The character that a letter behind a backslash stands for. -/
def escaped? (c : Char) : Option Char :=
  match c with
  | '0' => some '\x00'
  | 'a' => some '\x07'
  | 'b' => some '\x08'
  | 't' => some '\t'
  | '\t' => some '\t'
  | 'n' => some '\n'
  | 'v' => some '\x0b'
  | 'f' => some '\x0c'
  | 'r' => some '\r'
  | 'e' => some '\x1b'
  | ' ' => some ' '
  | '"' => some '"'
  | '/' => some '/'
  | '\\' => some '\\'
  | 'N' => some '\u0085'
  | '_' => some '\u00a0'
  | 'L' => some '\u2028'
  | 'P' => some '\u2029'
  | _ => none

/-- How many digits in base sixteen a letter behind a backslash announces. -/
def hexLength? (c : Char) : Option Nat :=
  match c with
  | 'x' => some 2
  | 'u' => some 4
  | 'U' => some 8
  | _ => none

/-- The character with a number in base sixteen of a given length. -/
def hexChar? (length : Nat) (s : List Char) : Option Char := do
  let digits := s.take length
  guard (digits.length = length)
  let n ← Text.natOfDigits? 16 digits
  if n.isValidChar then some (Char.ofNat n) else none

/-- The state of a quoted scalar: what it holds so far, in reverse, and the gap behind that. -/
structure Quoted where
  reversed : List Char
  gap : Gap

/-- The scalar with a character that is no blank. -/
def Quoted.push (q : Quoted) (c : Char) : Quoted :=
  ⟨c :: q.gap.fold ++ q.reversed, .blanks []⟩

/-- What a quoted scalar holds. -/
def Quoted.value (q : Quoted) : String :=
  String.ofList (q.gap.fold ++ q.reversed).reverse

/-- A quoted scalar from a place behind its opening quote on, and the place behind it. -/
def takeQuotedFrom (quote : Char) : (fuel : Nat) → Quoted → Cursor → Except Fault (String × Cursor)
  | 0, _, _ => .error .unclosedQuote
  | fuel + 1, q, c =>
    if c.isBoundary then .error .unclosedQuote
    else
      match c.rest with
      | [] => .error .unclosedQuote
      | d :: rest =>
        if d = quote then
          if quote = '\'' ∧ rest.head? = some '\'' then
            takeQuotedFrom quote fuel (q.push d) (c.skip 2)
          else .ok (q.value, c.skip 1)
        else if isBreak d then takeQuotedFrom quote fuel ⟨q.reversed, q.gap.line d⟩ (c.skip 1)
        else if isGap d then takeQuotedFrom quote fuel ⟨q.reversed, q.gap.blank d⟩ (c.skip 1)
        else if d = '\\' ∧ quote = '"' then
          match rest with
          | [] => .error .unclosedQuote
          | e :: rest =>
            if isBreak e then
              takeQuotedFrom quote fuel ⟨q.gap.fold ++ q.reversed, .lines none []⟩ (c.skip 2)
            else
              match escaped? e, hexLength? e with
              | some value, _ => takeQuotedFrom quote fuel (q.push value) (c.skip 2)
              | none, some length =>
                match hexChar? length rest with
                | some value => takeQuotedFrom quote fuel (q.push value) (c.skip (2 + length))
                | none => .error .badEscape
              | none, none => .error .badEscape
        else takeQuotedFrom quote fuel (q.push d) (c.skip 1)

/-- A quoted scalar and the place behind it. -/
def takeQuoted (quote : Char) (c : Cursor) : Except Fault (String × Cursor) :=
  takeQuotedFrom quote (c.rest.length + 1) ⟨[], .blanks []⟩ (c.skip 1)

end PolicyClient.Yaml
