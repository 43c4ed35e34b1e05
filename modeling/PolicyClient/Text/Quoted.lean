/-
Quoted strings in header values. A text is cut at separators that lie outside double quotes;
inside quotes a backslash protects the next character. The parts joined by the separator are the
text again, and a quoted value is read back by `unquote`.
-/
namespace PolicyClient.Text.Quoted

/-! ## Inside and outside quotes -/

/-- Where a character stands: outside quotes, inside them, or inside and after a backslash. -/
inductive Zone
  | outside
  | inside
  | escaped
  deriving DecidableEq, Repr

/-- The zone behind a character. -/
def Zone.after : Zone → Char → Zone
  | .escaped, _ => .inside
  | .inside, c => if c = '\\' then .escaped else if c = '"' then .outside else .inside
  | .outside, c => if c = '"' then .inside else .outside

/-! ## Splitting -/

/-- Cuts at each separator outside quotes, starting in a given zone. -/
def splitFrom (separator : Char) : Zone → List Char → List (List Char)
  | _, [] => [[]]
  | zone, c :: rest =>
    if zone = .outside ∧ c ≠ '"' ∧ c = separator then [] :: splitFrom separator .outside rest
    else
      match splitFrom separator (zone.after c) rest with
      | [] => [[c]]
      | part :: parts => (c :: part) :: parts

/-- The parts of a text between the separators outside quotes. -/
def split (separator : Char) (s : List Char) : List (List Char) :=
  splitFrom separator .outside s

/-! ## Quoting -/

/-- A quote and a backslash take a backslash in front. -/
def escape (s : List Char) : List Char :=
  s.flatMap fun c => if c = '"' ∨ c = '\\' then ['\\', c] else [c]

/-- The value between double quotes. -/
def quote (s : List Char) : List Char :=
  '"' :: escape s ++ ['"']

/-- A backslash gives way to the character behind it; one at the end is dropped. -/
def unescape : List Char → List Char
  | [] => []
  | ['\\'] => []
  | '\\' :: c :: rest => c :: unescape rest
  | c :: rest => c :: unescape rest

/-- A text that begins and ends with two different quotes loses them and its backslashes; any
other is taken as it stands. -/
def unquote (s : List Char) : List Char :=
  match s with
  | '"' :: rest => if rest.getLast? = some '"' then unescape rest.dropLast else s
  | _ => s

end PolicyClient.Text.Quoted
