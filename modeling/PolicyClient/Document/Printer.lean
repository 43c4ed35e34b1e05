/-
Documents as text. The compact form has no white space; the indented form puts each item and
member on a line of its own, two spaces deeper than its container, and leaves empty containers
closed. Strings are written as they are but for quotes, backslashes and control characters.
-/
import PolicyClient.Document.Basic
import PolicyClient.Text.Utf8

namespace PolicyClient.Document

/-! ## Strings -/

/-- A digit in base sixteen, in lower case. -/
def hexDigit (n : Nat) : Char :=
  if n < 10 then Char.ofNat (48 + n) else Char.ofNat (87 + n)

/-- How a character is written inside a string. -/
def escapeChar (c : Char) : List Char :=
  if c = '"' then ['\\', '"']
  else if c = '\\' then ['\\', '\\']
  else if c = '\x08' then ['\\', 'b']
  else if c = '\x0c' then ['\\', 'f']
  else if c = '\n' then ['\\', 'n']
  else if c = '\r' then ['\\', 'r']
  else if c = '\t' then ['\\', 't']
  else if c.toNat < 0x20 then
    ['\\', 'u', '0', '0', hexDigit (c.toNat / 16), hexDigit (c.toNat % 16)]
  else [c]

/-- A string between quotes. -/
def quoted (s : String) : List Char :=
  '"' :: s.toList.flatMap escapeChar ++ ['"']

/-! ## The compact form -/

mutual

/-- The characters of the compact form. -/
def chars : Document → List Char
  | .null => "null".toList
  | .bool true => "true".toList
  | .bool false => "false".toList
  | .number n => n.chars
  | .text s => quoted s
  | .array [] => ['[', ']']
  | .array (item :: items) => '[' :: chars item ++ itemChars items ++ [']']
  | .object [] => ['\x7b', '\x7d']
  | .object ((key, value) :: members) =>
    '\x7b' :: quoted key ++ ':' :: chars value ++ memberChars members ++ ['\x7d']

/-- The items behind the first, each after a comma. -/
def itemChars : List Document → List Char
  | [] => []
  | item :: items => ',' :: chars item ++ itemChars items

/-- The members behind the first, each after a comma. -/
def memberChars : List (String × Document) → List Char
  | [] => []
  | (key, value) :: members => ',' :: quoted key ++ ':' :: chars value ++ memberChars members

end

/-- The compact text of a document. -/
def print (d : Document) : String :=
  String.ofList d.chars

/-! ## The indented form -/

/-- A new line at a depth of nesting. -/
def newline (depth : Nat) : List Char :=
  '\n' :: List.replicate (2 * depth) ' '

mutual

/-- The characters of the indented form of a document inside `depth` containers. -/
def indentedChars (depth : Nat) : Document → List Char
  | .null => "null".toList
  | .bool true => "true".toList
  | .bool false => "false".toList
  | .number n => n.chars
  | .text s => quoted s
  | .array [] => ['[', ']']
  | .array (item :: items) =>
    '[' :: newline (depth + 1) ++ indentedChars (depth + 1) item ++
      indentedItems (depth + 1) items ++ newline depth ++ [']']
  | .object [] => ['\x7b', '\x7d']
  | .object ((key, value) :: members) =>
    '\x7b' :: newline (depth + 1) ++ quoted key ++ ':' :: ' ' :: indentedChars (depth + 1) value ++
      indentedMembers (depth + 1) members ++ newline depth ++ ['\x7d']

/-- The items behind the first. -/
def indentedItems (depth : Nat) : List Document → List Char
  | [] => []
  | item :: items => ',' :: newline depth ++ indentedChars depth item ++ indentedItems depth items

/-- The members behind the first. -/
def indentedMembers (depth : Nat) : List (String × Document) → List Char
  | [] => []
  | (key, value) :: members =>
    ',' :: newline depth ++ quoted key ++ ':' :: ' ' :: indentedChars depth value ++
      indentedMembers depth members

end

/-- The indented text of a document. -/
def printIndented (d : Document) : String :=
  String.ofList (indentedChars 0 d)

end PolicyClient.Document
