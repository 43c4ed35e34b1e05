/-
Strings shown in messages: between double quotes, with a backslash in front of quotes and
backslashes, and other characters that do not show named by a letter or by their number.
-/
import PolicyClient.Text.Printable

namespace PolicyClient.Text

/-- A character inside a shown string. -/
def showChar (c : Char) : List Char :=
  match c with
  | '\x00' => ['\\', '0']
  | '\t' => ['\\', 't']
  | '\n' => ['\\', 'n']
  | '\r' => ['\\', 'r']
  | '"' => ['\\', '"']
  | '\\' => ['\\', '\\']
  | c => if isPrintable c then [c] else "\\u\x7b".toList ++ Nat.toDigits 16 c.toNat ++ ['\x7d']

/-- A string between quotes. -/
def literal (s : String) : String :=
  String.ofList ('"' :: s.toList.flatMap showChar ++ ['"'])

/-- Strings between brackets. -/
def literalList (items : List String) : String :=
  "[" ++ String.intercalate ", " (items.map literal) ++ "]"

end PolicyClient.Text
