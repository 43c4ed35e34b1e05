/-
Terms in the notation for readers: `eq(input["owner"], "alice")`. Text stands between quotes as it
is, truth values are in capitals, and the empty set is `set()`.
-/
import PolicyClient.Term.Basic

namespace PolicyClient.Term

mutual

/-- A term in the notation for readers. -/
def render : Term → String
  | .ref root keys => render root ++ String.join ((renderAll keys).map fun key => "[" ++ key ++ "]")
  | .call function args => render function ++ "(" ++ String.intercalate ", " (renderAll args) ++ ")"
  | .var name => name
  | .numeric value => value.text
  | .text value => "\"" ++ value ++ "\""
  | .bool true => "TRUE"
  | .bool false => "FALSE"
  | .null => "null"
  | .array items => "[" ++ String.intercalate ", " (renderAll items) ++ "]"
  | .set [] => "set()"
  | .set (item :: items) =>
    "\x7b" ++ String.intercalate ", " (render item :: renderAll items) ++ "\x7d"

/-- Each of the terms. -/
def renderAll : List Term → List String
  | [] => []
  | t :: ts => render t :: renderAll ts

end

end PolicyClient.Term
