/-
The variables that a term refers to. The function of a call names an operator and is passed over.
Names are gathered in sets that list each name once, in order.
-/
import PolicyClient.Term.Basic

namespace PolicyClient

/-! ## Sets of names -/

/-- A set of names: sorted, each name once. -/
abbrev NameSet := List String

namespace NameSet

/-- The set with one more name. -/
def insert : NameSet → String → NameSet
  | [], name => [name]
  | n :: rest, name =>
    if n = name then n :: rest
    else if name < n then name :: n :: rest
    else n :: insert rest name

/-- The set with the names listed. -/
def insertAll (names : NameSet) (more : List String) : NameSet :=
  more.foldl insert names

/-- The set of the names listed. -/
def ofList (names : List String) : NameSet :=
  insertAll [] names

end NameSet

/-! ## Occurrences -/

namespace Term

mutual

/-- The variables of a term in order of occurrence, functions of calls aside. -/
def occurrences : Term → List String
  | .ref root keys => occurrences root ++ occurrencesAll keys
  | .call _ args => occurrencesAll args
  | .var name => [name]
  | .array items => occurrencesAll items
  | .set items => occurrencesAll items
  | .numeric _ | .text _ | .bool _ | .null => []

/-- The variables of each of the terms. -/
def occurrencesAll : List Term → List String
  | [] => []
  | t :: ts => occurrences t ++ occurrencesAll ts

end

end Term
end PolicyClient
