/-
The result of a partial evaluation as a server reports it: the residual queries, if there are any,
and whatever else stands beside them.
-/
import PolicyClient.Query.Wire

namespace PolicyClient

/-- The residual queries and the other members of a result. -/
structure Residue where
  queries : Option QuerySet
  other : Members

namespace Residue

instance : Inhabited Residue := ⟨⟨none, []⟩⟩

/-- The residue that a result holds. Queries that are `null` are absent. -/
def ofResult (result : Document) : Except DecodeError Residue :=
  match result with
  | .object members => do
    let queries ←
      match Members.get? members "queries" with
      | none => .ok none
      | some .null => .ok none
      | some queries => (QuerySet.ofDocument queries).map some
    return ⟨queries, Members.erase members "queries"⟩
  | _ => .error .resultNotObject

/-- The residue that a response holds; without a result it is empty. -/
def ofDocument (response : Document) : Except DecodeError Residue :=
  match response with
  | .object members =>
    match Members.get? members "result" with
    | none => .ok ⟨none, []⟩
    | some .null => .ok ⟨none, []⟩
    | some result => ofResult result
  | _ => .error .responseNotObject

end Residue
end PolicyClient
