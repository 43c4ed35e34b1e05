/-
Queries that the server evaluates as far as it can: what depends on the unknowns comes back as
residual queries.
-/
import PolicyClient.Client.Call
import PolicyClient.Document.Rebuild
import PolicyClient.Query.Residue

namespace PolicyClient

/-- A query, the input that is known and the references that are not. -/
structure Compilation where
  query : String
  input : Option Document := none
  unknowns : List String := []

namespace Compilation

/-- Where queries are evaluated in part. -/
def endpoint : String := "/v1/compile"

/-- The members of a request in the order in which they are declared. Without input or unknowns
there is no such member. -/
def entries (c : Compilation) : List (String × Document) :=
  [("query", .text c.query)] ++
    (match c.input with
      | some d => [("input", d)]
      | none => []) ++
    (if c.unknowns.isEmpty then [] else [("unknowns", .array (c.unknowns.map .text))])

/-- A request as a document. -/
def toDocument (c : Compilation) : Document :=
  .ofMembers c.entries

/-- What a body says about the residual queries. -/
def residueOf (d : Document) : Except ClientError Residue := do
  let d ← (Form.document d).mapError fun e => .conversion (.reading (.form e))
  (Residue.ofDocument d).mapError .residue

/-- The residual queries. -/
def call (c : Compilation) : Call Residue where
  draft := .withBody "POST" endpoint (.json c.toDocument)
  decoder := .read .json fun body => do residueOf (← body.toDocument.mapError .conversion)

end Compilation
end PolicyClient
