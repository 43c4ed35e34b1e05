/-
Policies on the server: modules of source text, each under an identifier of its own.
-/
import PolicyClient.Client.Call
import PolicyClient.Document.Rebuild

namespace PolicyClient

/-- A policy on the server: its source, and what the server makes of it. -/
structure Policy where
  id : String
  raw : String
  ast : Document

namespace Policy

/-- The form of a policy that is an array. -/
def ofItems (items : List Document) : Except FormError Policy := do
  let id ← Form.Field.ofItems ⟨"id", Form.text, none, none⟩ "Policy" 3 items 0
  let raw ← Form.Field.ofItems ⟨"raw", Form.text, none, some ""⟩ "Policy" 3 items 1
  let ast ← Form.Field.ofItems ⟨"ast", Form.document, none, some .null⟩ "Policy" 3 items 2
  Form.checkLength items 3
  return ⟨id, raw, ast⟩

/-- The form of a policy that is an object. Its members are read in the order of their names, and
only then is one missed. -/
def ofMembers (members : Members) : Except FormError Policy := do
  let ast ← Form.Field.ofMembers ⟨"ast", Form.document, some .null, none⟩ members
  let id ← Form.Field.ofMembers ⟨"id", fun d => (Form.text d).map some, some none, none⟩ members
  let raw ← Form.Field.ofMembers ⟨"raw", Form.text, some "", none⟩ members
  match id with
  | some id => return ⟨id, raw, ast⟩
  | none => throw (.missing "id")

/-- The form of a policy. Only the identifier has to be there. -/
def ofDocument : Form Policy
  | .object members => ofMembers members
  | .array items => ofItems items
  | d => Form.wanted "struct Policy" d

/-- A policy as a document. -/
def toDocument (p : Policy) : Document :=
  .object [("ast", p.ast), ("id", .text p.id), ("raw", .text p.raw)]

/-! ## Calls -/

/-- Where the policies are. -/
def endpoint : String := "/v1/policies"

/-- The path of a policy. -/
def path (id : String) : String :=
  Call.pathOf endpoint id

/-- Plain text in UTF-8. -/
def sourceType : MediaType :=
  ⟨"text", "plain", [("charset", "utf-8")], some .utf8⟩

/-- All policies. -/
def list : Call (List Policy) where
  draft := .of "GET" endpoint
  decoder := .form (Form.single "ListPoliciesResponse"
    ⟨"result", Form.list ofDocument, some [], some []⟩)

/-- The policy under an identifier. -/
def get (id : String) : Call Policy where
  draft := .of "GET" (path id)
  decoder := .form (Form.single "GetPolicyResponse" ⟨"result", ofDocument, none, none⟩)

/-- Puts a policy under an identifier. -/
def put (id raw : String) : Call Unit where
  draft := (Draft.withBody "PUT" (path id) (.text raw)).apply (.contentType sourceType)
  decoder := .done

/-- Removes the policy under an identifier. -/
def delete (id : String) : Call Unit where
  draft := .of "DELETE" (path id)
  decoder := .done

end Policy
end PolicyClient
