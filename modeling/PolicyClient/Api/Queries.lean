/-
Queries that the server answers at once, with the variables of each solution.
-/
import PolicyClient.Client.Call
import PolicyClient.Document.Rebuild

namespace PolicyClient.AdHoc

/-- Where queries are answered. -/
def endpoint : String := "/v1/query"

/-- The solutions of a query. -/
def ask (query : String) : Call (List Members) where
  draft := .withBody "POST" endpoint (.json (.object [("query", .text query)]))
  decoder := .form (Form.single "QueryResponse"
    ⟨"result", Form.list Form.members, some [], some []⟩)

end PolicyClient.AdHoc
