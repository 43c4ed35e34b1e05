/-
Documents on the server, each at a path. A path at which there is none has no value.
-/
import PolicyClient.Client.Call
import PolicyClient.Document.Rebuild

namespace PolicyClient.Data

/-- Where the documents are. -/
def endpoint : String := "/v1/data"

/-- The path of a request for the document at a path. -/
def path (location : String) : String :=
  Call.pathOf endpoint location

/-- Puts a document at a path. -/
def put (location : String) (d : Document) : Call Unit where
  draft := .withBody "PUT" (path location) (.json d)
  decoder := .done

/-- The value of some form at a path. Null and nothing at all are no value. -/
def get {α : Type} (form : Form α) (location : String) : Call (Option α) where
  draft := .of "GET" (path location)
  decoder := .form (Form.single "DataResponse" ⟨"result", Form.optional form, some none, none⟩)

end PolicyClient.Data
