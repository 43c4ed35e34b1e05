/-
Requests being put together. The steps may come in any order. A `Content-Type` header that is no
media type spoils the request for good; whatever comes later, it is not sent.
-/
import PolicyClient.Body.Basic
import PolicyClient.Http.Headers

namespace PolicyClient

/-- A request being put together. -/
structure Draft where
  method : String
  path : String
  headers : RequestHeaders := {}
  body : Option Body := none
  spoiled : Option MediaTypeError := none

namespace Draft

/-- One step in putting a request together. -/
inductive Step
  | contentType (mediaType : MediaType)
  | accept (mediaTypes : List MediaType)
  | header (name value : String)
  | headers (headers : RequestHeaders)
  | body (body : Body)

/-- The draft after a step. -/
def apply (d : Draft) : Step → Draft
  | .contentType contentType => { d with headers := { d.headers with contentType } }
  | .accept accept => { d with headers := { d.headers with accept } }
  | .header name value =>
    match d.headers.withHeader name value with
    | .ok headers => { d with headers }
    | .error e => { d with spoiled := some e }
  | .headers headers => { d with headers }
  | .body body => { d with body := some body }

/-- The draft after several steps. -/
def applyAll (d : Draft) (steps : List Step) : Draft :=
  steps.foldl apply d

/-- A draft of a method and a path with the headers that a request has by default. -/
def of (method path : String) : Draft :=
  { method, path }

/-- A draft with a body. -/
def withBody (method path : String) (body : Body) : Draft :=
  { method, path, body := some body }

end Draft
end PolicyClient
