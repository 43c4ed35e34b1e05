/-
Events of the log, and those of an exchange: a specification says which parts of the request and of
the response show up.
-/
import PolicyClient.Http.Message
import PolicyClient.Logging.Specification

namespace PolicyClient

/-! ## Events -/

/-- How much an event matters. -/
inductive Severity
  | info
  | debug
  deriving DecidableEq, Repr

/-- An event: a message, and fields in their order. -/
structure Event where
  severity : Severity
  message : String
  fields : List (String × String) := []
  deriving DecidableEq, Repr

namespace Event

/-- An event for all who read the log. -/
def info (message : String) (fields : List (String × String)) : Event :=
  ⟨.info, message, fields⟩

/-- An event for those who look for a fault. -/
def debug (message : String) (fields : List (String × String)) : Event :=
  ⟨.debug, message, fields⟩

/-- The line of an event. -/
def text (e : Event) : String :=
  (match e.severity with
    | .info => "INFO "
    | .debug => "DEBUG ") ++
  e.message ++ String.join (e.fields.map fun (name, value) => " " ++ name ++ "=" ++ value)

end Event

/-! ## Exchanges -/

namespace LogSpecification

/-- The events of headers, one for each. -/
def headerEvents (headers : List Header) : List Event :=
  headers.map fun (name, value) => .info ("  " ++ name ++ ": " ++ value) []

/-- The event of a body. -/
def bodyEvent (message : String) (body : Bytes) : Event :=
  .info message [("bytes", toString body.length), ("body", Utf8.lossy body)]

/-- The events of a request. A body without bytes does not show. -/
def requestEvents (spec : LogSpecification) (r : Request) : List Event :=
  (if spec.requestLine then [.info (r.method ++ " " ++ r.url.text) []] else []) ++
    (if spec.requestHeaders then headerEvents r.headers else []) ++
    (if spec.requestBody && !r.body.isEmpty then [bodyEvent "Request body" r.body] else [])

/-- The events of a response. The body of one with status 204 does not show. -/
def responseEvents (spec : LogSpecification) (r : Response) : List Event :=
  (if spec.statusCode then [.info s!"HTTP {r.status}" []] else []) ++
    (if spec.responseHeaders then headerEvents r.headers else []) ++
    (if spec.responseBody && r.status != 204 then [bodyEvent "Response body" r.body] else [])

end LogSpecification
end PolicyClient
