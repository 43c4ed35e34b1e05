/-
The headers of a request. The content type is always held as a media type, so that a body is
encoded for the type that goes on the wire; it is sent only with a body. The accepted media types
give way to an `Accept` header of the caller's own.
-/
import PolicyClient.MediaType.Basic

namespace PolicyClient

/-- A name and a value on the wire. -/
abbrev Header := String × String

/-- The first value of a header. -/
def headerValue? (headers : List Header) (name : String) : Option String :=
  (headers.find? fun h => Text.sameName h.1 name).map (·.2)

/-- The headers of a single request. -/
structure RequestHeaders where
  contentType : MediaType := .applicationJson
  accept : List MediaType := [.applicationJson]
  extra : List Header := []
  deriving DecidableEq, Repr

namespace RequestHeaders

/-- The headers with one more. A content type has to be a media type. -/
def withHeader (h : RequestHeaders) (name value : String) :
    Except MediaTypeError RequestHeaders :=
  if Text.sameName name "Content-Type" then
    (MediaType.parse value).map fun contentType => { h with contentType }
  else .ok { h with extra := h.extra ++ [(name, value)] }

/-- Whether the caller set a header of a name. -/
def overrides (h : RequestHeaders) (name : String) : Bool :=
  h.extra.any fun e => Text.sameName e.1 name

/-- The pairs on the wire: the content type, the accepted types, and the caller's own in order. -/
def pairs (h : RequestHeaders) (withBody : Bool) : List Header :=
  (if withBody then [("Content-Type", h.contentType.render)] else []) ++
    (if h.accept.isEmpty || h.overrides "Accept" then []
      else [("Accept", MediaType.renderList h.accept)]) ++
    h.extra

end RequestHeaders
end PolicyClient
