/-
Requests and responses as they go over the network. A response counts as a success if its status is
from 200 to 299; any other status is for the client to refuse.
-/
import PolicyClient.Http.Headers
import PolicyClient.Text.Utf8
import PolicyClient.Url.Basic

namespace PolicyClient

/-- A request ready to be sent. -/
structure Request where
  method : String
  url : Url
  headers : List Header
  body : Bytes
  deriving DecidableEq, Repr

/-- A response with its whole body. -/
structure Response where
  status : UInt16
  headers : List Header
  body : Bytes
  deriving DecidableEq, Repr

namespace Response

/-- The first value of a header. -/
def header? (r : Response) (name : String) : Option String :=
  headerValue? r.headers name

/-- Whether the status reports success. -/
def isSuccess (r : Response) : Bool :=
  200 ≤ r.status && r.status < 300

end Response
end PolicyClient
