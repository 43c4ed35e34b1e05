/-
What can go wrong for a client, from its settings to the body of a response.
-/
import PolicyClient.Body.Basic
import PolicyClient.Query.Wire
import PolicyClient.Settings.Basic
import PolicyClient.Url.Basic

namespace PolicyClient

/-- Why a request has no response. -/
inductive TransportError
  | connection (reason : String)
  deriving DecidableEq, Repr

/-- The wording of an error. -/
def TransportError.message : TransportError → String
  | .connection reason => s!"Connection failed: {reason}"

/-- Why an operation of a client fails. -/
inductive ClientError
  | mediaType (error : MediaTypeError)
  | conversion (error : ConversionError)
  | residue (error : DecodeError)
  | status (code : UInt16) (body : String)
  | transport (error : TransportError)
  | url (text : String) (fault : UrlFault)
  | settings (fault : SettingsFault)
  deriving DecidableEq, Repr

namespace ClientError

/-- The wording of an error. -/
def message : ClientError → String
  | .mediaType error => error.message
  | .conversion error => error.message
  | .residue error => s!"Invalid partial evaluation result: {error.message}"
  | .status code body => s!"Server returned HTTP {code}: {body}"
  | .transport error => error.message
  | .url text fault => s!"Invalid URL '{text}': {fault.reason}"
  | .settings fault => s!"Invalid configuration: {fault.message}"

/-- The error and, behind it, the one that it wraps in words of its own. -/
def chain (e : ClientError) : List String :=
  match e with
  | .residue error => [e.message, error.message]
  | e => [e.message]

end ClientError
end PolicyClient
