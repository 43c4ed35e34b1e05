/-
Settings that a client can be built with: the URL is one of a server, and both timeouts are above
zero. Of several faults the one of the URL is reported first, then that of the connection.
-/
import PolicyClient.Client.Error

namespace PolicyClient.Settings

/-- The URL of the server. -/
def baseUrl (s : Settings) (toAscii : Url.ToAscii := Url.lowerDomain) : Except ClientError Url :=
  (Url.parse s.url toAscii).mapError (.url s.url)

/-- The settings, if a client can be built with them. -/
def validate (s : Settings) (toAscii : Url.ToAscii := Url.lowerDomain) :
    Except ClientError Settings := do
  discard (s.baseUrl toAscii)
  if s.connectTimeout = 0 then throw (.settings .noConnectTimeout)
  if s.requestTimeout = 0 then throw (.settings .noRequestTimeout)
  return s

/-- The settings in a text, if a client can be built with them. -/
def load (text : String) (toAscii : Url.ToAscii := Url.lowerDomain) (read : Reader := ofText) :
    Except ClientError Settings := do
  (← (read text).mapError .settings).validate toAscii

end PolicyClient.Settings
