/-
Calls over a network. A call sends one request at most: none if the draft does not become a request.
The network here is a script, which answers with the responses it holds one after the other, keeps
what it was sent, and refuses once it has no response left.
-/
import PolicyClient.Client.Basic

namespace PolicyClient

/-- An operation on the server: the request that it takes, and what becomes of the response. -/
structure Call (α : Type) where
  draft : Draft
  decoder : Decoder α

/-- A call with a function of its value. -/
def Call.map {α β : Type} (f : α → β) (call : Call α) : Call β :=
  ⟨call.draft, call.decoder.map f⟩

/-- The path of what has a name below an endpoint. Slashes in front of the name do not count. -/
def Call.pathOf (endpoint name : String) : String :=
  endpoint ++ "/" ++ String.ofList (name.toList.dropWhile (· == '/'))

/-- A network with its answers given in advance, and the requests that it was sent. -/
structure Script where
  responses : List Response
  sent : List Request := []

namespace Script

/-- The error once no response is left. -/
def exhausted : TransportError :=
  .connection "no response queued"

/-- The answer to a request, and the network after it. -/
def exchange (s : Script) (r : Request) : Except TransportError Response × Script :=
  match s.responses with
  | [] => (.error exhausted, ⟨[], s.sent ++ [r]⟩)
  | response :: rest => (.ok response, ⟨rest, s.sent ++ [r]⟩)

end Script

namespace Client

/-- The outcome of a call whose request has been answered. -/
def conclude {α : Type} (c : Client) (decoder : Decoder α) :
    Except TransportError Response → Except ClientError α
  | .error e => .error (.transport e)
  | .ok response => c.receive decoder response

/-- The outcome of a call, and the network after it. -/
def run {α : Type} (c : Client) (call : Call α) (s : Script) : Except ClientError α × Script :=
  match c.prepare call.draft with
  | .error e => (.error e, s)
  | .ok request => (c.conclude call.decoder (s.exchange request).1, (s.exchange request).2)

/-- The events of a call. -/
def runEvents {α : Type} (c : Client) (call : Call α) (s : Script) : List Event :=
  c.prepareEvents call.draft ++
    match c.prepare call.draft with
    | .error _ => []
    | .ok request =>
      match (s.exchange request).1 with
      | .error _ => []
      | .ok response => c.receiveEvents call.decoder response

end Client
end PolicyClient
