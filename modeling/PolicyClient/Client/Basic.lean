/-
Clients. A client knows its server, its converters and what it logs. It turns a draft into a request
and the response into a value; both are plain functions, so a call is decided by the client, the
draft and the response alone.
-/
import PolicyClient.Body.Registry
import PolicyClient.Http.Draft
import PolicyClient.Logging.Event
import PolicyClient.Settings.Validation

namespace PolicyClient

/-! ## Building -/

/-- A client of one server. -/
structure Client where
  baseUrl : Url
  registry : Registry
  logging : LogSpecification

/-- What a client is built from: settings, and what takes the place of them. -/
structure ClientOptions where
  settings : Settings := {}
  url : Option String := none
  logging : Option LogSpecification := none
  registry : Registry := .standard

namespace ClientOptions

/-- The settings with what takes the place of them. -/
def effective (o : ClientOptions) : Settings :=
  { o.settings with
    url := o.url.getD o.settings.url
    logging := o.logging.getD o.settings.logging }

/-- The client, if the settings are valid. -/
def build (o : ClientOptions) (toAscii : Url.ToAscii := Url.lowerDomain) :
    Except ClientError Client := do
  let settings ← o.effective.validate toAscii
  return ⟨← settings.baseUrl toAscii, o.registry, settings.logging⟩

end ClientOptions

namespace Client

/-- The event of a client being built. -/
def buildEvent (c : Client) : Event :=
  .debug "Building OPA client" [("url", c.baseUrl.text), ("converters", c.registry.label)]

/-- A client as it shows itself to those who look for a fault. -/
def inspect (c : Client) : String :=
  "RestClient \x7b base_url: " ++ Text.literal c.baseUrl.text ++
    ", converters: " ++ c.registry.label ++
    ", logger: RequestLogger \x7b spec: LogSpecification \x7b " ++
    String.intercalate ", "
      (c.logging.flags.map fun (name, value) => name ++ ": " ++ toString value) ++
    " \x7d \x7d \x7d"

/-! ## Requests -/

/-- The URL of a path on the server. -/
def resolve (c : Client) (path : String) (toAscii : Url.ToAscii := Url.lowerDomain) :
    Except ClientError Url :=
  (c.baseUrl.resolve path toAscii).mapError fun (text, fault) => .url text fault

/-- The request of a draft. -/
def prepare (c : Client) (d : Draft) : Except ClientError Request := do
  if let some e := d.spoiled then throw (.mediaType e)
  let url ← c.resolve d.path
  let body ← (c.registry.write (some d.headers.contentType) d.body).mapError .conversion
  return { method := d.method, url, headers := d.headers.pairs d.body.isSome, body }

/-- The event of a body being written, if there is one and a converter for it. -/
def writeEvents (c : Client) (contentType : Option MediaType) (body : Option Body) : List Event :=
  match body.bind (c.registry.writer? contentType) with
  | none => []
  | some converter =>
    [.debug "Writing request body"
      [("converter", converter.name), ("content_type", showContentType contentType)]]

/-- The events of a draft becoming a request that is sent. -/
def prepareEvents (c : Client) (d : Draft) : List Event :=
  if d.spoiled.isSome || (c.resolve d.path).toOption.isNone then []
  else
    c.writeEvents (some d.headers.contentType) d.body ++
      match c.prepare d with
      | .error _ => []
      | .ok r =>
        c.logging.requestEvents r ++
          [.debug "Sending request" [("method", r.method), ("url", r.url.text)]]

end Client

/-! ## Responses -/

/-- What is made of the body of a successful response: nothing at all, or a value of a body that is
read in some shape. -/
inductive Decoder (α : Type)
  | ignore (value : α)
  | read (shape : Shape) (take : Body → Except ClientError α)

namespace Decoder

/-- A function of what is made of the body. -/
def map {α β : Type} (f : α → β) : Decoder α → Decoder β
  | .ignore value => .ignore (f value)
  | .read shape take => .read shape fun body => (take body).map f

/-- The body does not matter. -/
def done : Decoder Unit := .ignore ()

/-- The body is text. -/
def text : Decoder String :=
  .read .text fun body => body.toText.mapError .conversion

/-- The body is a document of some form. -/
def form {α : Type} (form : Form α) : Decoder α :=
  .read .json fun body => do
    let d ← body.toDocument.mapError .conversion
    (form d).mapError fun e => .conversion (.reading (.form e))

/-- The content type that a response declares. -/
def contentType (r : Response) : Except MediaTypeError (Option MediaType) :=
  match r.header? "content-type" with
  | none => .ok none
  | some value => (MediaType.parse value).map some

/-- The value of a successful response. -/
def run {α : Type} (registry : Registry) (r : Response) : Decoder α → Except ClientError α
  | .ignore value => .ok value
  | .read shape take => do
    let contentType ← (contentType r).mapError .mediaType
    let body ← (registry.read contentType r.body shape).mapError .conversion
    take body

/-- The event of the body being read, if there is a converter for it. -/
def events {α : Type} (registry : Registry) (r : Response) : Decoder α → List Event
  | .ignore _ => []
  | .read shape _ =>
    match contentType r with
    | .error _ => []
    | .ok contentType =>
      match registry.reader? contentType r.body shape with
      | none => []
      | some converter =>
        [.debug "Reading response body"
          [("converter", converter.name), ("content_type", showContentType contentType),
            ("shape", shape.name)]]

end Decoder

namespace Client

/-- The value of a response; only success has one. -/
def receive {α : Type} (c : Client) (decoder : Decoder α) (r : Response) : Except ClientError α :=
  if r.isSuccess then decoder.run c.registry r else .error (.status r.status (Utf8.lossy r.body))

/-- The events of a response. -/
def receiveEvents {α : Type} (c : Client) (decoder : Decoder α) (r : Response) : List Event :=
  c.logging.responseEvents r ++ if r.isSuccess then decoder.events c.registry r else []

end Client
end PolicyClient
