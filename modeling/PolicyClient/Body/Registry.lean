/-
Registries of converters. The first converter that accepts the work does it; the others have no
say. Each converter is known by a number, so that one that is listed again is held once.
-/
import PolicyClient.Body.Converter

namespace PolicyClient

/-- Converters in the order in which they are asked, each with its number. -/
structure Registry where
  entries : List (Nat × Converter)

namespace Registry

/-! ## Building -/

/-- The entries whose number has not come before. -/
def firstOfEach (seen : List Nat) : List (Nat × Converter) → List (Nat × Converter)
  | [] => []
  | (id, converter) :: rest =>
    if seen.contains id then firstOfEach seen rest
    else (id, converter) :: firstOfEach (id :: seen) rest

/-- The registry of the converters listed, each once. -/
def ofList (converters : List (Nat × Converter)) : Registry :=
  ⟨firstOfEach [] converters⟩

/-- Text in windows-1252 unless declared otherwise, then JSON. -/
def standard (codecs : Charset.Codecs := .ascii) : Registry :=
  ofList [(0, .text .windows1252 codecs), (1, .json .compact codecs)]

/-- The converters in the order in which they are asked. -/
def converters (r : Registry) : List Converter :=
  r.entries.map (·.2)

/-- The names of the converters, as messages show them. -/
def label (r : Registry) : String :=
  Text.literalList (r.converters.map Converter.name)

/-! ## Reading and writing -/

/-- The converter that reads the bytes as a shape. -/
def reader? (r : Registry) (contentType : Option MediaType) (bytes : Bytes) (shape : Shape) :
    Option Converter :=
  r.converters.find? (·.canRead contentType bytes shape)

/-- The converter that writes a body. -/
def writer? (r : Registry) (contentType : Option MediaType) (body : Body) : Option Converter :=
  r.converters.find? (·.canWrite contentType body)

/-- The body of a shape that the bytes hold. -/
def read (r : Registry) (contentType : Option MediaType) (bytes : Bytes) (shape : Shape) :
    Except ConversionError Body :=
  match r.reader? contentType bytes shape with
  | some converter => converter.read contentType bytes shape
  | none => .error (.noConverter shape contentType)

/-- The bytes of a body; an absent one has none, whatever the converters. -/
def write (r : Registry) (contentType : Option MediaType) (body : Option Body) :
    Except ConversionError Bytes :=
  match body with
  | none => .ok []
  | some body =>
    match r.writer? contentType body with
    | some converter => converter.write contentType body
    | none => .error (.noConverter body.shape contentType)

end Registry
end PolicyClient
