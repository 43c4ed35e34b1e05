/-
The shape of what is read. A converter keeps to shapes (`KeepsShape`) if it accepts no binary body,
reads a body of the shape that is asked for, and fails for the bytes or the text alone. Converters
of text and of JSON keep to shapes, and so does every registry of them: no error about shapes comes
out of it or out of a decoded response (`read_keeps_shape`).
-/
import PolicyClient.Client.Basic
import PolicyClient.Proofs.Body.Selection
import Mathlib

namespace PolicyClient

open Charset (Codecs)

/-! ## Outcomes -/

/-- What reading as a shape may come to: a body of that shape, or a fault of the bytes. -/
inductive ReadsAs (shape : Shape) : Except ConversionError Body → Prop
  | body {body : Body} (h : body.shape = shape) : ReadsAs shape (.ok body)
  | fault (fault : ReadFault) : ReadsAs shape (.error (.reading fault))

/-- What writing may come to: bytes, or a fault of the body. -/
inductive Writes : Except ConversionError Bytes → Prop
  | bytes (bytes : Bytes) : Writes (.ok bytes)
  | fault (fault : WriteFault) : Writes (.error (.writing fault))

/-! ## Converters -/

namespace Converter

/-- The converters of text and of JSON, whatever their charset and their layout. -/
inductive BuiltIn : Converter → Prop
  | text (fallback : Charset) (codecs : Codecs) : BuiltIn (.text fallback codecs)
  | json (layout : Layout) (codecs : Codecs) : BuiltIn (.json layout codecs)

/-- A converter that reads as the shape that is asked for and writes, wherever it accepts the work.
It accepts no binary work. -/
structure KeepsShape (c : Converter) : Prop where
  read : ∀ {contentType bytes shape}, c.canRead contentType bytes shape = true →
    ReadsAs shape (c.read contentType bytes shape)
  write : ∀ {contentType body}, c.canWrite contentType body = true →
    Writes (c.write contentType body)
  not_read_binary : ∀ contentType bytes, c.canRead contentType bytes .binary = false
  not_write_binary : ∀ contentType value, c.canWrite contentType (.binary value) = false

theorem readsAs_readText (codecs : Codecs) (charset : Charset) (bytes : Bytes) :
    ReadsAs .text (readText codecs charset bytes) := by
  unfold readText
  split
  · exact .body rfl
  · exact .fault _

theorem writes_writeText (codecs : Codecs) (charset : Charset) (text : String) :
    Writes (writeText codecs charset text) := by
  unfold writeText
  split
  · exact .bytes _
  · exact .fault _

theorem readsAs_readJson (bytes : Bytes) (shape : Shape) :
    ReadsAs shape (readJson bytes shape) := by
  cases shape with
  | text =>
    simp only [readJson]
    split
    · exact .body rfl
    · exact .fault _
  | json =>
    simp only [readJson]
    split
    · exact .body rfl
    · exact .fault _
  | binary => exact .fault .noBinary

theorem writes_writeJson (layout : Layout) (body : Body) : Writes (writeJson layout body) := by
  cases body with
  | text value => exact .bytes _
  | json d => exact .bytes _
  | binary value => exact .fault .noBinary

theorem keepsShape_text (fallback : Charset) (codecs : Codecs) :
    (text fallback codecs).KeepsShape where
  read := by
    intro contentType bytes shape haccepts
    obtain rfl : shape = .text := by simpa using (Bool.and_eq_true_iff.1 haccepts).1
    exact readsAs_readText codecs _ bytes
  write := by
    intro contentType body haccepts
    cases body with
    | text value => exact writes_writeText codecs _ value
    | json d => cases haccepts
    | binary value => cases haccepts
  not_read_binary _ _ := rfl
  not_write_binary _ _ := rfl

theorem keepsShape_json (layout : Layout) (codecs : Codecs) : (json layout codecs).KeepsShape where
  read _ := readsAs_readJson _ _
  write _ := writes_writeJson layout _
  not_read_binary _ _ := rfl
  not_write_binary _ _ := rfl

theorem BuiltIn.keepsShape {c : Converter} (h : c.BuiltIn) : c.KeepsShape := by
  cases h with
  | text fallback codecs => exact keepsShape_text fallback codecs
  | json layout codecs => exact keepsShape_json layout codecs

end Converter

/-! ## Registries -/

namespace Registry

variable {r : Registry}

/-- A registry all of whose converters keep to shapes. -/
def KeepsShape (r : Registry) : Prop :=
  ∀ c ∈ r.converters, c.KeepsShape

/-- What is read is read by a converter that accepts it, or not at all. -/
theorem read_cases (r : Registry) (contentType : Option MediaType) (bytes : Bytes) (shape : Shape) :
    (∃ c ∈ r.converters, c.canRead contentType bytes shape = true ∧
      r.read contentType bytes shape = c.read contentType bytes shape) ∨
    r.read contentType bytes shape = .error (.noConverter shape contentType) := by
  rw [read_eq_scan]
  rcases scan_cases (·.canRead contentType bytes shape) (·.read contentType bytes shape)
    (.noConverter shape contentType) r.converters with
    ⟨front, c, behind, hasked, -, haccepts, h⟩ | ⟨-, h⟩
  · exact .inl ⟨c, by rw [hasked]; simp, haccepts, h⟩
  · exact .inr h

theorem write_cases (r : Registry) (contentType : Option MediaType) (body : Body) :
    (∃ c ∈ r.converters, c.canWrite contentType body = true ∧
      r.write contentType (some body) = c.write contentType body) ∨
    r.write contentType (some body) = .error (.noConverter body.shape contentType) := by
  rw [write_eq_scan]
  rcases scan_cases (·.canWrite contentType body) (·.write contentType body)
    (.noConverter body.shape contentType) r.converters with
    ⟨front, c, behind, hasked, -, haccepts, h⟩ | ⟨-, h⟩
  · exact .inl ⟨c, by rw [hasked]; simp, haccepts, h⟩
  · exact .inr h

theorem KeepsShape.read (hr : r.KeepsShape) (contentType : Option MediaType) (bytes : Bytes)
    (shape : Shape) :
    ReadsAs shape (r.read contentType bytes shape) ∨
      r.read contentType bytes shape = .error (.noConverter shape contentType) := by
  rcases r.read_cases contentType bytes shape with ⟨c, hc, haccepts, heq⟩ | heq
  · exact .inl (heq ▸ (hr c hc).read haccepts)
  · exact .inr heq

theorem KeepsShape.write (hr : r.KeepsShape) (contentType : Option MediaType) (body : Body) :
    Writes (r.write contentType (some body)) ∨
      r.write contentType (some body) = .error (.noConverter body.shape contentType) := by
  rcases r.write_cases contentType body with ⟨c, hc, haccepts, heq⟩ | heq
  · exact .inl (heq ▸ (hr c hc).write haccepts)
  · exact .inr heq

theorem KeepsShape.read_binary (hr : r.KeepsShape) (contentType : Option MediaType)
    (bytes : Bytes) :
    r.read contentType bytes .binary = .error (.noConverter .binary contentType) := by
  rcases r.read_cases contentType bytes .binary with ⟨c, hc, haccepts, -⟩ | heq
  · rw [(hr c hc).not_read_binary] at haccepts
    cases haccepts
  · exact heq

theorem KeepsShape.write_binary (hr : r.KeepsShape) (contentType : Option MediaType)
    (value : Bytes) :
    r.write contentType (some (.binary value)) = .error (.noConverter .binary contentType) := by
  rcases r.write_cases contentType (.binary value) with ⟨c, hc, haccepts, -⟩ | heq
  · rw [(hr c hc).not_write_binary] at haccepts
    cases haccepts
  · exact heq

end Registry

/-! ## Responses -/

/-- The errors of a response with a body that is wanted in a shape: its content type is malformed,
or there is no converter, or the bytes do not hold such a body. -/
inductive ClientError.OfBody (shape : Shape) : ClientError → Prop
  | contentType (fault : MediaTypeError) : OfBody shape (.mediaType fault)
  | noConverter (contentType : Option MediaType) :
    OfBody shape (.conversion (.noConverter shape contentType))
  | reading (fault : ReadFault) : OfBody shape (.conversion (.reading fault))

namespace Decoder

variable {α : Type} {shape : Shape} {r : Registry} {response : Response} {error : ClientError}

/-- A response fails for its body if what is made of a body of the right shape does. -/
theorem ofBody_of_run (hr : r.KeepsShape) {take : Body → Except ClientError α}
    (htake : ∀ body, body.shape = shape → ∀ error, take body = .error error → error.OfBody shape)
    (h : (Decoder.read shape take).run r response = .error error) : error.OfBody shape := by
  unfold run at h
  rcases hcontent : contentType response with fault | contentType
  · rw [hcontent] at h
    cases h
    exact .contentType fault
  · rw [hcontent] at h
    change ((r.read contentType response.body shape).mapError .conversion >>= take) = _ at h
    rcases hr.read contentType response.body shape with hread | hread
    · generalize r.read contentType response.body shape = outcome at hread h
      cases hread with
      | body hshape => exact htake _ hshape error h
      | fault fault => cases h; exact .reading fault
    · rw [hread] at h
      cases h
      exact .noConverter contentType

theorem ofBody_of_text (hr : r.KeepsShape) (h : text.run r response = .error error) :
    error.OfBody .text := by
  refine ofBody_of_run hr (fun body hshape error h => ?_) h
  cases body with
  | text value => cases h
  | json d => cases hshape
  | binary value => cases hshape

theorem ofBody_of_form (hr : r.KeepsShape) {f : Form α}
    (h : (form f).run r response = .error error) : error.OfBody .json := by
  refine ofBody_of_run hr (fun body hshape error h => ?_) h
  cases body with
  | text value => cases hshape
  | json d =>
    change (f d).mapError (fun e => ClientError.conversion (.reading (.form e))) = _ at h
    rcases hform : f d with fault | value
    · rw [hform] at h
      cases h
      exact .reading (.form fault)
    · rw [hform] at h
      cases h
  | binary value => cases hshape

end Decoder

/-- A registry of converters of text and of JSON, in any number and order, reads a body of the shape
that is asked for, and fails only for want of a converter or for what it reads or writes. Binary
bodies have no converter. So a response that is decoded as text or as a document never has a body of
another shape. -/
theorem read_keeps_shape {r : Registry} (hr : ∀ c ∈ r.converters, c.BuiltIn) :
    (∀ (contentType : Option MediaType) (bytes : Bytes) (shape : Shape),
      (∀ body, r.read contentType bytes shape = .ok body → body.shape = shape) ∧
      ∀ e, r.read contentType bytes shape = .error e →
        e = .noConverter shape contentType ∨ ∃ fault, e = .reading fault) ∧
    (∀ (contentType : Option MediaType) (body : Option Body) (e : ConversionError),
      r.write contentType body = .error e →
        (∃ b ∈ body, e = .noConverter b.shape contentType) ∨ ∃ fault, e = .writing fault) ∧
    (∀ (contentType : Option MediaType) (bytes : Bytes),
      r.read contentType bytes .binary = .error (.noConverter .binary contentType) ∧
      r.write contentType (some (.binary bytes)) = .error (.noConverter .binary contentType)) ∧
    ∀ (c : Client) (response : Response) (expected actual : Shape), c.registry = r →
      c.receive .text response ≠ .error (.conversion (.wrongShape expected actual)) ∧
      ∀ {α : Type} (form : Form α),
        c.receive (.form form) response ≠ .error (.conversion (.wrongShape expected actual)) := by
  have hkeeps : r.KeepsShape := fun c hc => (hr c hc).keepsShape
  refine ⟨?read, ?write, ?binary, ?receive⟩
  case read =>
    intro contentType bytes shape
    rcases hkeeps.read contentType bytes shape with hread | hread
    · generalize r.read contentType bytes shape = outcome at hread
      cases hread with
      | body hshape => exact ⟨fun _ h => by cases h; exact hshape, nofun⟩
      | fault fault => exact ⟨nofun, fun _ h => by cases h; exact .inr ⟨fault, rfl⟩⟩
    · rw [hread]
      exact ⟨nofun, fun _ h => by cases h; exact .inl rfl⟩
  case write =>
    intro contentType body e h
    cases body with
    | none => cases h
    | some body =>
      rcases hkeeps.write contentType body with hwrite | hwrite
      · rw [h] at hwrite
        cases hwrite with
        | fault fault => exact .inr ⟨fault, rfl⟩
      · rw [hwrite] at h
        cases h
        exact .inl ⟨body, rfl, rfl⟩
  case binary =>
    intro contentType bytes
    exact ⟨hkeeps.read_binary contentType bytes, hkeeps.write_binary contentType bytes⟩
  case receive =>
    rintro c response expected actual rfl
    unfold Client.receive
    split_ifs with hsuccess
    · constructor
      · intro h
        cases Decoder.ofBody_of_text hkeeps h
      · intro α form h
        cases Decoder.ofBody_of_form hkeeps h
    · exact ⟨nofun, nofun⟩

/-- Two converters of text around one of JSON, and a response that is no JSON. -/
theorem read_keeps_shape_three_converters :
    let r : Registry := .ofList [(0, .text .utf8), (1, .json .indented), (2, .text .koi8r)]
    let c : Client := ⟨⟨"http", "", none, "opa", none, [""], none, none⟩, r, {}⟩
    let response : Response := ⟨200, [("Content-Type", "application/json")], [0x5B]⟩
    r.read none [0x5B] .text = .ok (.text "[") ∧ (Body.text "[").shape = .text ∧
      r.read none [0x5B] .binary = .error (.noConverter .binary none) ∧
      c.receive .text response ≠ .error (.conversion (.wrongShape .text .json)) := by
  intro r c response
  have hr : ∀ c ∈ r.converters, c.BuiltIn := by
    show ∀ c ∈ [Converter.text .utf8, .json .indented, .text .koi8r], c.BuiltIn
    simp only [List.forall_mem_cons, List.not_mem_nil, false_imp_iff, implies_true, and_true]
    exact ⟨.text _ _, .json _ _, .text _ _⟩
  obtain ⟨hread, -, hbinary, hreceive⟩ := read_keeps_shape hr
  have hdecode : Charset.utf8.decode? .ascii [0x5B] = some "[" := by decide +kernel
  have htext : r.read none [0x5B] .text = .ok (.text "[") := by
    show Converter.readText .ascii .utf8 [0x5B] = _
    unfold Converter.readText
    rw [hdecode]
  exact ⟨htext, (hread _ _ _).1 _ htext, (hbinary _ _).1, (hreceive c _ _ _ rfl).1⟩

end PolicyClient
