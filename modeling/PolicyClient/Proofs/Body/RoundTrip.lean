/-
What the standard registry writes it reads back (`read_write_standard`). The converter that writes
a body is the one that reads its shape, because the two tests agree on a body and its shape; so the
round trip is that of text in its charset or that of a document.
-/
import PolicyClient.Body.Registry
import PolicyClient.Proofs.Charset.Codec
import PolicyClient.Proofs.Document.RoundTrip

namespace PolicyClient

open Charset (Codecs)

/-- A text, or a document that can be read back from its own text. -/
def Body.Readable : Body → Prop
  | .text _ => True
  | .json d => d.Readable 127
  | .binary _ => False

/-! ## Content types -/

namespace Converter

theorem covers_textTypes {m : MediaType} : covers textTypes (some m) = true ↔ m.type = "text" := by
  by_cases h : m.type = "text"
  · refine iff_of_true ?_ h
    simp [covers, textTypes, MediaType.includes, MediaType.textAll, MediaType.textPlain,
      MediaType.bare, MediaType.isWildcardType, h]
  · refine iff_of_false ?_ h
    simp [covers, textTypes, MediaType.includes, MediaType.textAll, MediaType.textPlain,
      MediaType.bare, MediaType.isWildcardType, Ne.symm h]

theorem type_of_covers_jsonTypes {m : MediaType} (h : covers jsonTypes (some m) = true) :
    m.type = "application" := by
  by_contra hne
  simp [covers, jsonTypes, MediaType.includes, MediaType.applicationJson,
    MediaType.applicationAllJson, MediaType.bare, MediaType.isWildcardType, Ne.symm hne] at h

theorem toUtf8_of_utf8 {codecs : Codecs} {contentType : Option MediaType}
    (h : ∀ charset ∈ contentType.bind (·.charset), charset = .utf8) (bytes : Bytes) :
    toUtf8 codecs contentType bytes = bytes := by
  unfold toUtf8
  rcases hcharset : contentType.bind (·.charset) with _ | charset
  · rfl
  · cases h charset hcharset
    rfl

/-- A body that JSON holds is read back from its bytes. -/
theorem readJson_of_writeJson {body : Body} (hbody : body.Readable) {bytes : Bytes}
    (h : writeJson .compact body = .ok bytes) : readJson bytes body.shape = .ok body := by
  cases body with
  | text s =>
    simp only [writeJson, Layout.print, Except.ok.injEq] at h
    subst h
    simp only [readJson, Body.shape, Document.stringOfBytes_print]
  | json d =>
    simp only [writeJson, Layout.print, Except.ok.injEq] at h
    subst h
    simp only [readJson, Body.shape, Document.ofBytes_print hbody]
  | binary value => exact hbody.elim

end Converter

/-! ## The standard registry -/

namespace Registry

open Converter

variable {codecs : Codecs} {contentType : Option MediaType} {body : Body} {bytes : Bytes}

/-- The converter that reads the shape of a body is the one that writes the body. -/
theorem reader?_shape (codecs : Codecs) (contentType : Option MediaType) (bytes : Bytes)
    (body : Body) : (standard codecs).reader? contentType bytes body.shape =
      (standard codecs).writer? contentType body := rfl

theorem writer?_standard (codecs : Codecs) (contentType : Option MediaType) (body : Body) :
    (standard codecs).writer? contentType body =
      if (Converter.text .windows1252 codecs).canWrite contentType body then
        some (.text .windows1252 codecs)
      else if (Converter.json .compact codecs).canWrite contentType body then
        some (.json .compact codecs)
      else none := by
  show [Converter.text .windows1252 codecs, .json .compact codecs].find?
    (fun c => c.canWrite contentType body) = _
  simp only [List.find?_cons, List.find?_nil]
  cases (Converter.text .windows1252 codecs).canWrite contentType body <;>
    cases (Converter.json .compact codecs).canWrite contentType body <;> rfl

/-- What has been written is a text in a charset, or a body as JSON. -/
theorem write_standard_eq_ok (h : (standard codecs).write contentType (some body) = .ok bytes) :
    (∃ value, body = .text value ∧ covers textTypes contentType = true ∧
      (standard codecs).writer? contentType body = some (.text .windows1252 codecs) ∧
      (charsetOf .windows1252 contentType).encode? codecs value = some bytes) ∨
    (covers jsonTypes contentType = true ∧
      (standard codecs).writer? contentType body = some (.json .compact codecs) ∧
      writeJson .compact body = .ok bytes) := by
  unfold write at h
  dsimp only at h
  rw [writer?_standard] at h ⊢
  split_ifs at h ⊢ with htext hjson
  · obtain ⟨hshape, hcovers⟩ := (Bool.and_eq_true_iff (x := body.shape == .text)).1 htext
    cases body with
    | text value =>
      refine .inl ⟨value, rfl, hcovers, rfl, ?_⟩
      change writeText codecs _ value = .ok bytes at h
      unfold writeText at h
      split at h
      · next hencode => cases h; exact hencode
      · cases h
    | json d => cases hshape
    | binary value => cases hshape
  · have hcovers := ((Bool.and_eq_true_iff (x := body.shape != .binary)).1 hjson).2
    exact .inr ⟨hcovers, rfl, h⟩

/-- What is written under a content type is read back under it, if the content type names no charset
or UTF-8, or is text in a charset that undoes what it encodes. The single-byte charsets with a table
are such charsets. -/
theorem read_write_standard (codecs : Codecs) :
    (∀ charset ∈ [Charset.windows1252, .iso8859x15, .windows1251, .koi8r, .userDefined],
      charset.Undoes codecs) ∧
    ∀ (contentType : Option MediaType) (body : Body) (bytes : Bytes), body.Readable →
      (∀ m ∈ contentType, ∀ charset ∈ m.charset,
        charset = .utf8 ∨ m.type = "text" ∧ charset.Undoes codecs) →
      (standard codecs).write contentType (some body) = .ok bytes →
      (standard codecs).read contentType bytes body.shape = .ok body := by
  have hsingle : ∀ charset ∈ [Charset.windows1252, .iso8859x15, .windows1251, .koi8r,
      .userDefined], charset.Undoes codecs := by
    simp only [List.forall_mem_cons, List.not_mem_nil, false_imp_iff, implies_true, and_true]
    refine ⟨?_, ?_, ?_, ?_, ?_⟩ <;> exact Charset.undoes_of_table (fun _ => rfl) (fun _ => rfl)
  refine ⟨hsingle, ?_⟩
  intro contentType body bytes hbody hcharset hwrite
  unfold read
  rw [reader?_shape]
  rcases write_standard_eq_ok hwrite with ⟨value, rfl, -, hwriter, hencode⟩ | ⟨hcovers, hwriter, hjson⟩
  -- a text is in the charset that is named, or in the one that the converter takes for it
  · have hundoes : (charsetOf .windows1252 contentType).Undoes codecs := by
      unfold charsetOf
      rcases hnamed : contentType.bind (·.charset) with _ | charset
      · exact hsingle _ List.mem_cons_self
      · obtain ⟨m, hm, hcs⟩ := Option.bind_eq_some_iff.1 hnamed
        rcases hcharset m hm charset hcs with rfl | ⟨-, h⟩
        · exact Charset.undoes_utf8
        · exact h
    rw [hwriter]
    show readText codecs (charsetOf .windows1252 contentType) bytes = _
    unfold readText
    rw [hundoes value bytes hencode]
  -- the content types of JSON are not text, so what is left of the charsets is UTF-8
  · have hutf8 : ∀ charset ∈ contentType.bind (·.charset), charset = .utf8 := by
      intro charset hnamed
      obtain ⟨m, hm, hcs⟩ := Option.bind_eq_some_iff.1 hnamed
      rcases hcharset m hm charset hcs with h | ⟨htype, -⟩
      · exact h
      · cases hm
        have := type_of_covers_jsonTypes hcovers
        rw [htype] at this
        simp at this
    rw [hwriter]
    show readJson (toUtf8 codecs contentType bytes) body.shape = _
    rw [toUtf8_of_utf8 hutf8, readJson_of_writeJson hbody hjson]

/-- Cyrillic text as HTML. -/
theorem read_write_standard_cyrillic :
    let html : MediaType := ⟨"text", "html", [("charset", "koi8-r")], some .koi8r⟩
    standard.write (some html) (some (.text "Да")) = .ok [0xE4, 0xC1] ∧
      standard.read (some html) [0xE4, 0xC1] .text = .ok (.text "Да") := by
  intro html
  have hwrite : standard.write (some html) (some (.text "Да")) = .ok [0xE4, 0xC1] := by
    decide +kernel
  have hcharset : ∀ m ∈ some html, ∀ charset ∈ m.charset,
      charset = .utf8 ∨ m.type = "text" ∧ charset.Undoes .ascii := by
    rintro _ ⟨⟩ _ ⟨⟩
    exact .inr ⟨rfl, (read_write_standard .ascii).1 _ (by simp)⟩
  exact ⟨hwrite, (read_write_standard .ascii).2 _ (.text "Да") _ trivial hcharset hwrite⟩

end Registry
end PolicyClient
