/-
Bytes that are malformed in their charset. Text is never read from them, and JSON is not as long as it is
in UTF-8. In another charset JSON is decoded first, and there what is malformed is replaced by U+FFFD
and read on; since nothing beyond ASCII is read outside of strings, such bytes are read just if
all that is malformed in them stands in strings (`read_json_malformed`).
-/
import Mathlib
import PolicyClient.Proofs.Body.RoundTrip
import PolicyClient.Proofs.Body.Shape
import PolicyClient.Proofs.Document.Lexical

namespace PolicyClient

open Charset (Codecs)
open Document (Lexical)

variable {codecs : Codecs} {bytes : Bytes}

/-! ## Charsets -/

theorem Charset.decode?_eq_none_iff {charset : Charset} :
    charset.decode? codecs bytes = none ↔ none ∈ charset.decode codecs bytes := by
  rw [decode?, Option.map_eq_none_iff, Utf8.mapM_id_eq_none_iff]

theorem Charset.decode?_utf8_eq_none_iff : Charset.utf8.decode? codecs bytes = none ↔
    ¬ Utf8.WellFormed bytes := by
  rw [decode?_eq_none_iff, Utf8.WellFormed, not_not]; rfl

/-- Where nothing is malformed, nothing is replaced. -/
theorem Charset.decodeLossy_of_decode? {charset : Charset} {text : String}
    (h : charset.decode? codecs bytes = some text) : charset.decodeLossy codecs bytes = text := by
  obtain ⟨cs, hcs, rfl⟩ := Option.map_eq_some_iff.1 h
  rw [decodeLossy, Utf8.mapM_id_eq_some_iff.1 hcs, List.map_map]
  exact congrArg String.ofList (List.map_id cs)

/-- What is malformed is replaced. -/
theorem Charset.replaced_of_decode? {charset : Charset} (h : charset.decode? codecs bytes = none) :
    '\uFFFD' ∈ (charset.decodeLossy codecs bytes).toList := by
  rw [decodeLossy, String.toList_ofList]
  exact List.mem_map.2 ⟨none, decode?_eq_none_iff.1 h, rfl⟩

namespace Converter

variable {shape : Shape} {body : Body} {contentType : Option MediaType}

/-! ## JSON -/

/-- A body that is read as JSON comes from lexical bytes. -/
theorem lexical_of_readJson (h : readJson bytes shape = .ok body) : Lexical bytes := by
  cases shape with
  | json =>
    simp only [readJson] at h
    split at h
    · next hd => exact Document.lexical_of_ofBytes hd
    · cases h
  | text =>
    simp only [readJson] at h
    split at h
    · next hs => exact Document.lexical_of_stringOfBytes hs
    · cases h
  | binary => cases h

theorem readJson_eq_error {e : ConversionError} (h : readJson bytes shape = .error e) :
    ∃ fault, e = .reading fault := by
  have hreads := readsAs_readJson bytes shape
  rw [h] at hreads
  cases hreads
  exact ⟨_, rfl⟩

theorem toUtf8_of_charset (h : charsetOf .utf8 contentType = .utf8) :
    toUtf8 codecs contentType bytes = bytes := by
  unfold charsetOf at h
  unfold toUtf8
  rcases hcharset : contentType.bind (·.charset) with _ | charset
  · rfl
  · rw [hcharset] at h
    obtain rfl : charset = .utf8 := h
    rfl

theorem toUtf8_of_other (h : charsetOf .utf8 contentType ≠ .utf8) : toUtf8 codecs contentType bytes =
    Utf8.encode ((charsetOf .utf8 contentType).decodeLossy codecs bytes) := by
  unfold charsetOf at h ⊢
  unfold toUtf8
  rcases hcharset : contentType.bind (·.charset) with _ | charset
  · rw [hcharset] at h; exact absurd rfl h
  · rw [hcharset] at h
    cases charset <;> first | rfl | exact absurd rfl h

/-- JSON is read in UTF-8 if no other charset is declared; malformed bytes are refused then. In another
charset, well-formed bytes are read for the text that they encode, and malformed ones with U+FFFD in
place of what is malformed: they are accepted just if that text is JSON of the shape, and then U+FFFD
stands in string literals only. The converter of text refuses all malformed bytes; every refusal is one
of reading. -/
theorem read_json_malformed (layout : Layout) (codecs : Codecs) (contentType : Option MediaType)
    (bytes : Bytes) (shape : Shape) :
    let charset := charsetOf .utf8 contentType
    let read := (json layout codecs).read contentType bytes shape
    let lossy := charset.decodeLossy codecs bytes
    (∀ e, read = .error e → ∃ fault, e = .reading fault) ∧
    (charset = .utf8 → charset.decode? codecs bytes = none → ∃ fault, read = .error (.reading fault)) ∧
    (charset ≠ .utf8 → ∀ text, charset.decode? codecs bytes = some text →
      read = readJson (Utf8.encode text) shape) ∧
    ((∃ body, read = .ok body) ∧ charset.decode? codecs bytes = none ↔
      charset ≠ .utf8 ∧ charset.decode? codecs bytes = none ∧
        ∃ body, readJson (Utf8.encode lossy) shape = .ok body) ∧
    ((∃ body, read = .ok body) → charset.decode? codecs bytes = none →
      '\uFFFD' ∈ lossy.toList ∧ Lexical (Utf8.encode lossy)) ∧
    ∀ fallback, (charsetOf fallback contentType).decode? codecs bytes = none →
      (text fallback codecs).read contentType bytes .text =
        .error (.reading (.malformed (charsetOf fallback contentType))) := by
  intro charset read lossy
  have hread : read = readJson (toUtf8 codecs contentType bytes) shape := rfl
  have hfails : ∀ e, read = .error e → ∃ fault, e = .reading fault := fun e he =>
    readJson_eq_error (hread ▸ he)
  have hother (h : charset ≠ .utf8) : read = readJson (Utf8.encode lossy) shape := by
    rw [hread, toUtf8_of_other h]
  -- in UTF-8 what is read is lexical, and so it is well-formed
  have hutf8 (h : charset = .utf8) (hnone : charset.decode? codecs bytes = none) (body : Body) :
      read ≠ .ok body := by
    intro hok
    rw [hread, toUtf8_of_charset h] at hok
    rw [h, Charset.decode?_utf8_eq_none_iff] at hnone
    exact hnone (lexical_of_readJson hok).wellFormed
  refine ⟨hfails, fun h hnone => ?_, fun h text htext => ?_, ?_, ?_, fun fallback hnone => ?_⟩
  · cases hresult : read with
    | ok body => exact absurd hresult (hutf8 h hnone body)
    | error e =>
      obtain ⟨fault, rfl⟩ := hfails e hresult
      exact ⟨fault, rfl⟩
  · rw [hother h, show lossy = text from Charset.decodeLossy_of_decode? htext]
  · constructor
    · rintro ⟨⟨body, hok⟩, hnone⟩
      have h : charset ≠ .utf8 := fun h => hutf8 h hnone body hok
      exact ⟨h, hnone, body, hother h ▸ hok⟩
    · rintro ⟨h, hnone, body, hok⟩
      exact ⟨⟨body, (hother h).trans hok⟩, hnone⟩
  · rintro ⟨body, hok⟩ hnone
    have h : charset ≠ .utf8 := fun h => hutf8 h hnone body hok
    exact ⟨Charset.replaced_of_decode? hnone, lexical_of_readJson ((hother h).symm.trans hok)⟩
  · show readText codecs (charsetOf fallback contentType) bytes = _
    rw [readText, hnone]

/-- JSON in a charset. -/
def jsonIn (name : String) (charset : Charset) : MediaType :=
  ⟨"application", "json", [("charset", name)], some charset⟩

/-- A byte that is no UTF-8, in a string. -/
theorem read_json_malformed_utf8 :
    (charsetOf .utf8 (some (jsonIn "utf-8" .utf8))).decode? .ascii [0x22, 0xFF, 0x22] = none ∧
      ∀ shape, ∃ fault, (json .compact).read (some (jsonIn "utf-8" .utf8)) [0x22, 0xFF, 0x22] shape =
        .error (.reading fault) := by
  have hnone : (charsetOf .utf8 (some (jsonIn "utf-8" .utf8))).decode? .ascii [0x22, 0xFF, 0x22] = none := by
    decide +kernel
  exact ⟨hnone, fun shape => (read_json_malformed .compact .ascii _ _ shape).2.1 rfl hnone⟩

/-- Half of a surrogate pair in a string, in UTF-16: as text it is refused, but as JSON it is a string
of U+FFFD. -/
theorem read_json_malformed_utf16 :
    Charset.utf16le.decode? .ascii [0x22, 0, 0, 0xD8, 0x22, 0] = none ∧
      (json .compact).read (some (jsonIn "utf-16le" .utf16le)) [0x22, 0, 0, 0xD8, 0x22, 0] .json =
        .ok (.json (.text "\uFFFD")) ∧
      (json .compact).read (some (jsonIn "utf-16le" .utf16le)) [0x22, 0, 0, 0xD8, 0x22, 0] .text =
        .ok (.text "\uFFFD") ∧
      (text .windows1252).read (some (jsonIn "utf-16le" .utf16le)) [0x22, 0, 0, 0xD8, 0x22, 0] .text =
        .error (.reading (.malformed .utf16le)) := by
  have hutf8 : toUtf8 .ascii (some (jsonIn "utf-16le" .utf16le)) [0x22, 0, 0, 0xD8, 0x22, 0] =
      Utf8.encode (Document.print (.text "\uFFFD")) := by decide +kernel
  refine ⟨by decide +kernel, ?_, ?_, rfl⟩
  · have hreadable : (Body.json (.text "\uFFFD")).Readable := .text _ _
    show readJson (toUtf8 _ _ _) (Body.json (.text "\uFFFD")).shape = _
    rw [hutf8]
    exact readJson_of_writeJson hreadable rfl
  · have hreadable : (Body.text "\uFFFD").Readable := trivial
    show readJson (toUtf8 _ _ _) (Body.text "\uFFFD").shape = _
    rw [hutf8]
    exact readJson_of_writeJson hreadable rfl

end Converter
end PolicyClient
