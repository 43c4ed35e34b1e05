/-
The body of a request and the charset that its content type names (`prepare_body_charset`). Text is
in that charset. JSON is in UTF-8 whatever the charset, so it can be read in the charset only where
the two agree: in UTF-8 itself, and for text of ASCII in a charset that has ASCII.
-/
import PolicyClient.Client.Basic
import PolicyClient.Proofs.Body.RoundTrip
import PolicyClient.Proofs.Document.Visible
import PolicyClient.Proofs.MediaType.RoundTrip

namespace PolicyClient

open Charset (Codecs)

/-- The text that a body stands for on the wire: text as it is, and JSON for other types. -/
def Body.wireText (contentType : MediaType) : Body → String
  | .text value => if contentType.type = "text" then value else Document.print (.text value)
  | .json d => d.print
  | .binary _ => ""

/-! ## What is written -/

section

variable {codecs : Codecs} {m : MediaType} {body : Body} {bytes : Bytes}

/-- What the standard registry writes is a text in its charset, or JSON in UTF-8. -/
theorem Registry.write_standard_wireText
    (h : (standard codecs).write (some m) (some body) = .ok bytes) :
    (m.type = "text" ∧
      (m.charset.getD .windows1252).encode? codecs (body.wireText m) = some bytes) ∨
    (m.type ≠ "text" ∧ Converter.writeJson .compact body = .ok bytes ∧
      ∃ d : Document, body.wireText m = d.print ∧ bytes = Utf8.encode d.print) := by
  rcases write_standard_eq_ok h with ⟨value, rfl, hcovers, -, hencode⟩ | ⟨hcovers, -, hjson⟩
  · have htype := Converter.covers_textTypes.1 hcovers
    refine .inl ⟨htype, ?_⟩
    rw [Body.wireText, if_pos htype]
    exact hencode
  · have htype : m.type ≠ "text" := by
      rw [Converter.type_of_covers_jsonTypes hcovers]
      simp
    refine .inr ⟨htype, hjson, ?_⟩
    cases body with
    | text value =>
      simp only [Converter.writeJson, Converter.Layout.print, Except.ok.injEq] at hjson
      exact ⟨.text value, if_neg htype, hjson.symm⟩
    | json d =>
      simp only [Converter.writeJson, Converter.Layout.print, Except.ok.injEq] at hjson
      exact ⟨d, rfl, hjson.symm⟩
    | binary value => cases hjson

end

/-! ## JSON in another charset -/

namespace Document

variable {codecs : Codecs} {charset : Charset} {d : Document}

/-- The text of a document is ASCII throughout. -/
def IsAscii (d : Document) : Prop :=
  ∀ c ∈ d.print.toList, c.toNat < 0x80

theorem toList_print (d : Document) : d.print.toList = d.chars := String.toList_ofList

theorem decode?_print (h : charset = .utf8 ∨ charset.ReadsAscii codecs ∧ d.IsAscii) :
    charset.decode? codecs (Utf8.encode d.print) = some d.print := by
  rcases h with rfl | ⟨hreads, hascii⟩
  · exact Utf8.text?_encode _
  · refine hreads _ fun c hc => ⟨?_, hascii c hc⟩
    rw [toList_print] at hc
    exact le_of_mem_chars hc

/-- In no other charset with rules of its own are the bytes the document again. -/
theorem of_decode?_print (hcharset : ∀ name, charset ≠ .other name)
    (h : charset.decode? codecs (Utf8.encode d.print) = some d.print) :
    charset = .utf8 ∨ charset.ReadsAscii codecs ∧ d.IsAscii := by
  obtain ⟨c, cs, hchars, hc⟩ := exists_chars_eq_cons d
  have hzero : ∀ a ∈ c :: cs, 0 < a.toNat := by
    intro a ha
    rw [← hchars] at ha
    have := le_of_mem_chars ha
    omega
  unfold IsAscii
  rw [toList_print, hchars]
  unfold print at h
  rw [hchars] at h
  rcases (Charset.decode?_encode_iff hcharset hc hzero).1 h with rfl | ⟨htable, hascii⟩
  · exact .inl rfl
  · exact .inr ⟨Charset.readsAscii_of_upperHalf htable, hascii⟩

end Document

/-- Bytes in a charset that are a text there are turned into that text. -/
theorem Converter.toUtf8_of_decode? {codecs : Codecs} {m : MediaType} {charset : Charset}
    {bytes : Bytes} {text : String} (hcharset : m.charset = some charset)
    (h : charset.decode? codecs bytes = some text) (hbytes : bytes = Utf8.encode text) :
    toUtf8 codecs (some m) bytes = bytes := by
  have hlossy : charset.decodeLossy codecs bytes = text := by
    unfold Charset.decodeLossy
    rw [Charset.decode?_eq_some_iff.1 h, List.map_map]
    exact (congrArg String.ofList (List.map_id _)).trans String.ofList_toList
  unfold toUtf8
  rw [Option.bind_some, hcharset]
  cases charset <;> first | rfl | exact (congrArg Utf8.encode hlossy).trans hbytes.symm

/-! ## Requests -/

namespace Client

/-- What a prepared request is made of. -/
theorem prepare_eq_ok {c : Client} {d : Draft} {r : Request} (h : c.prepare d = .ok r) :
    d.spoiled = none ∧ c.resolve d.path = .ok r.url ∧
      c.registry.write (some d.headers.contentType) d.body = .ok r.body ∧
      r.method = d.method ∧ r.headers = d.headers.pairs d.body.isSome := by
  unfold prepare at h
  cases hspoiled : d.spoiled with
  | some e => rw [hspoiled] at h; cases h
  | none =>
    rw [hspoiled] at h
    cases hurl : c.resolve d.path with
    | error e => rw [hurl] at h; cases h
    | ok url =>
      cases hbody : c.registry.write (some d.headers.contentType) d.body with
      | error e => rw [hurl, hbody] at h; cases h
      | ok bytes => rw [hurl, hbody] at h; cases h; exact ⟨rfl, rfl, rfl, rfl, rfl⟩

/-- The content type on the wire is that of the draft. -/
theorem contentType_pairs {h : RequestHeaders} (hbuilt : h.contentType.Built) :
    (headerValue? (h.pairs true) "Content-Type").map MediaType.parse = some (.ok h.contentType) := by
  have hvalue : headerValue? (h.pairs true) "Content-Type" = some h.contentType.render := by
    simp [headerValue?, RequestHeaders.pairs, Text.sameName_refl]
  rw [hvalue, Option.map_some, MediaType.parse_render hbuilt.wellFormed]

/-- The content type that goes on the wire names the charset of the draft. The bytes of a text are
in that charset. Those of JSON are just where the charset is UTF-8, or has ASCII and the text is
ASCII; there, the body is read back from them. The charsets known by name alone count as far as
their codecs do the same. -/
theorem prepare_body_charset {codecs : Codecs} {c : Client} {d : Draft} {r : Request} {body : Body}
    {charset : Charset} (hregistry : c.registry = .standard codecs)
    (hbuilt : d.headers.contentType.Built) (hbody : d.body = some body)
    (hcharset : d.headers.contentType.charset = some charset) (h : c.prepare d = .ok r) :
    (headerValue? r.headers "Content-Type").map MediaType.parse =
        some (.ok d.headers.contentType) ∧
      (d.headers.contentType.type = "text" →
        (∀ name, charset = .other name → charset.Undoes codecs) →
        charset.decode? codecs r.body = some (body.wireText d.headers.contentType)) ∧
      (d.headers.contentType.type ≠ "text" →
        ∃ doc : Document, body.wireText d.headers.contentType = doc.print ∧
          (charset = .utf8 ∨ charset.ReadsAscii codecs ∧ doc.IsAscii →
            charset.decode? codecs r.body = some doc.print) ∧
          ((∀ name, charset ≠ .other name) → charset.decode? codecs r.body = some doc.print →
            charset = .utf8 ∨ charset.ReadsAscii codecs ∧ doc.IsAscii) ∧
          (body.Readable → charset.decode? codecs r.body = some doc.print →
            (Converter.json .compact codecs).read (some d.headers.contentType) r.body body.shape =
              .ok body)) := by
  obtain ⟨-, -, hwrite, -, hheaders⟩ := prepare_eq_ok h
  rw [hbody] at hheaders hwrite
  rw [hregistry] at hwrite
  refine ⟨?_, ?_, ?_⟩
  · rw [hheaders]
    exact contentType_pairs hbuilt
  · intro htype hundoes
    rcases Registry.write_standard_wireText hwrite with ⟨-, hencode⟩ | ⟨hne, -⟩
    · rw [hcharset] at hencode
      exact Charset.undoes_of_other hundoes _ _ hencode
    · exact absurd htype hne
  · intro htype
    rcases Registry.write_standard_wireText hwrite with ⟨heq, -⟩ | ⟨-, hjson, doc, htext, hbytes⟩
    · exact absurd heq htype
    · refine ⟨doc, htext, ?_, ?_, ?_⟩
      · rw [hbytes]
        exact Document.decode?_print
      · rw [hbytes]
        exact Document.of_decode?_print
      · intro hreadable hdecode
        show Converter.readJson (Converter.toUtf8 codecs _ r.body) body.shape = _
        rw [Converter.toUtf8_of_decode? hcharset hdecode hbytes,
          Converter.readJson_of_writeJson hreadable hjson]

/-- Text that is not ASCII, in Latin-1. -/
theorem prepare_body_charset_text :
    let contentType : MediaType := ⟨"text", "plain", [("charset", "latin1")], some .windows1252⟩
    let c : Client := ⟨⟨"http", "", none, "opa", none, [""], none, none⟩, .standard, {}⟩
    let d : Draft := ⟨"PUT", "v1/policies/a", ⟨contentType, [], []⟩, some (.text "é"), none⟩
    ∃ r, c.prepare d = .ok r ∧ r.body = [0xE9] ∧
      (headerValue? r.headers "Content-Type").map MediaType.parse = some (.ok contentType) ∧
      Charset.windows1252.decode? .ascii r.body = some "é" := by
  intro contentType c d
  have hparse : MediaType.parse "text/plain;charset=latin1" = .ok contentType := by decide +kernel
  have hprepare : c.prepare d = .ok ⟨"PUT", ⟨"http", "", none, "opa", none,
      ["v1", "policies", "a"], none, none⟩, [("Content-Type", "text/plain;charset=latin1")],
      [0xE9]⟩ := by decide +kernel
  have hcharset := prepare_body_charset rfl (.parsed hparse) rfl rfl hprepare
  exact ⟨_, hprepare, rfl, hcharset.1, hcharset.2.1 rfl nofun⟩

/-- A document in JSON that is declared to be in Latin-1 is sent in UTF-8, so its receiver reads
another one. -/
theorem prepare_latin1_document :
    let contentType : MediaType :=
      ⟨"application", "json", [("charset", "iso-8859-1")], some .windows1252⟩
    let c : Client := ⟨⟨"http", "", none, "opa", none, [""], none, none⟩, .standard, {}⟩
    let d : Draft := ⟨"POST", "v1/data/a", ⟨contentType, [], []⟩, some (.json (.text "é")), none⟩
    MediaType.parse "application/json; charset=iso-8859-1" = .ok contentType ∧
      ∃ r, c.prepare d = .ok r ∧
        headerValue? r.headers "Content-Type" = some "application/json;charset=iso-8859-1" ∧
        (Document.text "é").print = "\"é\"" ∧
        Charset.windows1252.decode? .ascii r.body = some "\"Ã©\"" ∧
        (Converter.json .compact).read (some contentType) r.body .json =
          .ok (.json (.text "Ã©")) := by
  intro contentType c d
  have hprepare : c.prepare d = .ok ⟨"POST", ⟨"http", "", none, "opa", none,
      ["v1", "data", "a"], none, none⟩, [("Content-Type", "application/json;charset=iso-8859-1")],
      [0x22, 0xC3, 0xA9, 0x22]⟩ := by decide +kernel
  have hutf8 : Converter.toUtf8 .ascii (some contentType) [0x22, 0xC3, 0xA9, 0x22] =
      Utf8.encode (Document.text "Ã©").print := by decide +kernel
  refine ⟨by decide +kernel, _, hprepare, by decide +kernel, by decide +kernel,
    by decide +kernel, ?_⟩
  show Converter.readJson (Converter.toUtf8 .ascii _ _) .json = _
  rw [hutf8, Converter.readJson, Document.ofBytes_print (.text 127 _)]

end Client
end PolicyClient
