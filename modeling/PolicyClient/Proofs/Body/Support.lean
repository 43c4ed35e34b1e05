/-
The content types that converters support. Inclusion of media types is an order
(`includes_order`), so a converter supports with a content type all that it stands for. A subtype
with a structured syntax suffix falls under all subtypes with that suffix exactly if it has no `+`
in front of the suffix (`includes_structured`): what is compared stands behind the first `+`.
-/
import PolicyClient.Proofs.Body.RoundTrip
import PolicyClient.Proofs.MediaType.Inclusion
import Mathlib

namespace PolicyClient

open Charset (Codecs)
open MediaType (SameKind)

/-! ## Inclusion -/

theorem MediaType.built_all : MediaType.all.Built :=
  .parsed (show parse "*" = .ok .all by decide +kernel)

theorem MediaType.built_applicationAllJson : MediaType.applicationAllJson.Built :=
  .parsed (show parse "application/*+json" = .ok .applicationAllJson by decide +kernel)

/-- What stands for everything is `*/*`, whatever its parameters. -/
theorem MediaType.sameKind_all_iff {a : MediaType} (ha : a.Built) :
    (∀ b : MediaType, b.Built → a.includes b = true) ↔ a.SameKind .all := by
  constructor
  · intro h
    exact (includes_antisymm_iff ha.wellFormed built_all.wellFormed).1 ⟨h _ built_all, rfl⟩
  · intro h b _
    exact includes_iff.2 (.everything h.type_eq)

/-- With a content type, media types cover all that it stands for. -/
theorem Converter.covers_of_includes {mediaTypes : List MediaType} {b c : MediaType}
    (hb : covers mediaTypes (some b) = true) (hbc : b.includes c = true) :
    covers mediaTypes (some c) = true := by
  obtain ⟨a, ha, hab⟩ := List.any_eq_true.1 hb
  exact List.any_eq_true.2 ⟨a, ha, MediaType.includes_trans hab hbc⟩

/-- Inclusion of media types does not depend on their parameters, and up to these it is a partial
order with `*/*` as its greatest element. So a converter that supports a content type supports all
that the content type stands for. -/
theorem includes_order :
    (∀ {a a' b b' : MediaType}, a.SameKind a' → b.SameKind b' → a.includes b = a'.includes b') ∧
    (∀ a : MediaType, a.includes a = true) ∧
    (∀ {a b c : MediaType}, a.includes b = true → b.includes c = true → a.includes c = true) ∧
    (∀ {a b : MediaType}, a.Built → b.Built →
      (a.includes b = true ∧ b.includes a = true ↔ a.SameKind b)) ∧
    (∀ {a : MediaType}, a.Built →
      ((∀ b : MediaType, b.Built → a.includes b = true) ↔ a.SameKind .all)) ∧
    ∀ (converter : Converter) {b c : MediaType}, converter.supports (some b) = true →
      b.includes c = true → converter.supports (some c) = true := by
  refine ⟨MediaType.includes_congr, MediaType.includes_refl, MediaType.includes_trans, ?antisymm,
    MediaType.sameKind_all_iff, ?converter⟩
  case antisymm =>
    intro a b ha hb
    exact MediaType.includes_antisymm_iff ha.wellFormed hb.wellFormed
  case converter =>
    intro converter b c hb hbc
    exact Converter.covers_of_includes hb hbc

/-- All kinds of JSON stand for Linked Data, but not the other way round. -/
theorem includes_order_linked_data :
    ∃ a b : MediaType, MediaType.parse "application/*+json" = .ok a ∧
      MediaType.parse "Application/LD+json; q=0.5" = .ok b ∧
      a.includes b = true ∧ b.includes a = false ∧
      (Converter.json .compact).supports (some b) = true := by
  have ha : MediaType.parse "application/*+json" = .ok .applicationAllJson := by decide +kernel
  have hb : MediaType.parse "Application/LD+json; q=0.5" =
      .ok ⟨"application", "ld+json", [("q", "0.5")], none⟩ := by decide +kernel
  obtain ⟨-, hrefl, -, hantisymm, -, hsupports⟩ := includes_order
  have hab : MediaType.applicationAllJson.includes
      ⟨"application", "ld+json", [("q", "0.5")], none⟩ = true := by decide +kernel
  have hown : (Converter.json .compact).supports (some .applicationAllJson) = true :=
    List.any_eq_true.2 ⟨_, by simp [Converter.json, Converter.jsonTypes], hrefl _⟩
  refine ⟨_, _, ha, hb, hab, ?_, hsupports _ hown hab⟩
  rw [← Bool.not_eq_true]
  intro hba
  have hkind := (hantisymm (.parsed ha) (.parsed hb)).1 ⟨hab, hba⟩
  exact absurd hkind.subtype_eq (by decide)

/-! ## Structured syntax suffixes -/

/-- A content type of the type `application` falls under JSON if `json` is its subtype or stands
behind the first `+` of it. -/
theorem Converter.covers_jsonTypes {m : MediaType} (htype : m.type = "application") :
    covers jsonTypes (some m) = true ↔ m.subtype = "json" ∨ m.suffix? = some "json".toList := by
  have hjson : MediaType.applicationJson.includes m = true ↔ m.subtype = "json" := by
    rw [MediaType.includes_iff]
    constructor
    · intro h
      cases h with
      | everything h => exact absurd h (by decide)
      | itself h => exact h.subtype_eq.symm
      | subtypes _ h => exact absurd h (by decide)
      | suffixes _ h => cases h
    · exact fun h => .itself ⟨htype.symm, h.symm⟩
  rw [← hjson, ← MediaType.includes_iff_suffix MediaType.built_applicationAllJson.wellFormed
    (by decide +kernel) htype.symm]
  show (MediaType.applicationJson.includes m ||
    (MediaType.applicationAllJson.includes m || false)) = true ↔ _
  rw [Bool.or_false, Bool.or_eq_true]

/-- A document is read as JSON or not at all. -/
theorem Registry.reader?_standard_json (codecs : Codecs) (contentType : Option MediaType)
    (bytes : Bytes) : (standard codecs).reader? contentType bytes .json =
      if Converter.covers Converter.jsonTypes contentType then some (.json .compact codecs)
      else none := by
  show [Converter.text .windows1252 codecs, .json .compact codecs].find?
    (fun c => c.canRead contentType bytes .json) = _
  rw [List.find?_cons_of_neg (by simp [Converter.text]), List.find?_singleton]
  rfl

/-- A subtype falls under all subtypes with a suffix exactly if it has the suffix with no `+` in
front of it. So of the documents with the suffix `json`, the standard registry reads those whose
subtype has no other `+`, and it has no converter for the others. -/
theorem includes_structured {m : MediaType} {front suffix : List Char}
    (hsubtype : m.subtype.toList = front ++ '+' :: suffix) :
    (∀ a : MediaType, a.Built → a.type = m.type → a.subtype.toList = '*' :: '+' :: suffix →
      (a.includes m = true ↔ '+' ∉ front)) ∧
    (m.type = "application" → suffix = "json".toList → ∀ (codecs : Codecs) (bytes : Bytes),
      (Registry.standard codecs).reader? (some m) bytes .json =
          (if '+' ∈ front then none else some (Converter.json .compact codecs)) ∧
        (Registry.standard codecs).read (some m) bytes .json =
          if '+' ∈ front then .error (.noConverter .json (some m))
          else (Converter.json .compact codecs).read (some m) bytes .json) := by
  constructor
  · intro a ha htype hsuffix
    rw [MediaType.includes_iff_suffix ha.wellFormed
      (MediaType.wildcardSuffix?_eq_some_iff.2 hsuffix) htype]
    exact MediaType.suffix?_iff_of_append hsubtype
  · rintro htype rfl codecs bytes
    have hplain : m.subtype ≠ "json" := by
      intro h
      rw [h] at hsubtype
      have : '+' ∈ "json".toList := by rw [hsubtype]; simp
      exact absurd this (by decide)
    have hcovers : Converter.covers Converter.jsonTypes (some m) = true ↔ '+' ∉ front := by
      rw [Converter.covers_jsonTypes htype, MediaType.suffix?_iff_of_append hsubtype]
      exact or_iff_right hplain
    have hreader : (Registry.standard codecs).reader? (some m) bytes .json =
        if '+' ∈ front then none else some (Converter.json .compact codecs) := by
      rw [Registry.reader?_standard_json]
      by_cases hfront : '+' ∈ front
      · rw [if_pos hfront, if_neg (fun h => hcovers.1 h hfront)]
      · rw [if_neg hfront, if_pos (hcovers.2 hfront)]
    refine ⟨hreader, ?_⟩
    unfold Registry.read
    rw [hreader]
    split_ifs <;> rfl

/-- A single suffix behind a subtype. -/
theorem includes_structured_linked_data :
    ∃ m : MediaType, MediaType.parse "application/ld+json" = .ok m ∧
      MediaType.applicationAllJson.includes m = true ∧
      Registry.standard.reader? (some m) (Utf8.encode "[]") .json =
        some (Converter.json .compact .ascii) := by
  have hm : MediaType.parse "application/ld+json" = .ok (.bare "application" "ld+json") := by
    decide +kernel
  have hpattern : MediaType.applicationAllJson.subtype.toList = '*' :: '+' :: "json".toList := by
    decide
  have hsubtype : (MediaType.bare "application" "ld+json").subtype.toList =
      "ld".toList ++ '+' :: "json".toList := by decide
  have hfront : '+' ∉ "ld".toList := by decide
  obtain ⟨hincludes, hreads⟩ := includes_structured hsubtype
  refine ⟨_, hm, ?_, ?_⟩
  · exact (hincludes _ MediaType.built_applicationAllJson rfl hpattern).2 hfront
  · exact (hreads rfl rfl .ascii (Utf8.encode "[]")).1.trans (if_neg hfront)

/-- Verifiable credentials have the suffix `json` behind another one. They do not fall under all
kinds of JSON, and no converter is found for them. -/
theorem includes_structured_credentials :
    ∃ m : MediaType, MediaType.parse "application/vc+ld+json" = .ok m ∧
      m.subtype.toList = "vc+ld".toList ++ '+' :: "json".toList ∧ '+' ∉ "json".toList ∧
      MediaType.parse "application/*+json" = .ok .applicationAllJson ∧
      MediaType.applicationAllJson.includes m = false ∧
      Registry.standard.read (some m) (Utf8.encode "[]") .json =
        .error (.noConverter .json (some m)) := by
  refine ⟨.bare "application" "vc+ld+json", by decide +kernel, by decide, by decide,
    by decide +kernel, by decide +kernel, ?_⟩
  rfl

end PolicyClient
