/-
What is wrong with documents outside the grammar. A document that is read as a tree has sites: the
document itself and, below it, the documents that are read as its parts. A site can offend in one way
by itself, whatever its parts are. Positions of sites are compared as lists of indices, which is the
order of the sites in the document: a site before its parts, and all of one part before the next.
A document is in the grammar exactly if no site offends (`isQuerySet_iff_clean`).
-/
import PolicyClient.Proofs.Query.Grammar

namespace PolicyClient

/-! ## Sites -/

/-- A document that is read as a tree of a level. -/
structure Site where
  level : Level
  doc : Document

/-- What the value of a term has to be. -/
inductive Payload
  | terms (headed : Bool)
  | text
  | bool
  | number
  | nothing

/-- What the value of a term of a type has to be; other types are unknown. -/
def Payload.ofType? (type : String) : Option Payload :=
  if type = "ref" ∨ type = "call" then some (.terms true)
  else if type = "array" ∨ type = "set" then some (.terms false)
  else if type = "var" ∨ type = "string" then some .text
  else if type = "boolean" then some .bool
  else if type = "number" then some .number
  else if type = "null" then some .nothing
  else none

/-- What is wrong with the value of a term by itself. -/
def Payload.offence? (type : String) (members : Members) : Payload → Option DecodeError
  | .terms headed =>
    match members.get? "value" with
    | some (.array items) => if headed = true ∧ items = [] then some (.noTerms type) else none
    | _ => some (.badValue type "an array" (Term.valueKind members))
  | .text =>
    match members.get? "value" with
    | some (.text _) => none
    | _ => some (.badValue type "a string" (Term.valueKind members))
  | .bool =>
    match members.get? "value" with
    | some (.bool _) => none
    | _ => some (.badValue type "a boolean" (Term.valueKind members))
  | .number =>
    match members.get? "value" with
    | some (.number n) => if n.ScaleFits then none else some (.badNumber n.text)
    | _ => some (.badValue type "a number" (Term.valueKind members))
  | .nothing => none

/-- The documents within a value. -/
def Payload.items (members : Members) : Payload → List Document
  | .terms _ =>
    match members.get? "value" with
    | some (.array items) => items
    | _ => []
  | _ => []

/-- What is wrong with a term by itself: its type is looked at before its value. -/
def termOffence? (members : Members) : Option DecodeError :=
  match members.get? "type" with
  | none => some (.unknownType "<missing>")
  | some (.text type) =>
    match Payload.ofType? type with
    | none => some (.unknownType type)
    | some payload => payload.offence? type members
  | some other => some (.unknownType other.print)

/-- What is wrong with the index of an expression. -/
def indexOffence? (members : Members) : Option DecodeError :=
  match members.get? "index" with
  | none => none
  | some .null => none
  | some (.number n) => if n.IsWord then none else some (.badIndex n.text)
  | some other => some (.indexNotNumber other.kind)

/-- What is wrong with the terms of an expression, each term aside. -/
def termsOffence? (members : Members) : Option DecodeError :=
  match members.get? "terms" with
  | none => some .termsMissing
  | some (.array _) => none
  | some (.object _) => none
  | some other => some (.badTerms other.kind)

namespace Site

/-- What is wrong with a site by itself; the index of an expression is looked at before its terms. -/
def offence? : Site → Option DecodeError
  | ⟨.querySet, .array _⟩ => none
  | ⟨.querySet, d⟩ => some (.notArray "query set" "queries" d.kind)
  | ⟨.query, .array _⟩ => none
  | ⟨.query, d⟩ => some (.notArray "query" "expressions" d.kind)
  | ⟨.expression, .object members⟩ => (indexOffence? members).or (termsOffence? members)
  | ⟨.expression, d⟩ => some (.notObject "expression" d.kind)
  | ⟨.term, .object members⟩ => termOffence? members
  | ⟨.term, d⟩ => some (.notObject "term" d.kind)

/-- The documents that stand for the terms of an expression. -/
def termsOfExpression (members : Members) : List Document :=
  match members.get? "terms" with
  | some (.array items) => items
  | some (.object term) => [.object term]
  | _ => []

/-- The documents that stand for the terms within a term. -/
def termsOfTerm (members : Members) : List Document :=
  match members.get? "type" with
  | some (.text type) => ((Payload.ofType? type).map (·.items members)).getD []
  | _ => []

/-- The parts of a site, in their order. -/
def parts : Site → List Site
  | ⟨.querySet, .array items⟩ => items.map (mk .query)
  | ⟨.query, .array items⟩ => items.map (mk .expression)
  | ⟨.expression, .object members⟩ => (termsOfExpression members).map (mk .term)
  | ⟨.term, .object members⟩ => (termsOfTerm members).map (mk .term)
  | _ => []

/-- The site at a position: the indices of the parts on the way down to it. -/
def at? (s : Site) : List Nat → Option Site
  | [] => some s
  | i :: position => s.parts[i]?.bind fun part => part.at? position

/-- No site offends, at any depth. -/
def Clean (s : Site) : Prop :=
  ∀ position site, s.at? position = some site → site.offence? = none

/-- The offence of the first site that offends, in the order of the document: a site stands before its
parts, and all of a part stands before the next one. -/
def FirstOffence (s : Site) (e : DecodeError) : Prop :=
  ∃ position site, s.at? position = some site ∧ site.offence? = some e ∧
    ∀ earlier < position, ∀ other, s.at? earlier = some other → other.offence? = none

/-! ## Offences of parts -/

theorem clean_iff {s : Site} : s.Clean ↔ s.offence? = none ∧ ∀ part ∈ s.parts, part.Clean := by
  constructor
  · intro h
    refine ⟨h [] s rfl, fun part hpart position site hsite => ?_⟩
    obtain ⟨i, hi, rfl⟩ := List.getElem_of_mem hpart
    exact h (i :: position) site (by rw [at?, List.getElem?_eq_getElem hi]; exact hsite)
  · rintro ⟨hs, hparts⟩ (_ | ⟨i, position⟩) site hsite
    · cases hsite; exact hs
    · obtain ⟨part, hpart, hsite⟩ := Option.bind_eq_some_iff.1 hsite
      exact hparts part (List.mem_of_getElem? hpart) position site hsite

theorem clean_of_parts {s : Site} {docs : List Document} {level : Level}
    (hparts : s.parts = docs.map (mk level)) :
    s.Clean ↔ s.offence? = none ∧ ∀ d ∈ docs, Clean ⟨level, d⟩ := by
  rw [clean_iff, hparts, List.forall_mem_map]

theorem firstOffence_self {s : Site} {e : DecodeError} (h : s.offence? = some e) : s.FirstOffence e :=
  ⟨[], s, rfl, h, fun _ hlt => absurd hlt (List.not_lt_nil _)⟩

/-- The first offence of a part is that of the whole, if nothing before the part offends. -/
theorem firstOffence_of_part {s part : Site} {before behind : List Site} {e : DecodeError}
    (hs : s.offence? = none) (hparts : s.parts = before ++ part :: behind)
    (hbefore : ∀ x ∈ before, x.Clean) (hpart : part.FirstOffence e) : s.FirstOffence e := by
  obtain ⟨position, site, hsite, he, hearlier⟩ := hpart
  refine ⟨before.length :: position, site, by rw [at?, hparts]; simpa using hsite, he, ?_⟩
  rintro (_ | ⟨i, earlier⟩) hlt other hother
  · cases hother; exact hs
  · obtain ⟨x, hx, hother⟩ := Option.bind_eq_some_iff.1 hother
    rw [hparts] at hx
    rcases List.cons_lt_cons_iff.1 hlt with hi | ⟨rfl, hlt'⟩
    · rw [List.getElem?_append_left hi] at hx
      exact hbefore x (List.mem_of_getElem? hx) earlier other hother
    · obtain rfl : part = x := by simpa using hx
      exact hearlier earlier hlt' other hother

/-- There is one first offence. -/
theorem FirstOffence.unique {s : Site} {e e' : DecodeError} (h : s.FirstOffence e)
    (h' : s.FirstOffence e') : e = e' := by
  obtain ⟨position, site, hsite, he, hearlier⟩ := h
  obtain ⟨position', site', hsite', he', hearlier'⟩ := h'
  rcases lt_trichotomy position position' with hlt | rfl | hlt
  · rw [hearlier' position hlt site hsite] at he; cases he
  · rw [hsite] at hsite'; cases hsite'
    rw [he] at he'; exact Option.some.inj he'
  · rw [hearlier position' hlt site' hsite'] at he'; cases he'

theorem FirstOffence.not_clean {s : Site} {e : DecodeError} (h : s.FirstOffence e) : ¬ s.Clean := by
  obtain ⟨position, site, hsite, he, -⟩ := h
  intro hclean
  rw [hclean position site hsite] at he; cases he

/-! ## The grammar -/

section Payload

variable {members : Members} {type : String} {payload : Payload}

theorem termOffence?_eq (htype : members.get? "type" = some (.text type))
    (hpayload : Payload.ofType? type = some payload) :
    termOffence? members = payload.offence? type members := by
  unfold termOffence?
  rw [htype]
  dsimp only
  rw [hpayload]

theorem termsOfTerm_eq (htype : members.get? "type" = some (.text type))
    (hpayload : Payload.ofType? type = some payload) :
    termsOfTerm members = payload.items members := by
  unfold termsOfTerm
  rw [htype]
  dsimp only
  rw [hpayload]
  rfl

theorem clean_term_iff (htype : members.get? "type" = some (.text type))
    (hpayload : Payload.ofType? type = some payload) : Clean ⟨.term, .object members⟩ ↔
      payload.offence? type members = none ∧ ∀ d ∈ payload.items members, Clean ⟨.term, d⟩ := by
  rw [← termOffence?_eq htype hpayload, ← termsOfTerm_eq htype hpayload]
  exact clean_of_parts rfl

/-- A term that does not offend has one of the known types. -/
theorem exists_payload (h : termOffence? members = none) : ∃ type payload,
    members.get? "type" = some (.text type) ∧ Payload.ofType? type = some payload := by
  unfold termOffence? at h
  split at h
  · cases h
  · next type htype =>
    split at h
    · cases h
    · next payload hpayload => exact ⟨type, payload, htype, hpayload⟩
  · cases h

theorem mem_of_mem_items {d : Document} (h : d ∈ payload.items members) :
    ∃ items, ("value", .array items) ∈ members ∧ d ∈ items := by
  unfold Payload.items at h
  split at h
  · split at h
    · next items hvalue => exact ⟨items, Members.mem_of_get? hvalue, h⟩
    · cases h
  · cases h

/-- A term whose value does not offend is in the grammar if the terms within it are. -/
theorem isTerm_of_items (htype : members.get? "type" = some (.text type))
    (hpayload : Payload.ofType? type = some payload) (hvalue : payload.offence? type members = none)
    (hitems : ∀ d ∈ payload.items members, IsTerm d) : IsTerm (.object members) := by
  unfold Payload.ofType? at hpayload
  split_ifs at hpayload with hpath hcollection htext hbool hnumber hnull <;> cases hpayload <;>
    unfold Payload.offence? at hvalue <;> unfold Payload.items at hitems <;>
    dsimp only at hvalue hitems
  · split at hvalue
    · next items hv => rw [hv] at hitems; exact .path hpath htype hv (by simpa using hvalue) hitems
    · cases hvalue
  · split at hvalue
    · next items hv => rw [hv] at hitems; exact .collection hcollection htype hv hitems
    · cases hvalue
  · split at hvalue
    · next value hv => exact .text htext htype hv
    · cases hvalue
  · split at hvalue
    · next value hv => exact .bool (hbool ▸ htype) hv
    · cases hvalue
  · split at hvalue
    · next n hv => exact .number (hnumber ▸ htype) hv (by simpa using hvalue)
    · cases hvalue
  · exact .null (hnull ▸ htype)

end Payload

theorem clean_of_isTerm {d : Document} (h : IsTerm d) : Clean ⟨.term, d⟩ := by
  induction h with
  | path htypes htype hvalue hne _ ih =>
    refine (clean_term_iff htype (if_pos htypes)).2 ⟨?_, ?_⟩
    · simp [Payload.offence?, hvalue, hne]
    · simpa [Payload.items, hvalue] using ih
  | @collection _ type _ htypes htype hvalue _ ih =>
    have hpayload : Payload.ofType? type = some (.terms false) := by
      rcases htypes with rfl | rfl <;> rfl
    refine (clean_term_iff htype hpayload).2 ⟨?_, ?_⟩
    · simp [Payload.offence?, hvalue]
    · simpa [Payload.items, hvalue] using ih
  | @text _ type _ htypes htype hvalue =>
    have hpayload : Payload.ofType? type = some .text := by rcases htypes with rfl | rfl <;> rfl
    refine (clean_term_iff htype hpayload).2 ⟨?_, nofun⟩
    simp [Payload.offence?, hvalue]
  | bool htype hvalue =>
    have hpayload : Payload.ofType? "boolean" = some .bool := rfl
    refine (clean_term_iff htype hpayload).2 ⟨?_, nofun⟩
    simp [Payload.offence?, hvalue]
  | number htype hvalue hfits =>
    have hpayload : Payload.ofType? "number" = some .number := rfl
    refine (clean_term_iff htype hpayload).2 ⟨?_, nofun⟩
    simp [Payload.offence?, hvalue, hfits]
  | null htype =>
    have hpayload : Payload.ofType? "null" = some .nothing := rfl
    exact (clean_term_iff htype hpayload).2 ⟨rfl, nofun⟩

theorem isTerm_of_clean {d : Document} (h : Clean ⟨.term, d⟩) : IsTerm d := by
  induction d using Document.induct_items with
  | object members ih =>
    obtain ⟨type, payload, htype, hpayload⟩ := exists_payload (clean_iff.1 h).1
    obtain ⟨hvalue, hitems⟩ := (clean_term_iff htype hpayload).1 h
    refine isTerm_of_items htype hpayload hvalue fun t ht => ?_
    obtain ⟨items, hmem, hitem⟩ := mem_of_mem_items ht
    exact ih _ items hmem t hitem (hitems t ht)
  | other d hd =>
    cases d with
    | object members => exact absurd rfl (hd members)
    | _ => nomatch (clean_iff.1 h).1

theorem isTerm_iff_clean {d : Document} : IsTerm d ↔ Clean ⟨.term, d⟩ :=
  ⟨clean_of_isTerm, isTerm_of_clean⟩

theorem isIndex_iff {members : Members} : IsIndex members ↔ indexOffence? members = none := by
  rcases h : members.get? "index" with _ | (_ | _ | n | _ | _ | _) <;>
    simp [IsIndex, indexOffence?, h, Numeral.isWord_iff_text]

theorem clean_expression_iff {members : Members} : Clean ⟨.expression, .object members⟩ ↔
    IsIndex members ∧ termsOffence? members = none ∧ ∀ t ∈ termsOfExpression members, IsTerm t := by
  have hclean : Clean ⟨.expression, .object members⟩ ↔
      (indexOffence? members).or (termsOffence? members) = none ∧
        ∀ t ∈ termsOfExpression members, Clean ⟨.term, t⟩ := clean_of_parts rfl
  rw [hclean, Option.or_eq_none_iff, ← isIndex_iff, and_assoc]
  simp only [isTerm_iff_clean]

theorem isExpression_iff_clean {d : Document} : IsExpression d ↔ Clean ⟨.expression, d⟩ := by
  rcases d with _ | _ | _ | _ | _ | members
  case object =>
    rw [clean_expression_iff]
    rcases h : Members.get? members "terms" with _ | (_ | _ | _ | _ | items | term) <;>
      simp [IsExpression, termsOffence?, termsOfExpression, h]
  all_goals exact ⟨nofun, fun h => (nomatch (clean_iff.1 h).1)⟩

theorem isQuery_iff_clean {d : Document} : IsQuery d ↔ Clean ⟨.query, d⟩ := by
  rcases d with _ | _ | _ | _ | items | _
  case array =>
    rw [clean_of_parts rfl]
    simp [IsQuery, offence?, isExpression_iff_clean]
  all_goals exact ⟨nofun, fun h => (nomatch (clean_iff.1 h).1)⟩

theorem isQuerySet_iff_clean {d : Document} : IsQuerySet d ↔ Clean ⟨.querySet, d⟩ := by
  rcases d with _ | _ | _ | _ | items | _
  case array =>
    rw [clean_of_parts rfl]
    simp [IsQuerySet, offence?, isQuery_iff_clean]
  all_goals exact ⟨nofun, fun h => (nomatch (clean_iff.1 h).1)⟩

end Site
end PolicyClient
