/-
Trees are read strictly. What reading a document gives tells about its sites (`Site.Tells`): a tree
is read only if no site offends, and an error is the offence of the first site that does. Levels are
treated from the term upwards; the documents of one list are read one by one (`tells_mapM`).
-/
import PolicyClient.Proofs.Query.Site
import PolicyClient.Proofs.Term.RoundTrip

namespace PolicyClient

open Fallible

variable {α β : Type}

namespace Site

/-- A site offends first with the error of a result, and no site offends if there is none. -/
def Tells (s : Site) : Except DecodeError α → Prop
  | .ok _ => s.Clean
  | .error e => s.FirstOffence e

variable {s : Site} {x : Except DecodeError α}

theorem tells_map {f : α → β} : s.Tells (x.map f) ↔ s.Tells x := by
  cases x <;> rfl

theorem Tells.exists_ok_iff (h : s.Tells x) : (∃ a, x = .ok a) ↔ s.Clean := by
  cases x with
  | ok a => exact ⟨fun _ => h, fun _ => ⟨a, rfl⟩⟩
  | error e => exact ⟨nofun, fun hclean => absurd hclean (FirstOffence.not_clean h)⟩

theorem Tells.eq_error_iff (h : s.Tells x) {e : DecodeError} : x = .error e ↔ s.FirstOffence e := by
  cases x with
  | ok a => exact ⟨nofun, fun hfirst => absurd h hfirst.not_clean⟩
  | error e' => exact ⟨fun he => Except.error.inj he ▸ h, fun hfirst => by rw [h.unique hfirst]⟩

theorem tells_of_no_parts (hparts : s.parts = []) (h : s.offence? = error? x) : s.Tells x := by
  cases x with
  | ok a => exact clean_iff.2 ⟨h, by simp [hparts]⟩
  | error e => exact firstOffence_self h

theorem tells_mapM {decode : Document → Except DecodeError α} {level : Level}
    {docs : List Document} (hs : s.offence? = none) (hparts : s.parts = docs.map (mk level))
    (h : ∀ d ∈ docs, Tells ⟨level, d⟩ (decode d)) : s.Tells (docs.mapM decode) := by
  have hok : ∀ d ∈ docs, ∀ a, decode d = .ok a → Clean ⟨level, d⟩ := by
    intro d hd a ha
    have := h d hd
    rwa [ha] at this
  cases hr : docs.mapM decode with
  | ok as =>
    refine (clean_of_parts hparts).2 ⟨hs, fun d hd => ?_⟩
    obtain ⟨a, ha⟩ := exists_ok_of_mapM hr hd
    exact hok d hd a ha
  | error e =>
    obtain ⟨before, d, behind, rfl, hbefore, hd⟩ := mapM_eq_error hr
    have hfirst := h d (by simp)
    rw [hd] at hfirst
    refine firstOffence_of_part hs (by rw [hparts, List.map_append, List.map_cons]) ?_ hfirst
    rw [List.forall_mem_map]
    intro x hx
    obtain ⟨a, ha⟩ := hbefore x hx
    exact hok x (by simp [hx]) a ha

end Site

/-! ## Terms -/

namespace Term

open Site

theorem termsValue_eq (type : String) (members : Members) :
    termsValue type members = match members.get? "value" with
      | some (.array items) => items.mapM ofDocument
      | _ => .error (.badValue type "an array" (valueKind members)) := by
  induction members with
  | nil => rfl
  | cons member members ih =>
    obtain ⟨key, value⟩ := member
    rw [termsValue.eq_def]
    by_cases hkey : key = "value"
    · cases value <;> simp [hkey, Members.get?, valueKind, ofDocuments_eq_mapM]
    · simp [hkey, Members.get?, valueKind, ih]

variable {members : Members} {type : String}

theorem error?_textValue :
    error? (textValue type members) = Payload.text.offence? type members := by
  rcases h : members.get? "value" with _ | (_ | _ | _ | _ | _ | _) <;>
    simp [textValue, Payload.offence?, h]

theorem error?_boolValue :
    error? (boolValue members) = Payload.bool.offence? "boolean" members := by
  rcases h : members.get? "value" with _ | (_ | _ | _ | _ | _ | _) <;>
    simp [boolValue, Payload.offence?, h]

theorem error?_numberValue :
    error? (numberValue members) = Payload.number.offence? "number" members := by
  rcases h : members.get? "value" with _ | (_ | _ | n | _ | _ | _)
  case some.number =>
    have hfits := n.exists_decimal_iff
    cases hd : n.decimal? <;> simp_all [numberValue, Payload.offence?]
  all_goals simp [numberValue, Payload.offence?, h]

theorem tells_headed {s : Site} {build : Term → List Term → Term} {d : Document}
    {ds : List Document} (h : s.Tells ((d :: ds).mapM ofDocument)) :
    s.Tells ((d :: ds).mapM ofDocument >>= headed type build) := by
  cases hr : (d :: ds).mapM ofDocument with
  | error e => rwa [hr] at h
  | ok ts =>
    obtain ⟨t, ts, -, -, rfl⟩ := List.forall₂_cons_left_iff.1 (mapM_eq_ok_iff.1 hr)
    rwa [hr] at h

section

variable {x : Except DecodeError α} {payload : Payload}
  (htype : members.get? "type" = some (.text type))
include htype

theorem firstOffence_of_value {e : DecodeError} (hpayload : Payload.ofType? type = some payload)
    (h : payload.offence? type members = some e) : FirstOffence ⟨.term, .object members⟩ e :=
  firstOffence_self ((termOffence?_eq htype hpayload).trans h)

theorem tells_value (hpayload : Payload.ofType? type = some payload)
    (hitems : payload.items members = []) (h : error? x = payload.offence? type members) :
    Tells ⟨.term, .object members⟩ x := by
  refine tells_of_no_parts ?_ ?_
  · show (termsOfTerm members).map (Site.mk .term) = []
    rw [termsOfTerm_eq htype hpayload, hitems, List.map_nil]
  · exact (termOffence?_eq htype hpayload).trans h.symm

theorem tells_items {headed : Bool} (hpayload : Payload.ofType? type = some (.terms headed))
    {items : List Document} (hvalue : members.get? "value" = some (.array items))
    (hitems : headed = true → items ≠ [])
    (hread : ∀ d ∈ items, Tells ⟨.term, d⟩ (ofDocument d)) :
    Tells ⟨.term, .object members⟩ (items.mapM ofDocument) := by
  refine tells_mapM ?_ ?_ hread
  · exact (termOffence?_eq htype hpayload).trans (by simpa [Payload.offence?, hvalue] using hitems)
  · show (termsOfTerm members).map (Site.mk .term) = _
    rw [termsOfTerm_eq htype hpayload]
    simp [Payload.items, hvalue]

theorem tells_collection (hpayload : Payload.ofType? type = some (.terms false))
    (hread : ∀ items, members.get? "value" = some (.array items) →
      ∀ d ∈ items, Tells ⟨.term, d⟩ (ofDocument d)) :
    Tells ⟨.term, .object members⟩ (termsValue type members) := by
  rw [termsValue_eq]
  split
  · next items hvalue => exact tells_items htype hpayload hvalue nofun (hread items hvalue)
  · exact firstOffence_of_value htype hpayload (by simp [Payload.offence?])

theorem tells_path {build : Term → List Term → Term}
    (hpayload : Payload.ofType? type = some (.terms true))
    (hread : ∀ items, members.get? "value" = some (.array items) →
      ∀ d ∈ items, Tells ⟨.term, d⟩ (ofDocument d)) :
    Tells ⟨.term, .object members⟩ (termsValue type members >>= headed type build) := by
  rw [termsValue_eq]
  split
  · next items hvalue =>
    cases items with
    | nil => exact firstOffence_of_value htype hpayload (by simp [Payload.offence?, hvalue])
    | cons d ds =>
      exact tells_headed (tells_items htype hpayload hvalue (by simp) (hread _ hvalue))
  · exact firstOffence_of_value htype hpayload (by simp [Payload.offence?])

end

theorem tells_ofDocument (d : Document) : Tells ⟨.term, d⟩ (ofDocument d) := by
  induction d using Document.induct_items with
  | other d hd =>
    cases d with
    | object members => exact absurd rfl (hd members)
    | _ => exact firstOffence_self rfl
  | object members ih =>
    have hread : ∀ items, Members.get? members "value" = some (.array items) →
        ∀ d ∈ items, Tells ⟨.term, d⟩ (ofDocument d) := fun items hvalue =>
      ih _ items (Members.mem_of_get? hvalue)
    rw [ofDocument]
    split
    · next htype => exact firstOffence_self (by simp [offence?, termOffence?, htype])
    · next type htype =>
      split_ifs with href hcall hvar hnumber htext hbool hnull harray hset
      · subst href; exact tells_path htype rfl hread
      · subst hcall; exact tells_path htype rfl hread
      · subst hvar; exact tells_map.2 (tells_value htype rfl rfl error?_textValue)
      · subst hnumber; exact tells_map.2 (tells_value htype rfl rfl error?_numberValue)
      · subst htext; exact tells_map.2 (tells_value htype rfl rfl error?_textValue)
      · subst hbool; exact tells_map.2 (tells_value htype rfl rfl error?_boolValue)
      · subst hnull; exact tells_value htype rfl rfl rfl
      · subst harray; exact tells_map.2 (tells_collection htype rfl hread)
      · subst hset; exact tells_map.2 (tells_collection htype rfl hread)
      · have hunknown : Payload.ofType? type = none := by simp [Payload.ofType?, *]
        exact firstOffence_self (by simp [offence?, termOffence?, htype, hunknown])
    · next htype => exact firstOffence_self (by simp [offence?, termOffence?, htype])

end Term

/-! ## Expressions, queries and query sets -/

open Site

namespace Expression

variable {members : Members}

theorem error?_indexOf : error? (indexOf members) = indexOffence? members := by
  rcases h : members.get? "index" with _ | (_ | _ | n | _ | _ | _)
  case some.number =>
    have hword := n.exists_word_iff
    cases hw : n.word? <;> simp_all [indexOf, indexOffence?]
  all_goals simp [indexOf, indexOffence?, h]

theorem termsOf_eq : termsOf members = match termsOffence? members with
    | none => (termsOfExpression members).mapM Term.ofDocument
    | some e => .error e := by
  rcases h : members.get? "terms" with _ | (_ | _ | _ | _ | items | term)
  case some.object =>
    simp [termsOf, termsOffence?, termsOfExpression, h]
    rfl
  all_goals simp [termsOf, termsOffence?, termsOfExpression, h, Term.ofDocuments_eq_mapM]

theorem tells_termsOf (hindex : indexOffence? members = none) :
    Tells ⟨.expression, .object members⟩ (termsOf members) := by
  have hoffence : offence? ⟨.expression, .object members⟩ = termsOffence? members := by
    show (indexOffence? members).or _ = _
    rw [hindex, Option.none_or]
  rw [termsOf_eq]
  split
  · next h => exact tells_mapM (hoffence.trans h) rfl fun d _ => Term.tells_ofDocument d
  · next e h => exact firstOffence_self (hoffence.trans h)

theorem tells_ofDocument (d : Document) : Tells ⟨.expression, d⟩ (ofDocument d) := by
  cases d with
  | object members =>
    rw [ofDocument]
    have hindex : indexOffence? members = error? (indexOf members) := error?_indexOf.symm
    cases hi : indexOf members with
    | ok index =>
      rw [hi] at hindex
      exact tells_map.2 (tells_termsOf hindex)
    | error e =>
      rw [hi] at hindex
      refine firstOffence_self ?_
      show (indexOffence? members).or _ = _
      rw [hindex]; rfl
  | _ => exact firstOffence_self rfl

end Expression

theorem Query.tells_ofDocument (d : Document) : Tells ⟨.query, d⟩ (Query.ofDocument d) := by
  cases d with
  | array items =>
    exact tells_map.2 (tells_mapM rfl rfl fun d _ => Expression.tells_ofDocument d)
  | _ => exact firstOffence_self rfl

theorem QuerySet.tells_ofDocument (d : Document) : Tells ⟨.querySet, d⟩ (QuerySet.ofDocument d) := by
  cases d with
  | array items =>
    exact tells_map.2 (tells_mapM rfl rfl fun d _ => Query.tells_ofDocument d)
  | _ => exact firstOffence_self rfl

/-- A query set is read exactly from the documents of the grammar, an error is the first offence of
the document, and no site of a document that is read offends. -/
theorem QuerySet.ofDocument_strict (d : Document) :
    ((∃ s, QuerySet.ofDocument d = .ok s) ↔ IsQuerySet d) ∧
      (∀ e, QuerySet.ofDocument d = .error e ↔ FirstOffence ⟨.querySet, d⟩ e) ∧
      (IsQuerySet d ↔ Clean ⟨.querySet, d⟩) := by
  have htells := QuerySet.tells_ofDocument d
  refine ⟨?_, fun e => htells.eq_error_iff, isQuerySet_iff_clean⟩
  rw [htells.exists_ok_iff, isQuerySet_iff_clean]

/-- The index offends before the missing terms, and all of that before the second query. -/
example : QuerySet.ofDocument (.array [.array [.object [("index", .bool true)]], .null]) =
    .error (.indexNotNumber "boolean") :=
  rfl

end PolicyClient
