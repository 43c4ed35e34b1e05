/-
Media types are read back from a list in a header. Every written media type ends outside quotes and has
no comma outside them, whatever its parameter values, so the commas that the list is cut at are those
between its items; the space behind a comma is trimmed with the type that follows it.
-/
import PolicyClient.Proofs.MediaType.RoundTrip

namespace PolicyClient.MediaType

variable {m : MediaType} {ms : List MediaType}

/-! ## Items -/

/-- No comma stands outside quotes in a written media type. -/
theorem behind?_render (hm : m.WellFormed) :
    Text.Quoted.behind? ',' .outside m.render.toList = some .outside := by
  have hfront : Text.Quoted.behind? ',' .outside m.fullType = some .outside := by
    unfold fullType
    rw [Text.Quoted.behind?_append, behind?_token hm.type_token (by simp)]
    exact behind?_token hm.subtype_token (by simp)
  have hsegments : ∀ parameters : List (String × String),
      (∀ p ∈ parameters, ValidParameter p.1 p.2) →
      Text.Quoted.behind? ',' .outside (segments parameters) = some .outside := by
    intro parameters
    induction parameters with
    | nil => intro _; rfl
    | cons p parameters ih =>
      intro h
      obtain ⟨hp, hparameters⟩ := List.forall_mem_cons.1 h
      rw [segments, List.flatMap_cons, Text.Quoted.behind?_append]
      show ((Text.Quoted.behind? ',' .outside (segment p)).bind _) = _
      rw [behind?_segment hp (by simp)]
      exact ih hparameters
  rw [toList_render, Text.Quoted.behind?_append, hfront]
  exact hsegments m.parameters hm.valid

/-- An item behind the first, with the space that follows the comma. -/
def spaced (m : MediaType) : List Char :=
  ' ' :: m.render.toList

theorem toList_renderList_cons (m : MediaType) (ms : List MediaType) :
    (renderList (m :: ms)).toList = m.render.toList ++ (ms.map spaced).flatMap (',' :: ·) := by
  unfold renderList
  rw [String.toList_intercalate, List.map_map, List.map_cons]
  induction ms generalizing m with
  | nil => simp
  | cons next ms ih =>
    rw [List.map_cons, List.intercalate_cons_cons]
    simp only [Function.comp_apply] at ih ⊢
    rw [ih next]
    simp [spaced]

/-- A list is cut into its items again. -/
theorem split_renderList (h : ∀ n ∈ m :: ms, n.WellFormed) :
    Text.Quoted.split ',' (renderList (m :: ms)).toList = m.render.toList :: ms.map spaced := by
  obtain ⟨hm, hms⟩ := List.forall_mem_cons.1 h
  rw [toList_renderList_cons]
  refine Text.Quoted.split_parts (by decide) (List.forall_mem_cons.2 ⟨behind?_render hm, ?_⟩)
  rw [List.forall_mem_map]
  exact fun n hn => behind?_render (hms n hn)

/-! ## Reading the items -/

theorem trim_spaced (hm : m.WellFormed) : Text.trim (' ' :: m.fullType) = m.fullType := by
  show Text.trim m.fullType = m.fullType
  exact Text.trim_of_no_blank (isBlank_of_mem_fullType hm)

/-- An item is read as its media type. -/
theorem parse_spaced (hm : m.WellFormed) : parse (String.ofList m.spaced) = .ok m := by
  have hfront : ';' ∉ ' ' :: m.fullType := by simpa using not_mem_fullType hm
  refine parse_of_front hm hfront (trim_spaced hm) ?_
  rw [String.toList_ofList, spaced, toList_render, List.cons_append]

/-- An item is not blank: there is the slash behind its type. -/
theorem trim_ne_nil {item : List Char} (h : m.render.toList ⊆ item) : Text.trim item ≠ [] := by
  have hslash : '/' ∈ m.render.toList := by simp [toList_render, fullType]
  exact List.ne_nil_of_mem ((Text.mem_trim rfl).2 (h hslash))

theorem parseList_renderList (h : ∀ m ∈ ms, m.WellFormed) : parseList (renderList ms) = .ok ms := by
  cases ms with
  | nil => rfl
  | cons m ms =>
    obtain ⟨hm, hms⟩ := List.forall_mem_cons.1 h
    have hblank : ∀ item ∈ m.render.toList :: ms.map spaced, Text.trim item ≠ [] := by
      rw [List.forall_mem_cons, List.forall_mem_map]
      exact ⟨trim_ne_nil (List.Subset.refl _), fun n _ => trim_ne_nil (List.subset_cons_self _ _)⟩
    unfold parseList
    rw [split_renderList h, List.filter_eq_self.2 (by simpa using hblank), Fallible.mapM_eq_ok_iff,
      List.forall₂_cons, String.ofList_toList, List.forall₂_map_left_iff, List.forall₂_same]
    exact ⟨parse_render hm, fun n hn => parse_spaced (hms n hn)⟩

/-- A list of media types is read back from its text, each item whole and in its place. -/
theorem parseList_renderList_of_built (h : ∀ m ∈ ms, m.Built) : parseList (renderList ms) = .ok ms :=
  parseList_renderList fun m hm => (h m hm).wellFormed

/-- Two media types, the first of which has a value with a comma, a quote and a semicolon. -/
theorem parseList_renderList_comma_title :
    ∃ first second, ofParts "text" "plain" [("title", "a, \"b;")] = .ok first ∧
      parse "application/json; q=0.5" = .ok second ∧
      renderList [first, second] = "text/plain;title=\"a, \\\"b;\", application/json;q=0.5" ∧
      parseList (renderList [first, second]) = .ok [first, second] := by
  have hfirst : ofParts "text" "plain" [("title", "a, \"b;")] =
      .ok ⟨"text", "plain", [("title", "a, \"b;")], none⟩ := by decide +kernel
  have hsecond : parse "application/json; q=0.5" =
      .ok ⟨"application", "json", [("q", "0.5")], none⟩ := by decide +kernel
  refine ⟨_, _, hfirst, hsecond, by decide +kernel, parseList_renderList_of_built ?_⟩
  rw [List.forall_mem_cons, List.forall_mem_singleton]
  exact ⟨.assembled hfirst, .parsed hsecond⟩

end PolicyClient.MediaType
