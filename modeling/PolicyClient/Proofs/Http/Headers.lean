/-
Headers that are set one after the other. Whatever the order, they come to the last content type,
the last accepted types, and all headers of the caller's own in their order
(`ofSettings_eq_after`). None of the latter is a content type, so there is never a second one on
the wire (`filter_pairs`).
-/
import Mathlib.Data.List.Basic
import PolicyClient.Http.Headers
import PolicyClient.Proofs.Fallible
import PolicyClient.Proofs.MediaType.RoundTrip

namespace PolicyClient.RequestHeaders

/-- A way to set something in the headers. -/
inductive Setting
  | contentType (mediaType : MediaType)
  | accept (mediaTypes : List MediaType)
  | header (name value : String)

namespace Setting

/-- The content type that is set, by itself or as a header. -/
def contentType? : Setting → Option MediaType
  | .contentType mediaType => some mediaType
  | .accept _ => none
  | .header name value =>
    if Text.sameName name "Content-Type" then (MediaType.parse value).toOption else none

/-- The accepted types that are set. -/
def accept? : Setting → Option (List MediaType)
  | .accept mediaTypes => some mediaTypes
  | _ => none

/-- The header of the caller's own that is set. -/
def own? : Setting → Option Header
  | .header name value => if Text.sameName name "Content-Type" then none else some (name, value)
  | _ => none

/-- A content type that is given as it is has been built as one. -/
def Built : Setting → Prop
  | .contentType mediaType => mediaType.Built
  | _ => True

end Setting

/-! ## Settings -/

/-- The headers after a setting. -/
def set (h : RequestHeaders) : Setting → Except MediaTypeError RequestHeaders
  | .contentType contentType => .ok { h with contentType }
  | .accept accept => .ok { h with accept }
  | .header name value => h.withHeader name value

/-- The headers that settings make of the default. -/
def ofSettings (settings : List Setting) : Except MediaTypeError RequestHeaders :=
  settings.foldlM set {}

/-- The content type that settings come to: JSON unless they set another. -/
def contentTypeAfter (settings : List Setting) : MediaType :=
  (settings.filterMap Setting.contentType?).getLast?.getD .applicationJson

/-- The accepted types that settings come to: JSON unless they set others. -/
def acceptAfter (settings : List Setting) : List MediaType :=
  (settings.filterMap Setting.accept?).getLast?.getD [.applicationJson]

/-- The headers that settings come to. -/
def after (settings : List Setting) : RequestHeaders :=
  ⟨contentTypeAfter settings, acceptAfter settings, settings.filterMap Setting.own?⟩

theorem filterMap_concat {α β : Type} (f : α → Option β) (as : List α) (a : α) :
    (as ++ [a]).filterMap f = as.filterMap f ++ (f a).toList := by
  rw [List.filterMap_append]
  cases h : f a <;> simp [h]

theorem getLast?_append_toList {α : Type} (as : List α) (a : Option α) :
    (as ++ a.toList).getLast? = a.or as.getLast? := by
  rw [List.getLast?_append]
  cases a <;> rfl

/-- A header is either read as the content type or added to the caller's own. -/
theorem withHeader_eq_ok {h h' : RequestHeaders} {name value : String}
    (hset : h.withHeader name value = .ok h') :
    (Text.sameName name "Content-Type" = true ∧
      ∃ contentType, MediaType.parse value = .ok contentType ∧ h' = { h with contentType }) ∨
    (Text.sameName name "Content-Type" = false ∧
      h' = { h with extra := h.extra ++ [(name, value)] }) := by
  unfold withHeader at hset
  split_ifs at hset with hname
  · obtain ⟨contentType, hparse, rfl⟩ := Fallible.map_eq_ok.1 hset
    exact .inl ⟨hname, contentType, hparse, rfl⟩
  · cases hset
    exact .inr ⟨by simpa using hname, rfl⟩

/-- The last setting of a kind counts. -/
theorem set_after {settings : List Setting} {setting : Setting} {h : RequestHeaders}
    (hset : (after settings).set setting = .ok h) : h = after (settings ++ [setting]) := by
  unfold after contentTypeAfter acceptAfter
  rw [filterMap_concat, filterMap_concat, filterMap_concat, getLast?_append_toList,
    getLast?_append_toList]
  cases setting with
  | contentType mediaType =>
    cases hset
    simp [after, acceptAfter, Setting.contentType?, Setting.accept?, Setting.own?]
  | accept mediaTypes =>
    cases hset
    simp [after, contentTypeAfter, Setting.contentType?, Setting.accept?, Setting.own?]
  | header name value =>
    obtain ⟨hname, mediaType, hparse, rfl⟩ | ⟨hname, rfl⟩ := withHeader_eq_ok hset
    · simp [after, acceptAfter, Setting.contentType?, Setting.accept?, Setting.own?, hname, hparse,
        Except.toOption]
    · simp [after, contentTypeAfter, acceptAfter, Setting.contentType?, Setting.accept?,
        Setting.own?, hname]

theorem ofSettings_eq_after {settings : List Setting} {h : RequestHeaders}
    (hset : ofSettings settings = .ok h) : h = after settings := by
  unfold ofSettings at hset
  -- the default headers are those of no settings, and each setting adds itself
  induction settings using List.reverseRecOn generalizing h with
  | nil => cases hset; rfl
  | append_singleton settings setting ih =>
    rw [List.foldlM_append] at hset
    obtain ⟨front, hfront, hlast⟩ := Fallible.bind_eq_ok.1 hset
    rw [ih hfront, List.foldlM_cons] at hlast
    obtain ⟨_, hlast, hh⟩ := Fallible.bind_eq_ok.1 hlast
    cases hh
    exact set_after hlast

/-- The content type that settings come to is one that can be read back. -/
theorem built_contentTypeAfter {settings : List Setting} (h : ∀ s ∈ settings, s.Built) :
    (contentTypeAfter settings).Built := by
  unfold contentTypeAfter
  cases hlast : (settings.filterMap Setting.contentType?).getLast? with
  | none => exact .parsed (by decide +kernel : MediaType.parse "application/json" = _)
  | some mediaType =>
    obtain ⟨setting, hmem, hsetting⟩ := List.mem_filterMap.1 (List.mem_of_getLast? hlast)
    cases setting with
    | contentType given =>
      cases hsetting
      exact h _ hmem
    | accept mediaTypes => cases hsetting
    | header name value =>
      dsimp only [Setting.contentType?] at hsetting
      split_ifs at hsetting
      cases hparse : MediaType.parse value with
      | error e => rw [hparse] at hsetting; cases hsetting
      | ok parsed =>
        rw [hparse] at hsetting
        cases hsetting
        exact .parsed hparse

/-! ## Pairs on the wire -/

/-- No header of the caller's own is a content type. -/
theorem own_ne_contentType {settings : List Setting} :
    ∀ e ∈ settings.filterMap Setting.own?, Text.sameName e.1 "Content-Type" = false := by
  intro e he
  obtain ⟨setting, -, hsetting⟩ := List.mem_filterMap.1 he
  cases setting with
  | header name value =>
    dsimp only [Setting.own?] at hsetting
    split_ifs at hsetting with hname
    cases hsetting
    simpa using hname
  | _ => cases hsetting

/-- A body has its content type in front, and the accepted types come before the caller's own
headers unless there are none or the caller has such a header. -/
theorem pairs_after (settings : List Setting) (withBody : Bool) :
    let accepted := acceptAfter settings
    let own := settings.filterMap Setting.own?
    (after settings).pairs withBody =
      (if withBody then [("Content-Type", (contentTypeAfter settings).render)] else []) ++
        (if accepted ≠ [] ∧ ∀ e ∈ own, Text.sameName e.1 "Accept" = false then
          [("Accept", MediaType.renderList accepted)] else []) ++ own := by
  intro accepted own
  have hgives : ¬ (accepted.isEmpty || (after settings).overrides "Accept") = true ↔
      accepted ≠ [] ∧ ∀ e ∈ own, Text.sameName e.1 "Accept" = false := by
    rw [Bool.or_eq_true, not_or, List.isEmpty_iff]
    refine and_congr_right fun _ => ?_
    change ¬ (own.any fun e => Text.sameName e.1 "Accept") = true ↔ _
    rw [List.any_eq_true]
    push Not
    simp only [ne_eq, Bool.not_eq_true]
  unfold pairs
  rw [← if_congr hgives rfl rfl, ite_not]
  rfl

/-- The only content type on the wire is that of the body. -/
theorem filter_pairs (settings : List Setting) (withBody : Bool) :
    ((after settings).pairs withBody).filter (Text.sameName ·.1 "Content-Type") =
      if withBody then [("Content-Type", (contentTypeAfter settings).render)] else [] := by
  have haccept : Text.sameName "Accept" "Content-Type" = false := by decide +kernel
  have hown : (settings.filterMap Setting.own?).filter (Text.sameName ·.1 "Content-Type") = [] := by
    simpa [List.filter_eq_nil_iff] using own_ne_contentType
  rw [pairs_after, List.filter_append, List.filter_append, hown, List.append_nil]
  split_ifs <;> simp [haccept, Text.sameName_refl]

end PolicyClient.RequestHeaders
