/-
What the steps of a draft come to. A spoiled draft stays so: whether one is spoiled does not depend
on the order of its steps (`applyAll_spoiled_iff`). A draft that is not spoiled has the headers of
the settings that are still in effect, and the last body (`applyAll_parts`).
-/
import PolicyClient.Http.Draft
import PolicyClient.Proofs.Http.Headers

namespace PolicyClient.Draft

/-- A step sets a content type that is no media type. -/
def Step.Spoils : Step → Prop
  | .header name value =>
    Text.sameName name "Content-Type" = true ∧ ∃ e, MediaType.parse value = .error e
  | _ => False

/-! ## Spoiled drafts -/

/-- A header step either sets the headers or spoils the draft, and nothing else. -/
theorem apply_header (d : Draft) (name value : String) :
    (∃ headers, d.headers.withHeader name value = .ok headers ∧
      d.apply (.header name value) = { d with headers }) ∨
    (∃ e, d.headers.withHeader name value = .error e ∧
      d.apply (.header name value) = { d with spoiled := some e }) := by
  cases h : d.headers.withHeader name value with
  | ok headers =>
    refine .inl ⟨headers, rfl, ?_⟩
    simp only [apply, h]
  | error e =>
    refine .inr ⟨e, rfl, ?_⟩
    simp only [apply, h]

theorem withHeader_fails_iff {h : RequestHeaders} {name value : String} :
    (∃ e, h.withHeader name value = .error e) ↔ (Step.header name value).Spoils := by
  unfold RequestHeaders.withHeader Step.Spoils
  by_cases hname : Text.sameName name "Content-Type" = true
  · rw [if_pos hname]
    cases hparse : MediaType.parse value <;> simp [hname, hparse, Except.map]
  · rw [if_neg hname]
    simp [hname]

theorem apply_spoiled_iff {d : Draft} {step : Step} :
    (d.apply step).spoiled.isSome = true ↔ d.spoiled.isSome = true ∨ step.Spoils := by
  cases step with
  | header name value =>
    rw [← @withHeader_fails_iff d.headers]
    obtain ⟨headers, hok, h⟩ | ⟨e, herror, h⟩ := d.apply_header name value
    · rw [h, hok]
      simp
    · rw [h, herror]
      simp
  | _ => simp [apply, Step.Spoils]

/-- A draft is spoiled by any of its steps. -/
theorem applyAll_spoiled_iff {d : Draft} {steps : List Step} :
    (d.applyAll steps).spoiled.isSome = true ↔
      d.spoiled.isSome = true ∨ ∃ step ∈ steps, step.Spoils := by
  induction steps generalizing d with
  | nil => simp [applyAll]
  | cons step steps ih =>
    simp only [List.mem_cons, exists_eq_or_imp]
    rw [← or_assoc, ← apply_spoiled_iff]
    exact ih

theorem spoiled_of_applyAll {d : Draft} {step : Step} {steps : List Step}
    (h : ((d.apply step).applyAll steps).spoiled = none) : (d.apply step).spoiled = none := by
  rw [← Option.not_isSome_iff_eq_none] at h ⊢
  exact fun hstep => h (applyAll_spoiled_iff.2 (.inl hstep))

/-! ## Parts -/

open RequestHeaders (Setting)

/-- A part of a draft: a setting of its headers, all headers anew as settings make them, or a
body. -/
inductive Part
  | set (setting : Setting)
  | replace (settings : List Setting)
  | body (body : Body)

namespace Part

/-- The step of a part. There is none if the settings make no headers. -/
def step : Part → Except MediaTypeError Step
  | .set (.contentType mediaType) => .ok (.contentType mediaType)
  | .set (.accept mediaTypes) => .ok (.accept mediaTypes)
  | .set (.header name value) => .ok (.header name value)
  | .replace settings => (RequestHeaders.ofSettings settings).map .headers
  | .body value => .ok (.body value)

/-- The settings in effect after a part. -/
def effect (settings : List Setting) : Part → List Setting
  | .set setting => settings ++ [setting]
  | .replace settings => settings
  | .body _ => settings

/-- The body of a part. -/
def body? : Part → Option Body
  | .body value => some value
  | _ => none

/-- The content types in a part have been built as such. -/
def Built : Part → Prop
  | .set setting => setting.Built
  | .replace settings => ∀ setting ∈ settings, setting.Built
  | .body _ => True

end Part

/-- The settings that are in effect after parts: those of the last replacement, then those behind
it. -/
def inEffect (parts : List Part) : List Setting :=
  parts.foldl Part.effect []

/-- The last body of parts. -/
def lastBody (parts : List Part) : Option Body :=
  (parts.filterMap Part.body?).getLast?

theorem lastBody_cons (part : Part) (parts : List Part) :
    lastBody (part :: parts) = (lastBody parts).or part.body? := by
  unfold lastBody
  cases hbody : part.body? with
  | none => rw [List.filterMap_cons_none hbody, Option.or_none]
  | some value =>
    rw [List.filterMap_cons_some hbody, List.getLast?_cons]
    cases (parts.filterMap Part.body?).getLast? <;> rfl

theorem built_foldl_effect {parts : List Part} (h : ∀ part ∈ parts, part.Built)
    {settings : List Setting} (hsettings : ∀ s ∈ settings, s.Built) :
    ∀ s ∈ parts.foldl Part.effect settings, s.Built := by
  induction parts generalizing settings with
  | nil => exact hsettings
  | cons part parts ih =>
    rw [List.forall_mem_cons] at h
    refine ih h.2 ?_
    cases part with
    | set setting => exact List.forall_mem_append.2 ⟨hsettings, List.forall_mem_singleton.2 h.1⟩
    | replace settings => exact h.1
    | body value => exact hsettings

/-- A setting has the same effect on a draft as on headers, unless it spoils it. -/
theorem apply_set {d : Draft} {setting : Setting} {step : Step}
    (hstep : (Part.set setting).step = .ok step) (h : (d.apply step).spoiled = none) :
    d.headers.set setting = .ok (d.apply step).headers ∧ (d.apply step).body = d.body := by
  cases setting with
  | header name value =>
    cases hstep
    obtain ⟨headers, hok, happly⟩ | ⟨e, -, happly⟩ := d.apply_header name value
    · rw [happly]
      exact ⟨hok, rfl⟩
    · rw [happly] at h
      cases h
  | _ => cases hstep; exact ⟨rfl, rfl⟩

theorem apply_part {d : Draft} {settings : List Setting} {part : Part} {step : Step}
    (hd : d.headers = .after settings) (hstep : part.step = .ok step)
    (h : (d.apply step).spoiled = none) :
    (d.apply step).headers = .after (part.effect settings) ∧
      (d.apply step).body = part.body?.or d.body := by
  cases part with
  | set setting =>
    obtain ⟨hset, hbody⟩ := apply_set hstep h
    rw [hd] at hset
    exact ⟨RequestHeaders.set_after hset, hbody⟩
  | replace settings' =>
    obtain ⟨headers, hset, rfl⟩ := Fallible.map_eq_ok.1 hstep
    exact ⟨RequestHeaders.ofSettings_eq_after hset, rfl⟩
  | body value => cases hstep; exact ⟨hd, rfl⟩

/-- Parts that spoil nothing come to the settings in effect and the last body. -/
theorem applyAll_parts {parts : List Part} {steps : List Step}
    (hsteps : List.Forall₂ (fun part step => part.step = .ok step) parts steps) {d : Draft}
    {settings : List Setting} (hd : d.headers = .after settings)
    (h : (d.applyAll steps).spoiled = none) :
    (d.applyAll steps).headers = .after (parts.foldl Part.effect settings) ∧
      (d.applyAll steps).body = (lastBody parts).or d.body := by
  -- so far, the headers of the draft are what the settings in effect come to
  induction hsteps generalizing d settings with
  | nil => exact ⟨hd, rfl⟩
  | @cons part step parts steps hstep _ ih =>
    obtain ⟨hheaders, hbody⟩ := apply_part hd hstep (spoiled_of_applyAll h)
    obtain ⟨hheaders', hbody'⟩ := ih hheaders h
    refine ⟨hheaders', ?_⟩
    rw [lastBody_cons, Option.or_assoc, ← hbody]
    exact hbody'

end PolicyClient.Draft
