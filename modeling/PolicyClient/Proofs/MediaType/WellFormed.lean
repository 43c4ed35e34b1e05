/-
What every way of building a media type keeps (`WellFormed`). A parameter is set exactly if its name
and its value will do (`withParameter_eq_ok_iff`); setting it keeps the names apart, and the charset
stays the one that the parameters name. So whatever `parse` and `ofParts` build is well formed.
-/
import PolicyClient.MediaType.Basic
import PolicyClient.Proofs.Fallible
import PolicyClient.Proofs.Text.Letter
import Mathlib

namespace PolicyClient.MediaType

open Fallible
open Text (sameName)

/-- The ways to come by a media type: reading one, or putting one together from its parts. -/
inductive Built : MediaType → Prop
  | parsed {input : String} {m : MediaType} (h : parse input = .ok m) : Built m
  | assembled {type subtype : String} {parameters : List (String × String)} {m : MediaType}
      (h : ofParts type subtype parameters = .ok m) : Built m

/-! ## Tokens -/

/-- The marks that may stand in a token. -/
def tokenMarks : List Char :=
  ['!', '#', '$', '%', '&', '\'', '*', '+', '-', '.', '^', '_', '\x60', '|', '~']

theorem isTokenChar_iff {c : Char} :
    isTokenChar c = true ↔ c.isAlphanum = true ∨ c ∈ tokenMarks := by
  unfold isTokenChar
  rw [Bool.or_eq_true, List.contains_iff_mem,
    show "!#$%&'*+-.^_`|~".toList = tokenMarks from String.toList_ofList]

/-- The marks that separate tokens are no part of them. -/
theorem isTokenChar_of_separator {c : Char} (h : c ∈ ['"', ';', ',', '=', '/']) :
    isTokenChar c = false := by
  have hall : ∀ c ∈ ['"', ';', ',', '=', '/'], ¬ (c.isAlphanum = true ∨ c ∈ tokenMarks) := by
    simp [tokenMarks]
  rw [← Bool.not_eq_true, isTokenChar_iff]
  exact hall c h

theorem toNat_of_isTokenChar {c : Char} (h : isTokenChar c = true) :
    0x21 ≤ c.toNat ∧ c.toNat ≤ 0x7E := by
  have hmarks : ∀ c ∈ tokenMarks, 0x21 ≤ c.toNat ∧ c.toNat ≤ 0x7E := by simp [tokenMarks]
  rcases isTokenChar_iff.1 h with h | h
  · have := Text.toNat_of_isAlphanum h
    omega
  · exact hmarks c h

theorem isBlank_of_isTokenChar {c : Char} (h : isTokenChar c = true) : Text.isBlank c = false := by
  have := toNat_of_isTokenChar h
  unfold Text.isBlank
  simp only [Bool.or_eq_false_iff, Bool.and_eq_false_iff, decide_eq_false_iff_not,
    beq_eq_false_iff_ne]
  omega

theorem isTokenChar_toLower {c : Char} (h : isTokenChar c = true) : isTokenChar c.toLower = true := by
  have hmarks : ∀ c ∈ tokenMarks, c.toLower = c := by simp [tokenMarks]
  rcases isTokenChar_iff.1 h with hc | hc
  · exact isTokenChar_iff.2 (.inl (by rw [Text.isAlphanum_toLower, hc]))
  · rw [hmarks c hc, h]

theorem isToken_iff {s : List Char} : isToken s = true ↔ s ≠ [] ∧ ∀ c ∈ s, isTokenChar c = true := by
  unfold isToken
  cases s <;> simp

theorem isToken_lower {s : List Char} (h : isToken s = true) : isToken (Text.lower s).toList = true := by
  obtain ⟨hne, hall⟩ := isToken_iff.1 h
  unfold Text.lower
  rw [String.toList_ofList, isToken_iff]
  refine ⟨by simpa using hne, ?_⟩
  rw [List.forall_mem_map]
  exact fun c hc => isTokenChar_toLower (hall c hc)

/-! ## Setting a parameter -/

/-- The value of a name in a list of parameters. -/
def valueOf? (parameters : List (String × String)) (name : String) : Option String :=
  (parameters.find? fun p => sameName p.1 name).map (·.2)

theorem valueOf?_cons (p : String × String) (parameters : List (String × String)) (name : String) :
    valueOf? (p :: parameters) name =
      if sameName p.1 name then some p.2 else valueOf? parameters name := by
  unfold valueOf?
  rw [List.find?_cons]
  cases sameName p.1 name <;> rfl

theorem setParameter_cons (p : String × String) (parameters : List (String × String))
    (name value : String) :
    setParameter (p :: parameters) name value =
      if sameName p.1 name then (p.1, value) :: parameters
      else p :: setParameter parameters name value := rfl

/-- A name has the value that it was set to; the others keep theirs. -/
theorem valueOf?_setParameter (parameters : List (String × String)) (name value other : String) :
    valueOf? (setParameter parameters name value) other =
      if sameName name other then some value else valueOf? parameters other := by
  induction parameters with
  | nil => exact valueOf?_cons (name, value) [] other
  | cons p parameters ih =>
    rw [setParameter_cons]
    by_cases hp : sameName p.1 name = true
    · rw [if_pos hp, valueOf?_cons, valueOf?_cons, Text.sameName_congr_left hp]
      split_ifs <;> rfl
    · rw [if_neg hp, valueOf?_cons, valueOf?_cons, ih]
      split_ifs with hother hname
      · exact absurd (Text.sameName_trans hother (Text.sameName_comm name other ▸ hname)) hp
      · rfl
      · rfl
      · rfl

/-- Setting keeps the names that are there, and a new name comes behind them. -/
theorem names_setParameter (parameters : List (String × String)) (name value : String) :
    (setParameter parameters name value).map Prod.fst =
      if (valueOf? parameters name).isSome then parameters.map Prod.fst
      else parameters.map Prod.fst ++ [name] := by
  induction parameters with
  | nil => rfl
  | cons p parameters ih =>
    rw [setParameter_cons, valueOf?_cons]
    split_ifs with hp hsome hsome
    · rfl
    · exact absurd rfl hsome
    · rw [List.map_cons, ih, if_pos hsome, List.map_cons]
    · rw [List.map_cons, ih, if_neg hsome, List.map_cons, List.cons_append]

theorem mem_setParameter {parameters : List (String × String)} {name value : String}
    {p : String × String} (hp : p ∈ setParameter parameters name value) :
    p ∈ parameters ∨ sameName p.1 name = true ∧ p.2 = value ∧
      (p.1 = name ∨ ∃ old, (p.1, old) ∈ parameters) := by
  induction parameters with
  | nil =>
    obtain rfl := List.mem_singleton.1 hp
    exact .inr ⟨Text.sameName_refl _, rfl, .inl rfl⟩
  | cons q parameters ih =>
    rw [setParameter_cons] at hp
    split_ifs at hp with hq
    · rcases List.mem_cons.1 hp with rfl | hp
      · exact .inr ⟨hq, rfl, .inr ⟨q.2, List.mem_cons_self⟩⟩
      · exact .inl (List.mem_cons_of_mem _ hp)
    · rcases List.mem_cons.1 hp with rfl | hp
      · exact .inl List.mem_cons_self
      · rcases ih hp with hp | ⟨hname, hvalue, hkey⟩
        · exact .inl (List.mem_cons_of_mem _ hp)
        · exact .inr ⟨hname, hvalue, hkey.imp_right fun ⟨old, h⟩ => ⟨old, List.mem_cons_of_mem _ h⟩⟩

/-! ## Parameters that will do -/

/-- A name and a value that may be a parameter. -/
structure ValidParameter (name value : String) : Prop where
  token : isToken name.toList = true
  value_ne : value ≠ ""
  quality : sameName name "q" = true → ∃ q, Quality.ofText? value = some q ∧ q.inRange = true
  charset : sameName name "charset" = true → (Charset.ofLabel? value).isSome = true

theorem charsetAfter_eq_ok_iff {current charset : Option Charset} {name value : String} :
    charsetAfter current name value = .ok charset ↔
      (sameName name "q" = true → ∃ q, Quality.ofText? value = some q ∧ q.inRange = true) ∧
      (sameName name "charset" = true → (Charset.ofLabel? value).isSome = true) ∧
      charset = if sameName name "charset" then Charset.ofLabel? value else current := by
  unfold charsetAfter
  by_cases hq : sameName name "q" = true
  · have hcharset : sameName name "charset" = false := by
      rw [Text.sameName_congr_left hq]; simp [sameName]
    rw [if_pos hq, hcharset]
    rcases hvalue : Quality.ofText? value with _ | q
    · simp [hq]
    · cases hrange : q.inRange
      · simp [hq, hrange]
      · show (if q.inRange = true then _ else _) = _ ↔ _
        rw [if_pos hrange]
        exact ⟨fun h => ⟨fun _ => ⟨q, rfl, hrange⟩, nofun, (Except.ok.inj h).symm⟩,
          fun h => congrArg _ h.2.2.symm⟩
  · rw [if_neg hq]
    by_cases hcharset : sameName name "charset" = true
    · rw [if_pos hcharset, if_pos hcharset]
      rcases hvalue : Charset.ofLabel? value with _ | label
      · simp [hcharset]
      · exact ⟨fun h => ⟨fun h => absurd h hq, fun _ => rfl, (Except.ok.inj h).symm⟩,
          fun h => congrArg _ h.2.2.symm⟩
    · rw [if_neg hcharset, if_neg hcharset]
      exact ⟨fun h => ⟨fun h => absurd h hq, fun h => absurd h hcharset, (Except.ok.inj h).symm⟩,
        fun h => congrArg _ h.2.2.symm⟩

/-- A parameter is set exactly if it is a valid one. -/
theorem withParameter_eq_ok_iff {m m' : MediaType} {name value : String} :
    m.withParameter name value = .ok m' ↔ ValidParameter name value ∧
      m' = { m with
        parameters := setParameter m.parameters name value
        charset := if sameName name "charset" then Charset.ofLabel? value else m.charset } := by
  unfold withParameter
  by_cases htoken : isToken name.toList = false
  · rw [if_pos htoken]
    exact ⟨nofun, fun h => absurd h.1.token (by rw [htoken]; nofun)⟩
  · rw [if_neg htoken]
    by_cases hvalue : value = ""
    · rw [if_pos hvalue]
      exact ⟨nofun, fun h => absurd hvalue h.1.value_ne⟩
    · rw [if_neg hvalue, map_eq_ok]
      constructor
      · rintro ⟨charset, hcharset, rfl⟩
        obtain ⟨hquality, hlabel, rfl⟩ := charsetAfter_eq_ok_iff.1 hcharset
        exact ⟨⟨by simpa using htoken, hvalue, hquality, hlabel⟩, rfl⟩
      · rintro ⟨h, rfl⟩
        exact ⟨_, charsetAfter_eq_ok_iff.2 ⟨h.quality, h.charset, rfl⟩, rfl⟩

/-! ## Well-formed media types -/

/-- What every way of building a media type keeps: type and subtype are tokens in lower case, the
names of the parameters differ in more than letter case, every parameter is valid, and the charset
is the one that the parameters name. -/
structure WellFormed (m : MediaType) : Prop where
  type_token : isToken m.type.toList = true
  type_lower : Text.lower m.type.toList = m.type
  subtype_token : isToken m.subtype.toList = true
  subtype_lower : Text.lower m.subtype.toList = m.subtype
  wildcard : m.type = "*" → m.subtype = "*"
  names : (m.parameters.map Prod.fst).Pairwise fun a b => sameName a b = false
  valid : ∀ p ∈ m.parameters, ValidParameter p.1 p.2
  charset_eq : m.charset = (valueOf? m.parameters "charset").bind Charset.ofLabel?

theorem valueOf?_eq_none_iff {parameters : List (String × String)} {name : String} :
    valueOf? parameters name = none ↔ ∀ key ∈ parameters.map Prod.fst, sameName key name = false := by
  induction parameters with
  | nil => simp [valueOf?]
  | cons p parameters ih =>
    rw [valueOf?_cons, List.map_cons, List.forall_mem_cons, ← ih]
    cases sameName p.1 name <;> simp

/-- A valid parameter whose name is spelled in another case is valid too, if that is a token. -/
theorem ValidParameter.of_sameName {key name value : String} (h : ValidParameter name value)
    (hkey : sameName key name = true) (htoken : isToken key.toList = true) :
    ValidParameter key value where
  token := htoken
  value_ne := h.value_ne
  quality hq := h.quality (by rwa [← Text.sameName_congr_left hkey])
  charset hc := h.charset (by rwa [← Text.sameName_congr_left hkey])

/-- Setting a parameter keeps a media type well formed. -/
theorem WellFormed.withParameter {m m' : MediaType} {name value : String} (hm : m.WellFormed)
    (h : m.withParameter name value = .ok m') : m'.WellFormed := by
  obtain ⟨hvalid, rfl⟩ := withParameter_eq_ok_iff.1 h
  refine ⟨hm.type_token, hm.type_lower, hm.subtype_token, hm.subtype_lower, hm.wildcard, ?names,
    ?valid, ?charset⟩
  case names =>
    show ((setParameter m.parameters name value).map Prod.fst).Pairwise _
    rw [names_setParameter]
    split_ifs with hsome
    · exact hm.names
    · rw [List.pairwise_append]
      refine ⟨hm.names, List.pairwise_singleton _ _, fun key hkey other hother => ?_⟩
      rw [List.mem_singleton.1 hother]
      exact valueOf?_eq_none_iff.1 (by simpa using hsome) key hkey
  case valid =>
    intro p hp
    rcases mem_setParameter hp with hp | ⟨hname, hvalue, hkey⟩
    · exact hm.valid p hp
    · rw [hvalue]
      refine hvalid.of_sameName hname ?_
      rcases hkey with hkey | ⟨old, hold⟩
      · rw [hkey]; exact hvalid.token
      · exact (hm.valid _ hold).token
  case charset =>
    show (if sameName name "charset" then Charset.ofLabel? value else m.charset) =
      (valueOf? (setParameter m.parameters name value) "charset").bind Charset.ofLabel?
    rw [valueOf?_setParameter]
    split_ifs
    · rfl
    · exact hm.charset_eq

theorem WellFormed.withParameters {m m' : MediaType} {parameters : List (String × String)}
    (hm : m.WellFormed) (h : m.withParameters parameters = .ok m') : m'.WellFormed := by
  unfold MediaType.withParameters at h
  induction parameters generalizing m with
  | nil => cases h; exact hm
  | cons p parameters ih =>
    rw [List.foldlM_cons] at h
    obtain ⟨m₁, hp, h⟩ := bind_eq_ok.1 h
    exact ih (hm.withParameter hp) h

theorem checkType_eq_ok_iff {input : String} {type subtype : List Char} :
    checkType input type subtype = .ok () ↔
      isToken type = true ∧ isToken subtype = true ∧ (type = ['*'] → subtype = ['*']) := by
  unfold checkType
  split_ifs with h₁ h₂ h₃ h₄ h₅
  · simp [h₁, isToken]
  · simp [h₂, isToken]
  · simp [h₃]
  · simp [h₄]
  · simp [h₅]
  · simp only [true_iff]
    exact ⟨by simpa using h₃, by simpa using h₄, fun h => by_contra fun hne => h₅ ⟨h, hne⟩⟩

theorem lower_lower (s : List Char) : Text.lower (Text.lower s).toList = Text.lower s := by
  unfold Text.lower
  simp only [String.toList_ofList, List.map_map]
  congr 1
  exact List.map_congr_left fun c _ => Char.toLower_toLower_eq_toLower c

/-- Only a star is a star in lower case. -/
theorem eq_star_of_lower {s : List Char} (h : Text.lower s = "*") : s = ['*'] := by
  have hmap : s.map Char.toLower = ['*'] := by
    rw [← String.toList_ofList (l := s.map Char.toLower)]
    exact congrArg String.toList h
  obtain ⟨c, rfl, hc⟩ := List.map_eq_singleton_iff.1 hmap
  by_cases hupper : c.isUpper = true
  · have := Char.isLower_toLower_eq_isAlpha c
    rw [hc, Char.isAlpha, hupper] at this
    cases this
  · rw [Char.toLower_eq_of_not_isUpper hupper] at hc
    rw [hc]

theorem wellFormed_bare {input : String} {type subtype : List Char}
    (h : checkType input type subtype = .ok ()) :
    (bare (Text.lower type) (Text.lower subtype)).WellFormed := by
  obtain ⟨htype, hsubtype, hstar⟩ := checkType_eq_ok_iff.1 h
  refine ⟨isToken_lower htype, lower_lower type, isToken_lower hsubtype, lower_lower subtype, ?_,
    List.Pairwise.nil, nofun, rfl⟩
  intro hlower
  show Text.lower subtype = "*"
  rw [hstar (eq_star_of_lower hlower)]
  rfl

/-- What stands before the parameters is checked, and kept in lower case. -/
theorem parseType_eq_ok {input : String} {s : List Char} {m : MediaType}
    (h : parseType input s = .ok m) : ∃ type subtype, checkType input type subtype = .ok () ∧
      m = bare (Text.lower type) (Text.lower subtype) := by
  unfold parseType at h
  dsimp only at h
  by_cases hempty : Text.trim s = []
  · rw [if_pos hempty] at h; cases h
  · rw [if_neg hempty] at h
    split at h
    · cases h
    · cases h
    · obtain ⟨_, hcheck, h⟩ := bind_eq_ok.1 h
      exact ⟨_, _, hcheck, (Except.ok.inj h).symm⟩

theorem wellFormed_of_parseType {input : String} {s : List Char} {m : MediaType}
    (h : parseType input s = .ok m) : m.WellFormed := by
  obtain ⟨_, _, hcheck, rfl⟩ := parseType_eq_ok h
  exact wellFormed_bare hcheck

/-- Whatever is built is well formed. -/
theorem Built.wellFormed {m : MediaType} (h : m.Built) : m.WellFormed := by
  cases h with
  | parsed h =>
    unfold parse at h
    split at h
    obtain ⟨_, htype, h⟩ := bind_eq_ok.1 h
    exact (wellFormed_of_parseType htype).withParameters h
  | assembled h =>
    obtain ⟨_, hcheck, h⟩ := bind_eq_ok.1 h
    exact (wellFormed_bare hcheck).withParameters h

end PolicyClient.MediaType
