/-
What holds of every media type that is accepted, however it is built and whatever parameters were
given to it. That its charset is the one that its parameters name is kept by every parameter set
(`WellFormed.withParameter`); here it is read as a promise about the value given last, and the range
of a quality as one about the number that it stands for (`Quality.inRange_iff`).
-/
import PolicyClient.Proofs.Decimal.Double
import PolicyClient.Proofs.MediaType.Parameters
import Mathlib

namespace PolicyClient

/-! ## The numbers of qualities -/

/-- The number that a quality stands for, if it is one. -/
def Quality.value? : Quality → Option ℚ
  | .finite negative magnitude =>
    some (if negative then -Double.value magnitude else Double.value magnitude)
  | .infinite _ => none
  | .nan => none

/-- A quality is in range exactly if it is a number from zero to one. -/
theorem Quality.inRange_iff {q : Quality} :
    q.inRange = true ↔ ∃ x, q.value? = some x ∧ 0 ≤ x ∧ x ≤ 1 := by
  cases q with
  | infinite negative => exact iff_of_false nofun (by rintro ⟨x, hx, -⟩; cases hx)
  | nan => exact iff_of_false nofun (by rintro ⟨x, hx, -⟩; cases hx)
  | finite negative magnitude =>
    have hnonneg := Double.value_nonneg magnitude
    cases negative with
    | false =>
      have hrange : (finite false magnitude).inRange = true ↔ magnitude ≤ 0x3FF0000000000000 := by
        simp only [inRange, Bool.or_eq_true, beq_iff_eq, Bool.not_false, Bool.true_and,
          decide_eq_true_eq]
        omega
      rw [hrange, ← Double.value_le_one_iff]
      exact ⟨fun h => ⟨_, rfl, hnonneg, h⟩, by rintro ⟨x, hx, -, h⟩; cases hx; exact h⟩
    | true =>
      have hrange : (finite true magnitude).inRange = true ↔ magnitude = 0 := by
        simp only [inRange, Bool.not_true, Bool.false_and, Bool.or_false, beq_iff_eq]
      rw [hrange, ← Double.value_eq_zero_iff]
      refine ⟨fun h => ⟨_, rfl, by simp [h], by simp [h]⟩, ?_⟩
      rintro ⟨x, hx, h, -⟩
      cases hx
      exact le_antisymm (neg_nonneg.1 h) hnonneg

namespace MediaType

open Fallible
open Text (sameName)

variable {m : MediaType} {given : List (String × String)}

/-! ## What is given to a media type -/

/-- The parameters that a text gives, behind its first semicolon. -/
def writtenIn (input : String) : List (String × String) :=
  let behind := ((Text.splitFirst? ';' input.toList).getD (input.toList, [])).2
  (Text.Quoted.split ';' behind).filterMap parameterOf?

/-- The ways to come by a media type, with the parameters that are given to it. -/
inductive Accepted : List (String × String) → MediaType → Prop
  | parsed {input : String} {m : MediaType} (h : parse input = .ok m) : Accepted (writtenIn input) m
  | assembled {type subtype : String} {given : List (String × String)} {m : MediaType}
      (h : ofParts type subtype given = .ok m) : Accepted given m

theorem Accepted.built (h : Accepted given m) : m.Built := by
  cases h with
  | parsed h => exact .parsed h
  | assembled h => exact .assembled h

/-- Whatever is accepted has been built from its type and subtype, one parameter after the other. -/
theorem Accepted.exists_bare (h : Accepted given m) :
    ∃ type subtype, (bare type subtype).withParameters given = .ok m := by
  cases h with
  | parsed h =>
    obtain ⟨_, htype, h⟩ := bind_eq_ok.1 h
    obtain ⟨type, subtype, -, rfl⟩ := parseType_eq_ok htype
    exact ⟨_, _, h⟩
  | assembled h => exact ⟨_, _, (ofParts_eq_ok_iff.1 h).2⟩

/-! ## The promise -/

theorem isUpper_of_lower {s : String} (h : Text.lower s.toList = s) {c : Char}
    (hc : c ∈ s.toList) : c.isUpper = false := by
  rw [← h, Text.lower, String.toList_ofList] at hc
  obtain ⟨d, -, rfl⟩ := List.mem_map.1 hc
  exact Char.isUpper_toLower_eq_false d

/-- A parameter that is found is a valid one. -/
theorem WellFormed.valid_of_parameter? (hm : m.WellFormed) {name value : String}
    (h : m.parameter? name = some value) :
    ∃ key, sameName key name = true ∧ ValidParameter key value := by
  obtain ⟨p, hp, rfl⟩ := Option.map_eq_some_iff.1 h
  have hname := List.find?_some hp
  exact ⟨p.1, hname, hm.valid p (List.mem_of_find?_eq_some hp)⟩

/-- Of every media type that is accepted: type and subtype are tokens without letters in upper case,
and the type is `*` only where the subtype is. The names of the parameters are tokens that differ in
more than letter case, and no value is empty. A quality is a number from zero to one. The charset is
the one that the parameter named so resolves to, and there is one exactly if that parameter is there;
its value, like every other, is the one that was given last. -/
theorem accepted_invariant (h : Accepted given m) :
    ((isToken m.type.toList = true ∧ ∀ c ∈ m.type.toList, c.isUpper = false) ∧
      (isToken m.subtype.toList = true ∧ ∀ c ∈ m.subtype.toList, c.isUpper = false) ∧
      (m.type = "*" → m.subtype = "*")) ∧
    ((∀ p ∈ m.parameters, isToken p.1.toList = true ∧ p.2 ≠ "") ∧
      (m.parameters.map Prod.fst).Pairwise fun a b => sameName a b = false) ∧
    (∀ value, m.parameter? "q" = some value →
      ∃ q x, Quality.ofText? value = some q ∧ q.value? = some x ∧ 0 ≤ x ∧ x ≤ 1) ∧
    (m.charset = (m.parameter? "charset").bind Charset.ofLabel? ∧
      (m.charset = none ↔ m.parameter? "charset" = none)) ∧
    ∀ name, m.parameter? name = lastGiven? given name := by
  have hm := h.built.wellFormed
  refine ⟨⟨⟨hm.type_token, fun _ => isUpper_of_lower hm.type_lower⟩,
      ⟨hm.subtype_token, fun _ => isUpper_of_lower hm.subtype_lower⟩, hm.wildcard⟩,
    ⟨fun p hp => ⟨(hm.valid p hp).token, (hm.valid p hp).value_ne⟩, hm.names⟩, ?quality,
    ⟨hm.charset_eq, ?charset⟩, ?given⟩
  case quality =>
    intro value hvalue
    obtain ⟨key, hkey, hvalid⟩ := hm.valid_of_parameter? hvalue
    obtain ⟨q, hq, hrange⟩ := hvalid.quality hkey
    obtain ⟨x, hx⟩ := Quality.inRange_iff.1 hrange
    exact ⟨q, x, hq, hx⟩
  case charset =>
    have hcharset : m.charset = (m.parameter? "charset").bind Charset.ofLabel? := hm.charset_eq
    rcases hvalue : m.parameter? "charset" with _ | value
    · rw [hcharset, hvalue]; exact iff_of_true rfl rfl
    · obtain ⟨key, hkey, hvalid⟩ := hm.valid_of_parameter? hvalue
      obtain ⟨charset, hlabel⟩ := Option.isSome_iff_exists.1 (hvalid.charset hkey)
      rw [hcharset, hvalue, Option.bind_some, hlabel]
      exact iff_of_false nofun nofun
  case given =>
    obtain ⟨_, _, hbare⟩ := h.exists_bare
    exact parameter?_of_bare hbare

/-- A charset that is given twice, in another letter case, and a quality. -/
theorem accepted_invariant_charset_twice :
    ∃ m, parse " Text/PLAIN ; Charset=utf-8; Q=5e-1 ;CHARSET=\"latin1\"" = .ok m ∧
      m.parameters = [("Charset", "latin1"), ("Q", "5e-1")] ∧
      m.charset = some .windows1252 ∧
      (∃ q x, Quality.ofText? "5e-1" = some q ∧ q.value? = some x ∧ 0 ≤ x ∧ x ≤ 1) ∧
      m.parameter? "charset" = lastGiven?
        (writtenIn " Text/PLAIN ; Charset=utf-8; Q=5e-1 ;CHARSET=\"latin1\"") "charset" := by
  have hparse : parse " Text/PLAIN ; Charset=utf-8; Q=5e-1 ;CHARSET=\"latin1\"" =
      .ok ⟨"text", "plain", [("Charset", "latin1"), ("Q", "5e-1")], some .windows1252⟩ := by
    decide +kernel
  obtain ⟨-, -, hquality, -, hgiven⟩ := accepted_invariant (.parsed hparse)
  exact ⟨_, hparse, rfl, rfl, hquality _ rfl, hgiven _⟩

end MediaType
end PolicyClient
