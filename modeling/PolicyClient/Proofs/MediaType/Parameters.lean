/-
The parameters that a list builds. Setting them one after the other (`setAll`) keeps every name where
it came first and as it was spelled there (`names_setAll`), and gives it the value that came last
(`valueOf?_setAll`). So a media type has one parameter for each name given, and its own parameters
build it anew.
-/
import PolicyClient.Proofs.MediaType.RoundTrip
import Mathlib

namespace PolicyClient.MediaType

open Fallible
open Text (sameName)

variable {m m' : MediaType} {parameters given : List (String × String)}

/-! ## What is given -/

/-- The names that are given, letter case aside: each as it is spelled first, in that order. -/
def firstNames (given : List (String × String)) : List String :=
  (given.map Prod.fst).eraseDupsBy sameName

/-- The value that is given last under a name, letter case aside. -/
def lastGiven? (given : List (String × String)) (name : String) : Option String :=
  (given.findRev? fun p => sameName p.1 name).map (·.2)

theorem firstNames_cons (p : String × String) (given : List (String × String)) :
    firstNames (p :: given) = p.1 :: firstNames (given.filter fun q => !sameName q.1 p.1) := by
  unfold firstNames
  rw [List.map_cons, List.eraseDupsBy_cons, List.filter_map]
  simp only [Bool.decide_eq_false, Function.comp_def]

theorem lastGiven?_cons (p : String × String) (given : List (String × String)) (name : String) :
    lastGiven? (p :: given) name =
      (lastGiven? given name).or (if sameName p.1 name then some p.2 else none) := by
  unfold lastGiven?
  rw [List.findRev?]
  cases given.findRev? fun q => sameName q.1 name with
  | some q => rfl
  | none => cases sameName p.1 name <;> rfl

/-! ## Setting parameters one after the other -/

/-- Parameters with others set, in the order given. -/
def setAll (parameters given : List (String × String)) : List (String × String) :=
  given.foldl (fun parameters p => setParameter parameters p.1 p.2) parameters

theorem setAll_cons (parameters : List (String × String)) (p : String × String)
    (given : List (String × String)) :
    setAll parameters (p :: given) = setAll (setParameter parameters p.1 p.2) given := rfl

/-- The parameters of a media type are set; type and subtype stay. -/
theorem withParameters_eq_ok (h : m.withParameters given = .ok m') :
    m'.type = m.type ∧ m'.subtype = m.subtype ∧ m'.parameters = setAll m.parameters given := by
  unfold withParameters at h
  induction given generalizing m with
  | nil => cases h; exact ⟨rfl, rfl, rfl⟩
  | cons p given ih =>
    rw [List.foldlM_cons] at h
    obtain ⟨m₁, hp, h⟩ := bind_eq_ok.1 h
    obtain ⟨-, rfl⟩ := withParameter_eq_ok_iff.1 hp
    exact ih h

/-- A name has the value that it was given last; one that was not given keeps what it had. -/
theorem valueOf?_setAll (parameters given : List (String × String)) (name : String) :
    valueOf? (setAll parameters given) name =
      (lastGiven? given name).or (valueOf? parameters name) := by
  induction given generalizing parameters with
  | nil => rfl
  | cons p given ih =>
    rw [setAll_cons, ih, valueOf?_setParameter, lastGiven?_cons, Option.or_assoc]
    split_ifs <;> rfl

theorem valueOf?_congr {name other : String} (h : sameName name other = true)
    (parameters : List (String × String)) : valueOf? parameters name = valueOf? parameters other := by
  unfold valueOf?
  simp only [fun p : String × String => Text.sameName_comm p.1, Text.sameName_congr_left h]

/-- The names that are there stay in place, and the new ones come behind them, as each was given
first. -/
theorem names_setAll (parameters given : List (String × String)) :
    (setAll parameters given).map Prod.fst = parameters.map Prod.fst ++
      firstNames (given.filter fun p => (valueOf? parameters p.1).isNone) := by
  induction given generalizing parameters with
  | nil => exact (List.append_nil _).symm
  | cons p given ih =>
    have hnew : ∀ q : String × String, (valueOf? (setParameter parameters p.1 p.2) q.1).isNone =
        (!sameName q.1 p.1 && (valueOf? parameters q.1).isNone) := by
      intro q
      rw [valueOf?_setParameter, Text.sameName_comm q.1]
      cases sameName p.1 q.1 <;> rfl
    rw [setAll_cons, ih, names_setParameter, List.filter_congr fun q _ => hnew q]
    rw [List.filter_cons]
    by_cases hp : (valueOf? parameters p.1).isNone = true
    · have hnone : ¬ (valueOf? parameters p.1).isSome = true := by simpa using hp
      rw [if_pos hp, if_neg hnone, firstNames_cons, List.filter_filter, List.append_assoc,
        List.singleton_append]
    · have hsome : (valueOf? parameters p.1).isSome = true := by
        simpa [Option.isSome_iff_ne_none] using hp
      rw [if_neg hp, if_pos hsome]
      -- The name is there, so whatever else is new is no spelling of it.
      congr 2
      refine List.filter_congr fun q _ => ?_
      cases hq : sameName q.1 p.1
      · rfl
      · rw [valueOf?_congr hq, eq_false_of_ne_true hp]; rfl

/-- A parameter has the value that its name is looked up with, if no two names are the same. -/
theorem valueOf?_of_mem (hnames : (parameters.map Prod.fst).Pairwise fun a b => sameName a b = false)
    {p : String × String} (hp : p ∈ parameters) : valueOf? parameters p.1 = some p.2 := by
  induction parameters with
  | nil => cases hp
  | cons q parameters ih =>
    rw [List.map_cons, List.pairwise_cons] at hnames
    rw [valueOf?_cons]
    rcases List.mem_cons.1 hp with rfl | hp
    · rw [Text.sameName_refl, if_pos rfl]
    · rw [hnames.1 p.1 (List.mem_map_of_mem hp)]
      exact ih hnames.2 hp

/-! ## Media types put together -/

/-- A parameter is looked up as the last value given for its name. -/
theorem parameter?_of_bare {type subtype : String}
    (h : (bare type subtype).withParameters given = .ok m) (name : String) :
    m.parameter? name = lastGiven? given name := by
  show valueOf? m.parameters name = _
  rw [(withParameters_eq_ok h).2.2, valueOf?_setAll]
  exact Option.or_none

/-- What is put together: type and subtype in lower case without the white space around them, and
the parameters set one after the other. -/
theorem ofParts_eq_ok_iff {type subtype : String} :
    ofParts type subtype given = .ok m ↔
      checkType (type ++ "/" ++ subtype) (Text.trim type.toList) (Text.trim subtype.toList) = .ok () ∧
      (bare (Text.lower (Text.trim type.toList)) (Text.lower (Text.trim subtype.toList))).withParameters
        given = .ok m := by
  unfold ofParts
  rw [bind_eq_ok]
  exact ⟨fun ⟨_, hcheck, h⟩ => ⟨hcheck, h⟩, fun ⟨hcheck, h⟩ => ⟨(), hcheck, h⟩⟩

/-- The parameters of a well-formed media type build it again, with any type and subtype that are
read as its own. -/
theorem WellFormed.ofParts_parameters (hm : m.WellFormed) {type subtype : String}
    (hcheck : checkType (type ++ "/" ++ subtype) (Text.trim type.toList) (Text.trim subtype.toList) =
      .ok ())
    (htype : Text.lower (Text.trim type.toList) = m.type)
    (hsubtype : Text.lower (Text.trim subtype.toList) = m.subtype) :
    ofParts type subtype m.parameters = .ok m := by
  rw [ofParts_eq_ok_iff, htype, hsubtype]
  exact ⟨hcheck, withParameters_parameters hm⟩

/-- Its own type, subtype and parameters build a well-formed media type again. -/
theorem WellFormed.ofParts_self (hm : m.WellFormed) :
    ofParts m.type m.subtype m.parameters = .ok m := by
  have htype := trim_token hm.type_token
  have hsubtype := trim_token hm.subtype_token
  refine hm.ofParts_parameters ?_ (by rw [htype, hm.type_lower]) (by rw [hsubtype, hm.subtype_lower])
  rw [htype, hsubtype, checkType_eq_ok_iff]
  refine ⟨hm.type_token, hm.subtype_token, fun hstar => ?_⟩
  rw [hm.wildcard (String.toList_inj.1 (hstar.trans String.toList_ofList.symm))]
  exact String.toList_ofList

/-- A list of parameters that is accepted gives one parameter for each name up to letter case, in the
order in which the names came first and spelled as they were then, with the value that came last. A
name is looked up as the last value given for it. The parameters that result build the media type
again. -/
theorem ofParts_merges {type subtype : String} (h : ofParts type subtype given = .ok m) :
    (m.parameters.map Prod.fst = firstNames given ∧
      (m.parameters.map Prod.fst).Pairwise (fun a b => sameName a b = false) ∧
      ∀ p ∈ m.parameters, lastGiven? given p.1 = some p.2) ∧
    (∀ name, m.parameter? name = lastGiven? given name) ∧
    ofParts type subtype m.parameters = .ok m ∧
    ofParts m.type m.subtype m.parameters = .ok m := by
  have hm : m.WellFormed := (Built.assembled h).wellFormed
  obtain ⟨hcheck, h⟩ := ofParts_eq_ok_iff.1 h
  obtain ⟨htype, hsubtype, hparameters⟩ := withParameters_eq_ok h
  have hvalue := parameter?_of_bare h
  refine ⟨⟨?names, hm.names, fun p hp => ?_⟩, hvalue,
    hm.ofParts_parameters hcheck htype.symm hsubtype.symm, hm.ofParts_self⟩
  case names =>
    rw [hparameters, names_setAll]
    exact congrArg firstNames (List.filter_eq_self.2 fun _ _ => rfl)
  · rw [← hvalue]
    exact valueOf?_of_mem hm.names hp

/-- Two names are given twice, in another letter case. -/
theorem ofParts_merges_charset :
    ∃ m, ofParts " Text" "plain" [("Title", "a"), ("charset", "utf-8"), ("TITLE", "b"), ("q", "0.5"),
        ("Charset", "latin1")] = .ok m ∧
      m.parameters = [("Title", "b"), ("charset", "latin1"), ("q", "0.5")] ∧
      (∀ name, m.parameter? name = lastGiven? [("Title", "a"), ("charset", "utf-8"), ("TITLE", "b"),
        ("q", "0.5"), ("Charset", "latin1")] name) ∧
      ofParts " Text" "plain" m.parameters = .ok m := by
  have hparts : ofParts " Text" "plain" [("Title", "a"), ("charset", "utf-8"), ("TITLE", "b"),
      ("q", "0.5"), ("Charset", "latin1")] =
        .ok ⟨"text", "plain", [("Title", "b"), ("charset", "latin1"), ("q", "0.5")],
          some .windows1252⟩ := by
    decide +kernel
  have hmerged := ofParts_merges hparts
  exact ⟨_, hparts, rfl, hmerged.2.1, hmerged.2.2.1⟩

end PolicyClient.MediaType
