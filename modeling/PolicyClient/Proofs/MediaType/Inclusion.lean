/-
Inclusion as an order. A media type stands for another in one of four ways (`StandsFor`), which
`includes` decides (`includes_iff`). The ways compose (`StandsFor.trans`): a subtype that stands for
all with some suffix has that suffix itself (`suffix?_of_wildcardSuffix?`), so one suffix is handed
on. Two media types that stand for each other differ in their parameters at most
(`includes_antisymm_iff`).
-/
import PolicyClient.Proofs.MediaType.WellFormed
import PolicyClient.Proofs.Text.Blank
import Mathlib

namespace PolicyClient.MediaType

variable {a a' b b' c m : MediaType} {suffix : List Char}

/-! ## Suffixes -/

/-- What follows the first `+`, with no `+` in front of it. -/
theorem suffix?_eq_some_iff : m.suffix? = some suffix ↔
    ∃ front, '+' ∉ front ∧ m.subtype.toList = front ++ '+' :: suffix := by
  unfold suffix?
  rw [Option.map_eq_some_iff]
  constructor
  · rintro ⟨⟨front, _⟩, hsplit, rfl⟩
    exact ⟨front, Text.splitFirst?_eq_some_iff.1 hsplit⟩
  · rintro ⟨front, hsplit⟩
    exact ⟨(front, suffix), Text.splitFirst?_eq_some_iff.2 hsplit, rfl⟩

theorem wildcardSuffix?_eq_some_iff :
    m.wildcardSuffix? = some suffix ↔ m.subtype.toList = '*' :: '+' :: suffix := by
  unfold wildcardSuffix?
  split
  · next rest hsubtype =>
    rw [hsubtype, Option.some.injEq]
    exact ⟨fun h => by rw [h], fun h => (List.cons.inj (List.cons.inj h).2).2⟩
  · next hnot => exact iff_of_false nofun (hnot suffix)

/-- A subtype that stands for all with a suffix has that suffix itself. -/
theorem suffix?_of_wildcardSuffix? (h : m.wildcardSuffix? = some suffix) :
    m.suffix? = some suffix :=
  suffix?_eq_some_iff.2 ⟨['*'], by simp, wildcardSuffix?_eq_some_iff.1 h⟩

theorem subtype_ne_star (h : m.suffix? = some suffix) : m.subtype ≠ "*" := by
  intro hstar
  unfold suffix? at h
  rw [hstar] at h
  cases h

/-! ## The ways to stand for a media type -/

/-- Media types that differ in their parameters at most. -/
structure SameKind (a b : MediaType) : Prop where
  type_eq : a.type = b.type
  subtype_eq : a.subtype = b.subtype

theorem SameKind.refl (a : MediaType) : a.SameKind a :=
  ⟨rfl, rfl⟩

theorem SameKind.symm (h : a.SameKind b) : b.SameKind a :=
  ⟨h.type_eq.symm, h.subtype_eq.symm⟩

theorem SameKind.suffix?_eq (h : a.SameKind b) : a.suffix? = b.suffix? := by
  unfold suffix?
  rw [h.subtype_eq]

/-- The ways in which a media type stands for another: for all there are, for itself, for all of its
type, or for those of its type with its suffix. -/
inductive StandsFor (a b : MediaType) : Prop
  | everything (h : a.type = "*")
  | itself (h : a.SameKind b)
  | subtypes (htype : a.type = b.type) (h : a.subtype = "*")
  | suffixes (htype : a.type = b.type) {suffix : List Char} (ha : a.wildcardSuffix? = some suffix)
      (hb : b.suffix? = some suffix)

/-- The last of the tests that `includes` makes: two suffixes are there, and they are the same. -/
theorem sameSuffix_iff {own other : Option (List Char)} :
    (match own, other with
      | some suffix, some otherSuffix => suffix == otherSuffix
      | _, _ => false) = true ↔ ∃ suffix, own = some suffix ∧ other = some suffix := by
  cases own with
  | none => exact iff_of_false nofun (by rintro ⟨_, h, -⟩; cases h)
  | some suffix =>
    cases other with
    | none => exact iff_of_false nofun (by rintro ⟨_, -, h⟩; cases h)
    | some otherSuffix =>
      rw [beq_iff_eq]
      constructor
      · rintro rfl
        exact ⟨_, rfl, rfl⟩
      · rintro ⟨_, hown, hother⟩
        exact (Option.some.inj hown).trans (Option.some.inj hother).symm

theorem includes_iff : a.includes b = true ↔ a.StandsFor b := by
  unfold includes isWildcardType
  split_ifs with hstar htype hsubtype
  · exact iff_of_true rfl (.everything (beq_iff_eq.1 hstar))
  · refine iff_of_false nofun fun h => ?_
    cases h with
    | everything h => exact hstar (beq_iff_eq.2 h)
    | itself h => exact htype h.type_eq
    | subtypes h => exact htype h
    | suffixes h => exact htype h
  · rw [not_not] at htype
    refine iff_of_true rfl ?_
    rcases hsubtype with h | h
    · exact .itself ⟨htype, h⟩
    · exact .subtypes htype h
  · rw [not_not] at htype
    refine sameSuffix_iff.trans ?_
    constructor
    · rintro ⟨suffix, ha, hb⟩
      exact .suffixes htype ha hb
    · intro h
      cases h with
      | everything h => exact absurd (beq_iff_eq.2 h) hstar
      | itself h => exact absurd (.inl h.subtype_eq) hsubtype
      | subtypes _ h => exact absurd (.inr h) hsubtype
      | suffixes _ ha hb => exact ⟨_, ha, hb⟩

/-- Parameters do not matter. -/
theorem includes_congr (ha : a.SameKind a') (hb : b.SameKind b') :
    a.includes b = a'.includes b' := by
  unfold includes isWildcardType wildcardSuffix? suffix?
  rw [ha.type_eq, ha.subtype_eq, hb.type_eq, hb.subtype_eq]

/-! ## An order -/

theorem includes_refl (a : MediaType) : a.includes a = true :=
  includes_iff.2 (.itself (.refl a))

theorem StandsFor.type_eq (h : a.StandsFor b) : a.type = "*" ∨ a.type = b.type := by
  cases h with
  | everything h => exact .inl h
  | itself h => exact .inr h.type_eq
  | subtypes h => exact .inr h
  | suffixes h => exact .inr h

theorem StandsFor.trans (hab : a.StandsFor b) (hbc : b.StandsFor c) : a.StandsFor c := by
  cases hab with
  | everything h => exact .everything h
  | itself h =>
    rw [← includes_iff] at hbc ⊢
    rwa [includes_congr h (.refl c)]
  | subtypes htype h =>
    rcases hbc.type_eq with hstar | hc
    · exact .everything (htype.trans hstar)
    · exact .subtypes (htype.trans hc) h
  | suffixes htype ha hb =>
    cases hbc with
    | everything h => exact .everything (htype.trans h)
    | itself h => exact .suffixes (htype.trans h.type_eq) ha (h.suffix?_eq.symm.trans hb)
    | subtypes _ h => exact absurd h (subtype_ne_star hb)
    | suffixes hc hb' hsuffix =>
      rw [suffix?_of_wildcardSuffix? hb'] at hb
      cases hb
      exact .suffixes (htype.trans hc) ha hsuffix

theorem includes_trans (hab : a.includes b = true) (hbc : b.includes c = true) :
    a.includes c = true :=
  includes_iff.2 ((includes_iff.1 hab).trans (includes_iff.1 hbc))

/-- Whatever stands for a media type of a wildcard type is of that type. -/
theorem StandsFor.sameKind_of_star (ha : a.WellFormed) (hb : b.WellFormed) (h : a.StandsFor b)
    (hstar : b.type = "*") : a.SameKind b := by
  have htype : a.type = "*" := by
    rcases h.type_eq with h | h
    · exact h
    · exact h.trans hstar
  exact ⟨htype.trans hstar.symm, (ha.wildcard htype).trans (hb.wildcard hstar).symm⟩

theorem StandsFor.antisymm (ha : a.WellFormed) (hb : b.WellFormed) (hab : a.StandsFor b)
    (hba : b.StandsFor a) : a.SameKind b := by
  cases hab with
  | everything h => exact (hba.sameKind_of_star hb ha h).symm
  | itself h => exact h
  | subtypes htype h =>
    cases hba with
    | everything hstar => exact ⟨htype, h.trans (hb.wildcard hstar).symm⟩
    | itself h' => exact ⟨htype, h'.subtype_eq.symm⟩
    | subtypes _ h' => exact ⟨htype, h.trans h'.symm⟩
    | suffixes _ _ hsuffix => exact absurd h (subtype_ne_star hsuffix)
  | suffixes htype hsuffix hb' =>
    cases hba with
    | everything hstar => exact absurd (hb.wildcard hstar) (subtype_ne_star hb')
    | itself h' => exact ⟨htype, h'.subtype_eq.symm⟩
    | subtypes _ h' => exact absurd h' (subtype_ne_star hb')
    -- each has the suffix that it stands for, so the two suffixes are one
    | suffixes _ hother ha' =>
      rw [suffix?_of_wildcardSuffix? hother] at hb'
      cases hb'
      refine ⟨htype, String.toList_injective ?_⟩
      rw [wildcardSuffix?_eq_some_iff.1 hsuffix, wildcardSuffix?_eq_some_iff.1 hother]

/-- Only media types of one kind stand for each other. -/
theorem includes_antisymm_iff (ha : a.WellFormed) (hb : b.WellFormed) :
    a.includes b = true ∧ b.includes a = true ↔ a.SameKind b := by
  constructor
  · rintro ⟨hab, hba⟩
    exact (includes_iff.1 hab).antisymm ha hb (includes_iff.1 hba)
  · intro h
    exact ⟨includes_iff.2 (.itself h), includes_iff.2 (.itself h.symm)⟩

/-! ## The subtypes with a suffix -/

/-- The subtypes with a suffix are those that have it behind their first `+`. -/
theorem includes_iff_suffix (ha : a.WellFormed) (hsuffix : a.wildcardSuffix? = some suffix)
    (htype : a.type = m.type) : a.includes m = true ↔ m.suffix? = some suffix := by
  have hown : a.suffix? = some suffix := suffix?_of_wildcardSuffix? hsuffix
  rw [includes_iff]
  constructor
  · intro h
    cases h with
    | everything h => exact absurd (ha.wildcard h) (subtype_ne_star hown)
    | itself h => exact h.suffix?_eq.symm.trans hown
    | subtypes _ h => exact absurd h (subtype_ne_star hown)
    | suffixes _ h hm =>
      rw [hsuffix] at h
      cases h
      exact hm
  · exact .suffixes htype hsuffix

/-- Text in front of a `+` is in front of the first one if it has none itself. -/
theorem suffix?_iff_of_append {front : List Char}
    (hm : m.subtype.toList = front ++ '+' :: suffix) :
    m.suffix? = some suffix ↔ '+' ∉ front := by
  rw [suffix?_eq_some_iff, hm]
  constructor
  · rintro ⟨first, hfirst, h⟩
    rwa [List.append_cancel_right h]
  · exact fun h => ⟨front, h, rfl⟩

end PolicyClient.MediaType
