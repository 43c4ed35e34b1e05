/-
Documents put together again. A document that can be read keeps its shape and its texts; only its numbers
are spelled anew (`rebuild_of_readable`). So it stays as it is just if every number in it, at any depth,
keeps its spelling (`rebuilt_eq_iff`), which numbers with an exponent do, and those that may not stand
for a double, but for minus zero (`Numeral.rebuilt_eq`).
-/
import Mathlib
import PolicyClient.Document.Rebuild
import PolicyClient.Proofs.Document.Keyed
import PolicyClient.Proofs.Document.RoundTrip

namespace PolicyClient

/-! ## Numbers -/

namespace Numeral

/-- The whole number zero with a sign. -/
def IsMinusZero (n : Numeral) : Prop :=
  n.negative = true ∧ n.whole = [.zero] ∧ n.fraction = none ∧ n.exponent = none

instance (n : Numeral) : Decidable n.IsMinusZero :=
  inferInstanceAs (Decidable (_ ∧ _ ∧ _ ∧ _))

theorem rebuilt_of_exponent {n : Numeral} (h : n.exponent ≠ none) : n.rebuilt = n := by
  rw [rebuilt, if_pos h]

/-- A number that is neither minus zero nor plain digits for a double keeps its spelling. -/
theorem rebuilt_eq {n : Numeral} (h : n.exponent ≠ none ∨ n.isReal = false) (hzero : ¬ n.IsMinusZero) :
    n.rebuilt = n := by
  by_cases hplain : n.exponent = none
  · have hreal : n.double? = none := by
      rw [double?, h.resolve_left (by simp [hplain])]; rfl
    rw [rebuilt, if_neg (by simp [hplain]), if_neg fun hz => hzero ⟨hz.1, hz.2.1, hz.2.2, hplain⟩, hreal]
    rfl
  · exact rebuilt_of_exponent hplain

end Numeral

/-! ## Documents -/

namespace Document

mutual

/-- The document with its numbers spelled anew. -/
def rebuilt : Document → Document
  | .number n => .number n.rebuilt
  | .array items => .array (rebuiltItems items)
  | .object members => .object (rebuiltMembers members)
  | .null => .null
  | .bool value => .bool value
  | .text value => .text value

/-- The items with their numbers spelled anew. -/
def rebuiltItems : List Document → List Document
  | [] => []
  | d :: ds => rebuilt d :: rebuiltItems ds

/-- The members with their numbers spelled anew. -/
def rebuiltMembers : List (String × Document) → List (String × Document)
  | [] => []
  | (key, d) :: rest => (key, rebuilt d) :: rebuiltMembers rest

end

variable {items : List Document} {members : Members}

/-! ### What is put together again -/

theorem rebuildItems_eq (h : ∀ d ∈ items, rebuild d = .ok d.rebuilt) :
    rebuildItems items = .ok (rebuiltItems items) := by
  induction items with
  | nil => rfl
  | cons d ds ih =>
    obtain ⟨hd, hds⟩ := List.forall_mem_cons.1 h
    rw [rebuildItems, hd, ih hds]; rfl

theorem rebuildMembers_eq (h : ∀ m ∈ members, rebuild m.2 = .ok m.2.rebuilt) :
    rebuildMembers members = .ok (rebuiltMembers members) := by
  induction members with
  | nil => rfl
  | cons m members ih =>
    obtain ⟨key, d⟩ := m
    obtain ⟨hd, hrest⟩ := List.forall_mem_cons.1 h
    rw [rebuildMembers, hd, ih hrest]; rfl

/-- A document that can be read is put together again, with its numbers spelled anew. -/
theorem rebuild_of_readable {n : Nat} {d : Document} (h : Readable n d) : rebuild d = .ok d.rebuilt := by
  induction h with
  | null | bool | number | text => rfl
  | array _ ih => rw [rebuild, rebuildItems_eq ih]; rfl
  | @object n members _ first _ ih =>
    cases members with
    | nil => rfl
    | cons m members =>
      obtain ⟨key, d⟩ := m
      obtain ⟨hd, hrest⟩ := List.forall_mem_cons.1 ih
      -- no object of such a document is taken for a number
      rw [rebuild, if_neg (first _ rfl), hd, rebuildMembers_eq hrest]; rfl

/-! ### What stays as it is -/

theorem rebuiltItems_eq_iff : rebuiltItems items = items ↔ ∀ d ∈ items, d.rebuilt = d := by
  induction items with
  | nil => simp [rebuiltItems]
  | cons d ds ih => rw [rebuiltItems, List.cons.injEq, ih, List.forall_mem_cons]

theorem rebuiltMembers_eq_iff : rebuiltMembers members = members ↔ ∀ m ∈ members, m.2.rebuilt = m.2 := by
  induction members with
  | nil => simp [rebuiltMembers]
  | cons m members ih =>
    obtain ⟨key, d⟩ := m
    rw [rebuiltMembers, List.cons.injEq, ih, List.forall_mem_cons, Prod.mk.injEq, and_iff_right rfl]

/-- A document stays as it is just if all numbers in it do. -/
theorem rebuilt_eq_iff (d : Document) : d.rebuilt = d ↔ ∀ n, Within (.number n) d → n.rebuilt = n := by
  induction d using Document.induct with
  | number m =>
    rw [rebuilt, number.injEq]
    exact ⟨fun h n hw => by cases hw; exact h, fun h => h m .here⟩
  | array items ih =>
    rw [rebuilt, array.injEq, rebuiltItems_eq_iff]
    refine ⟨fun h n hw => ?_, fun h d hd => (ih d hd).2 fun n hw => h n (.item hd hw)⟩
    cases hw with
    | item hd hw => exact (ih _ hd).1 (h _ hd) n hw
  | object members ih =>
    rw [rebuilt, object.injEq, rebuiltMembers_eq_iff]
    refine ⟨fun h n hw => ?_, fun h m hm => (ih m hm).2 fun n hw => h n (.member hm hw)⟩
    cases hw with
    | member hm hw => exact (ih _ hm).1 (h _ hm) n hw
  | _ => exact ⟨fun _ n hw => (nomatch hw), fun _ => rfl⟩

end Document
end PolicyClient
