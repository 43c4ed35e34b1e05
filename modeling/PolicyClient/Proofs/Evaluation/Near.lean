/-
Documents that differ in the spelling of their numbers only. Equality, order and membership compare
numbers by value, so no operator tells such documents apart (`Near.apply`). A key of an array does:
`1` is an index and `1.0` is none, so that keys have to be the same index as well (`Near.step_cases`).
-/
import Mathlib
import PolicyClient.Evaluation.Search
import PolicyClient.Proofs.Decimal.Value

namespace PolicyClient

/-! ## Numbers -/

/-- Equal decimals have one order to all others. -/
theorem Decimal.compare_congr {x x' y y' : Decimal} (hx : x.value = x'.value)
    (hy : y.value = y'.value) : x.compare y = x'.compare y' := by
  have h := compare_compares x y
  rw [hx, hy] at h
  exact h.inj (compare_compares x' y')

/-- Two spellings of one decimal; as keys they are the same index, or both none. -/
structure Numeral.Near (key : Bool) (m n : Numeral) : Prop where
  value : ∃ x y, m.decimal? = some x ∧ n.decimal? = some y ∧ x.value = y.value
  index : key = true → m.word? = n.word?

namespace Numeral

variable {key : Bool} {m n : Numeral}

theorem Near.compare?_left (h : Near key m n) (a : Numeral) : m.compare? a = n.compare? a := by
  obtain ⟨x, y, hx, hy, hvalue⟩ := h.value
  unfold compare?
  rw [hx, hy]
  cases a.decimal? with
  | none => rfl
  | some z => exact congrArg some (Decimal.compare_congr hvalue rfl)

theorem Near.compare?_right (h : Near key m n) (a : Numeral) : a.compare? m = a.compare? n := by
  obtain ⟨x, y, hx, hy, hvalue⟩ := h.value
  unfold compare?
  rw [hx, hy]
  cases a.decimal? with
  | none => rfl
  | some z => exact congrArg some (Decimal.compare_congr rfl hvalue)

end Numeral

/-! ## Documents -/

namespace Document

/-- Two documents that are one, but for the spelling of numbers outside objects. -/
inductive Near (key : Bool) : Document → Document → Prop
  | refl (d : Document) : Near key d d
  | number {m n : Numeral} (hnear : m.Near key n) : Near key (.number m) (.number n)
  | array {ds es : List Document} (hlength : ds.length = es.length)
    (hitems : ∀ {d e}, (d, e) ∈ ds.zip es → Near key d e) : Near key (.array ds) (.array es)

variable {key key' : Bool} {d d' e e' : Document} {ds ds' : List Document}

theorem near_array (h : List.Forall₂ (Near key) ds ds') : Near key (.array ds) (.array ds') := by
  obtain ⟨hlength, hitems⟩ := List.forall₂_iff_zip.1 h
  exact .array hlength hitems

theorem Near.kind (h : Near key d d') : d.kind = d'.kind := by
  cases h <;> rfl

theorem Near.isTruthy (h : Near key d d') :
    Document.isTruthy (some d) = Document.isTruthy (some d') := by
  cases h <;> rfl

theorem Near.keys (h : Near key d d') : d.keys = d'.keys := by
  cases h with
  | refl => rfl
  | number => rfl
  | array hlength => rw [Document.keys, Document.keys, hlength]

/-! ## Equality -/

theorem sameItems_congr_left (h : List.Forall₂ (fun d d' => ∀ e, d.same e = d'.same e) ds ds')
    (es : List Document) : sameItems ds es = sameItems ds' es := by
  induction h generalizing es with
  | nil => rfl
  | cons hd _ ih =>
    cases es with
    | nil => rfl
    | cons e es => rw [sameItems, sameItems, hd e, ih es]

theorem sameItems_congr_right (h : List.Forall₂ (fun d d' => ∀ e : Document, e.same d = e.same d') ds ds')
    (es : List Document) : sameItems es ds = sameItems es ds' := by
  induction h generalizing es with
  | nil => rfl
  | cons hd _ ih =>
    cases es with
    | nil => rfl
    | cons e es => rw [sameItems, sameItems, hd e, ih es]

theorem Near.same_left (h : Near key d d') (e : Document) : d.same e = d'.same e := by
  induction h generalizing e with
  | refl => rfl
  | number hnear =>
    cases e with
    | number a => rw [same, same, hnear.compare?_left]
    | _ => rfl
  | array hlength _ ih =>
    cases e with
    | array es => exact sameItems_congr_left (List.forall₂_iff_zip.2 ⟨hlength, ih⟩) es
    | _ => rfl

theorem Near.same_right (h : Near key d d') (e : Document) : e.same d = e.same d' := by
  induction h generalizing e with
  | refl => rfl
  | number hnear =>
    cases e with
    | number a => rw [same, same, hnear.compare?_right]
    | _ => rfl
  | array hlength _ ih =>
    cases e with
    | array es => exact sameItems_congr_right (List.forall₂_iff_zip.2 ⟨hlength, ih⟩) es
    | _ => rfl

/-! ## Order and membership -/

theorem Near.order_left (h : Near key d d') (e : Document) : d.order e = d'.order e := by
  cases h with
  | refl => rfl
  | number hnear =>
    cases e with
    | number a => simp only [order, hnear.compare?_left, Document.incomparable, Document.kind]
    | _ => rfl
  | array => rfl

theorem Near.order_right (h : Near key d d') (e : Document) : e.order d = e.order d' := by
  cases h with
  | refl => rfl
  | number hnear =>
    cases e with
    | number a => simp only [order, hnear.compare?_right, Document.incomparable, Document.kind]
    | _ => rfl
  | array => cases e <;> rfl

theorem Near.isMember_left (h : Near key d d') (e : Document) : d.isMember e = d'.isMember e := by
  simp only [isMember, h.same_left, Document.incomparable, h.kind]

theorem any_same_congr {item : Document}
    (h : List.Forall₂ (fun d d' => item.same d = item.same d') ds ds') :
    ds.any (item.same ·) = ds'.any (item.same ·) := by
  induction h with
  | nil => rfl
  | cons hd _ ih => rw [List.any_cons, List.any_cons, hd, ih]

theorem Near.isMember_right (h : Near key d d') (e : Document) : e.isMember d = e.isMember d' := by
  cases h with
  | refl => rfl
  | number => rfl
  | array hlength hitems =>
    exact congrArg Except.ok (any_same_congr
      (List.forall₂_iff_zip.2 ⟨hlength, fun hmem => (hitems hmem).same_right e⟩))

/-- No operator tells apart two spellings of its operands. -/
theorem Near.apply (hd : Near key d d') (he : Near key' e e') (op : Operator) :
    op.apply d e = op.apply d' e' := by
  cases op with
  | member =>
    calc d.isMember e = d'.isMember e := hd.isMember_left e
      _ = d'.isMember e' := he.isMember_right d'
  | _ =>
    simp only [Operator.apply, hd.same_left, he.same_right, hd.order_left, he.order_right]

/-! ## Steps -/

/-- Two keys that are the same index lead to one place. -/
theorem Near.step_right (h : Near true d d') (current : Document) :
    current.step d = current.step d' := by
  cases h with
  | refl => rfl
  | number hnear =>
    cases current with
    | array items => simp only [Document.step, hnear.index rfl]
    | _ => rfl
  | array => cases current <;> rfl

theorem rel_refl (r : Option Document) : Option.Rel (Near key) r r := by
  cases r with
  | none => exact .none
  | some d => exact .some (.refl d)

theorem rel_getElem? (h : List.Forall₂ (Near key) ds ds') (i : Nat) :
    Option.Rel (Near key) ds[i]? ds'[i]? := by
  induction h generalizing i with
  | nil => exact .none
  | cons hd _ ih =>
    cases i with
    | zero => exact .some hd
    | succ i => simpa using ih i

theorem Near.step_left (h : Near key d d') (k : Document) :
    Option.Rel (Near key) (d.step k) (d'.step k) := by
  cases h with
  | refl => exact rel_refl _
  | number => cases k <;> exact .none
  | array hlength hitems =>
    cases k with
    | number index =>
      simp only [Document.step]
      cases index.word? with
      | none => exact .none
      | some i => exact rel_getElem? (List.forall₂_iff_zip.2 ⟨hlength, hitems⟩) i.toNat
    | _ => exact .none

/-- Two keys lead from one document to another, or neither does. -/
theorem Near.step_cases (hd : Near key d d') (he : Near true e e') :
    (d.step e = none ∧ d'.step e' = none) ∨
      ∃ next next', d.step e = some next ∧ d'.step e' = some next' ∧ Near key next next' := by
  have hstep := hd.step_left e
  rw [he.step_right d'] at hstep
  generalize d.step e = r, d'.step e' = r' at hstep
  cases hstep with
  | none => exact .inl ⟨rfl, rfl⟩
  | some hnext => exact .inr ⟨_, _, rfl, rfl, hnext⟩

end Document
end PolicyClient
