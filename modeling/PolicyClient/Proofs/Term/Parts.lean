/-
Equality of terms one level down: two terms are equal if they are of one kind and their parts are
equal (`equal_iff`). A set asks the terms of the other for each of its own, with the sides turned
around, so what is said of two terms is proved for their parts in either order (`induct_pair`).
-/
import PolicyClient.Proofs.Decimal.Value
import PolicyClient.Term.Basic

namespace PolicyClient
namespace Term

/-! ## Lists -/

theorem equalAll_eq_true_iff {as bs : List Term} :
    equalAll as bs = true ↔ List.Forall₂ (fun a b => a.equal b = true) as bs := by
  induction as generalizing bs with
  | nil => cases bs <;> simp [equalAll]
  | cons a as ih =>
    cases bs with
    | nil => simp [equalAll]
    | cons b bs => rw [equalAll, Bool.and_eq_true, List.forall₂_cons, ih]

theorem isListed_eq_true_iff {t : Term} {ts : List Term} :
    t.isListed ts = true ↔ ∃ u ∈ ts, u.equal t = true := by
  induction ts with
  | nil => simp [isListed]
  | cons u ts ih => rw [isListed, Bool.or_eq_true, ih, List.exists_mem_cons_iff]

theorem within_eq_true_iff {as bs : List Term} :
    within as bs = true ↔ ∀ a ∈ as, ∃ b ∈ bs, b.equal a = true := by
  induction as with
  | nil => simp [within]
  | cons a as ih =>
    rw [within, Bool.and_eq_true, isListed_eq_true_iff, List.forall_mem_cons, ih]

/-! ## Equality one level down -/

/-- Two terms of one kind whose parts are equal. -/
inductive EqualParts : Term → Term → Prop
  | ref {root root' : Term} {keys keys' : List Term} (hroot : root.equal root' = true)
    (hkeys : List.Forall₂ (fun k k' => k.equal k' = true) keys keys') :
    EqualParts (.ref root keys) (.ref root' keys')
  | call {function function' : Term} {args args' : List Term}
    (hfunction : function.equal function' = true)
    (hargs : List.Forall₂ (fun a a' => a.equal a' = true) args args') :
    EqualParts (.call function args) (.call function' args')
  | var (name : String) : EqualParts (.var name) (.var name)
  | numeric {d d' : Decimal} (hvalue : d.value = d'.value) : EqualParts (.numeric d) (.numeric d')
  | text (value : String) : EqualParts (.text value) (.text value)
  | bool (value : Bool) : EqualParts (.bool value) (.bool value)
  | null : EqualParts .null .null
  | array {items items' : List Term}
    (hitems : List.Forall₂ (fun t t' => t.equal t' = true) items items') :
    EqualParts (.array items) (.array items')
  | set {items items' : List Term} (hlength : items.length = items'.length)
    (hitems : ∀ t ∈ items, ∃ t' ∈ items', t'.equal t = true) :
    EqualParts (.set items) (.set items')

theorem equal_iff {a b : Term} : a.equal b = true ↔ EqualParts a b := by
  constructor
  · intro h
    unfold equal at h
    split at h
    case h_1 => rw [Bool.and_eq_true, equalAll_eq_true_iff] at h; exact .ref h.1 h.2
    case h_2 => rw [Bool.and_eq_true, equalAll_eq_true_iff] at h; exact .call h.1 h.2
    case h_3 => rw [beq_iff_eq] at h; subst h; exact .var _
    case h_4 => rw [Decimal.same_iff] at h; exact .numeric h
    case h_5 => rw [beq_iff_eq] at h; subst h; exact .text _
    case h_6 => rw [beq_iff_eq] at h; subst h; exact .bool _
    case h_7 => exact .null
    case h_8 => rw [equalAll_eq_true_iff] at h; exact .array h
    case h_9 =>
      rw [Bool.and_eq_true, beq_iff_eq, within_eq_true_iff] at h
      exact .set h.1 h.2
    case h_10 => cases h
  · intro h
    cases h with
    | ref hroot hkeys => rw [equal, hroot, equalAll_eq_true_iff.2 hkeys]; rfl
    | call hfunction hargs => rw [equal, hfunction, equalAll_eq_true_iff.2 hargs]; rfl
    | var name => rw [equal, beq_self_eq_true]
    | numeric hvalue => rw [equal, (Decimal.same_iff _ _).2 hvalue]
    | text value => rw [equal, beq_self_eq_true]
    | bool value => rw [equal, beq_self_eq_true]
    | null => rw [equal]
    | array hitems => rw [equal, equalAll_eq_true_iff.2 hitems]
    | set hlength hitems =>
      rw [equal, beq_iff_eq.2 hlength, within_eq_true_iff.2 hitems]; rfl

/-- A term is equal to itself, whatever its sets list. -/
theorem equal_refl (t : Term) : t.equal t = true := by
  rw [equal_iff]
  induction t using Term.induct with
  | ref root keys hroot hkeys =>
    exact .ref (equal_iff.2 hroot) (List.forall₂_same.2 fun k hk => equal_iff.2 (hkeys k hk))
  | call function args hfunction hargs =>
    exact .call (equal_iff.2 hfunction)
      (List.forall₂_same.2 fun a ha => equal_iff.2 (hargs a ha))
  | var name => exact .var name
  | numeric d => exact .numeric rfl
  | text value => exact .text value
  | bool value => exact .bool value
  | null => exact .null
  | array items hitems =>
    exact .array (List.forall₂_same.2 fun t ht => equal_iff.2 (hitems t ht))
  | set items hitems => exact .set rfl fun t ht => ⟨t, ht, equal_iff.2 (hitems t ht)⟩

/-! ## Two terms at once -/

/-- The terms directly below a term. -/
def parts : Term → List Term
  | .ref root keys => root :: keys
  | .call function args => function :: args
  | .array items => items
  | .set items => items
  | _ => []

/-- Induction over two terms, with the hypothesis for their parts in either order. -/
@[elab_as_elim]
theorem induct_pair {motive : Term → Term → Prop}
    (step : ∀ t u, (∀ a ∈ t.parts, ∀ b ∈ u.parts, motive a b ∧ motive b a) → motive t u)
    (t u : Term) : motive t u := by
  suffices h : ∀ u, motive t u ∧ motive u t from (h u).1
  have of_parts {t : Term} (h : ∀ a ∈ t.parts, ∀ b, motive a b ∧ motive b a) (u : Term) :
      motive t u ∧ motive u t :=
    ⟨step t u fun a ha b _ => h a ha b, step u t fun b _ a ha => (h a ha b).symm⟩
  induction t using Term.induct with
  | ref root keys hroot hkeys => exact of_parts (List.forall_mem_cons.2 ⟨hroot, hkeys⟩)
  | call function args hfunction hargs =>
    exact of_parts (List.forall_mem_cons.2 ⟨hfunction, hargs⟩)
  | array items hitems => exact of_parts hitems
  | set items hitems => exact of_parts hitems
  | _ => exact of_parts nofun

theorem forall₂_equal_trans {as bs cs : List Term}
    (htrans : ∀ a ∈ as, ∀ c ∈ cs, ∀ {b}, a.equal b = true → b.equal c = true → a.equal c = true)
    (hab : List.Forall₂ (fun a b => a.equal b = true) as bs)
    (hbc : List.Forall₂ (fun b c => b.equal c = true) bs cs) :
    List.Forall₂ (fun a c => a.equal c = true) as cs := by
  induction hab generalizing cs with
  | nil => cases hbc; exact .nil
  | cons hab _ ih =>
    cases hbc with
    | cons hbc hbcs =>
      exact .cons (htrans _ (by simp) _ (by simp) hab hbc)
        (ih (fun a ha c hc => htrans a (List.mem_cons_of_mem _ ha) c (List.mem_cons_of_mem _ hc)) hbcs)

/-- Equality is transitive, whatever the sets list. -/
theorem equal_trans {a b c : Term} (hab : a.equal b = true) (hbc : b.equal c = true) :
    a.equal c = true := by
  -- the first two terms fix the kind of all three
  induction a, c using induct_pair generalizing b with
  | step a c ih =>
    cases equal_iff.1 hab with
    | ref hroot hkeys =>
      cases equal_iff.1 hbc with
      | ref hroot' hkeys' =>
        have hkeys := forall₂_equal_trans (fun k hk k' hk' _ =>
          (ih k (.tail _ hk) k' (.tail _ hk')).1) hkeys hkeys'
        exact equal_iff.2 (.ref ((ih _ (.head _) _ (.head _)).1 hroot hroot') hkeys)
    | call hfunction hargs =>
      cases equal_iff.1 hbc with
      | call hfunction' hargs' =>
        have hargs := forall₂_equal_trans (fun a ha a' ha' _ =>
          (ih a (.tail _ ha) a' (.tail _ ha')).1) hargs hargs'
        exact equal_iff.2 (.call ((ih _ (.head _) _ (.head _)).1 hfunction hfunction') hargs)
    | array hitems =>
      cases equal_iff.1 hbc with
      | array hitems' =>
        exact equal_iff.2 (.array
          (forall₂_equal_trans (fun t ht u hu _ => (ih t ht u hu).1) hitems hitems'))
    | set hlength hitems =>
      cases equal_iff.1 hbc with
      | set hlength' hitems' =>
        refine equal_iff.2 (.set (hlength.trans hlength') fun t ht => ?_)
        obtain ⟨u, hu, hut⟩ := hitems t ht
        obtain ⟨v, hv, hvu⟩ := hitems' u hu
        exact ⟨v, hv, (ih t ht v hv).2 hvu hut⟩
    | numeric hvalue =>
      cases equal_iff.1 hbc with
      | numeric hvalue' => exact equal_iff.2 (.numeric (hvalue.trans hvalue'))
    | _ => exact hbc

end Term
end PolicyClient
