/-
Looking up and failing. Looking a term up fails where one of its parts fails, and operators read no
variable; so a variable that is reported as unbound is one of the term (`unbound_of_resolve`).
-/
import PolicyClient.Proofs.Evaluation.Trial

namespace PolicyClient

open Fallible

/-! ## Operators -/

theorem Document.order_ne_unbound (a b : Document) (name : String) :
    a.order b ≠ .error (.unbound name) := by
  unfold order incomparable
  split
  · split <;> simp
  · simp
  · simp
  · simp

theorem Document.isMember_ne_unbound (item collection : Document) (name : String) :
    item.isMember collection ≠ .error (.unbound name) := by
  unfold isMember incomparable
  split <;> simp

theorem Operator.apply_ne_unbound (op : Operator) (a b : Document) (name : String) :
    op.apply a b ≠ .error (.unbound name) := by
  have horder : ∀ f : Ordering → Bool, (a.order b).map f ≠ .error (.unbound name) := by
    intro f h
    exact a.order_ne_unbound b name (map_eq_error.1 h)
  cases op with
  | equal => simp [apply]
  | notEqual => simp [apply]
  | less => exact horder _
  | lessOrEqual => exact horder _
  | greater => exact horder _
  | greaterOrEqual => exact horder _
  | member => exact a.isMember_ne_unbound b name

namespace Term

variable {b : Bindings} {name : String}

theorem operator_ne_unbound (t : Term) (name : String) : t.operator ≠ .error (.unbound name) := by
  unfold operator
  split
  · simp
  · split <;> simp

/-! ## Where looking up fails -/

theorem resolveAll_eq_error {ts : List Term} {err : EvalError} (h : resolveAll b ts = .error err) :
    ∃ t ∈ ts, resolve b t = .error err := by
  induction ts with
  | nil => cases h
  | cons t ts ih =>
    rw [resolveAll_cons] at h
    split at h
    · next ht => cases h; exact ⟨t, by simp, ht⟩
    · cases h
    · obtain ⟨u, hu, hr⟩ := ih (map_eq_error.1 h)
      exact ⟨u, by simp [hu], hr⟩

theorem walk_eq_error {current : Document} {keys : List Term} {err : EvalError}
    (h : walk b current keys = .error err) : ∃ k ∈ keys, resolve b k = .error err := by
  induction keys generalizing current with
  | nil => cases h
  | cons key keys ih =>
    rw [walk_cons] at h
    split at h
    · next hk => cases h; exact ⟨key, by simp, hk⟩
    · cases h
    · split at h
      · cases h
      · obtain ⟨k, hk, hr⟩ := ih h
        exact ⟨k, by simp [hk], hr⟩

/-- An operator reads no variable: only its operands do. -/
theorem applyTo_eq_unbound {function : Term} {operands : List Term}
    (h : applyTo b function operands = .error (.unbound name)) :
    ∃ t ∈ operands, resolve b t = .error (.unbound name) := by
  by_cases hlen : operands.length = 2
  · obtain ⟨left, right, rfl⟩ := List.length_eq_two.1 hlen
    rw [applyTo_pair] at h
    split at h
    · next ho => cases h; exact absurd ho (operator_ne_unbound function name)
    · split at h
      · next hl => cases h; exact ⟨left, by simp, hl⟩
      · next hr => cases h; exact ⟨right, by simp, hr⟩
      · exact absurd (map_eq_error.1 h) (Operator.apply_ne_unbound _ _ _ name)
      · cases h
  · rw [applyTo_of_length_ne b function hlen] at h
    split at h
    · next ho => cases h; exact absurd ho (operator_ne_unbound function name)
    · cases h

theorem mem_occurrencesAll {ts : List Term} :
    name ∈ occurrencesAll ts ↔ ∃ t ∈ ts, name ∈ t.occurrences := by
  induction ts with
  | nil => simp [occurrencesAll]
  | cons t ts ih => simp [occurrencesAll, ih]

theorem unbound_of_items {items : List Term}
    (ih : ∀ t ∈ items, resolve b t = .error (.unbound name) →
      name ∈ t.occurrences ∧ b.get? name = none)
    (h : ∃ t ∈ items, resolve b t = .error (.unbound name)) :
    name ∈ occurrencesAll items ∧ b.get? name = none := by
  obtain ⟨t, ht, hr⟩ := h
  obtain ⟨hm, hb⟩ := ih t ht hr
  exact ⟨mem_occurrencesAll.2 ⟨t, ht, hm⟩, hb⟩

/-- A variable that is reported as unbound is one of the term, and is unbound. -/
theorem unbound_of_resolve {t : Term} (h : resolve b t = .error (.unbound name)) :
    name ∈ t.occurrences ∧ b.get? name = none := by
  induction t using Term.induct with
  | ref root keys ihr ihk =>
    rw [occurrences, List.mem_append]
    rw [resolve_ref] at h
    split at h
    · next hr =>
      cases h
      obtain ⟨hm, hb⟩ := ihr hr
      exact ⟨.inl hm, hb⟩
    · cases h
    · obtain ⟨hm, hb⟩ := unbound_of_items ihk (walk_eq_error h)
      exact ⟨.inr hm, hb⟩
  | call function args _ ih =>
    rw [occurrences]
    exact unbound_of_items ih (applyTo_eq_unbound h)
  | var other =>
    rw [resolve] at h
    split at h
    · cases h
    · next hb => cases h; exact ⟨by simp [occurrences], hb⟩
  | array items ih =>
    rw [occurrences]
    rw [resolve_array] at h
    exact unbound_of_items ih (resolveAll_eq_error (map_eq_error.1 h))
  | set items ih =>
    rw [occurrences]
    rw [resolve_set] at h
    exact unbound_of_items ih (resolveAll_eq_error (map_eq_error.1 h))
  | numeric d =>
    rw [resolve] at h
    split at h <;> cases h
  | _ => cases h

end Term

theorem Expression.unbound_of_holds {b : Bindings} {name : String} {e : Expression}
    (h : e.holds b = .error (.unbound name)) :
    ∃ t ∈ e.operands, t.resolve b = .error (.unbound name) := by
  obtain ⟨index, terms⟩ := e
  unfold holds at h
  match terms, h with
  | [], h => cases h
  | [t], h => exact ⟨t, by simp [operands], map_eq_error.1 h⟩
  | operator :: t :: ts, h => exact Term.applyTo_eq_unbound (map_eq_error.1 h)

end PolicyClient
