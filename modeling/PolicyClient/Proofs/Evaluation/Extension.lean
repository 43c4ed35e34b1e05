/-
More bindings never change an answer: whatever a term, a walk or an expression amounts to under
bindings, it amounts to under every extension of them. Only the errors of unbound variables may
go away.
-/
import PolicyClient.Evaluation.Search
import PolicyClient.Proofs.Fallible
import Mathlib.Data.List.Basic

namespace PolicyClient

/-! ## Extensions -/

/-- `σ` binds what `b` binds, to the same documents. -/
def Bindings.Extends (σ b : Bindings) : Prop :=
  ∀ name d, b.get? name = some d → σ.get? name = some d

namespace Bindings

theorem Extends.refl (b : Bindings) : b.Extends b := fun _ _ h => h

theorem Extends.trans {a b c : Bindings} (hcb : c.Extends b) (hba : b.Extends a) : c.Extends a :=
  fun name d h => hcb name d (hba name d h)

theorem bind_extends {b : Bindings} {name : String} (h : b.get? name = none) (d : Document) :
    (b.bind name d).Extends b := by
  intro other e he
  by_cases ho : name = other
  · subst ho; rw [h] at he; cases he
  · rw [get?_bind_of_ne d ho]; exact he

theorem Extends.bind {σ b : Bindings} (h : σ.Extends b) {name : String} {d : Document}
    (hd : σ.get? name = some d) : σ.Extends (b.bind name d) := by
  intro other e he
  by_cases ho : name = other
  · subst ho; rw [get?_bind_self] at he; rw [hd]; exact he
  · rw [get?_bind_of_ne d ho] at he; exact h other e he

end Bindings

/-! ## Terms -/

namespace Term

variable {σ b : Bindings}

theorem walk_mono {keys : List Term}
    (ih : ∀ k ∈ keys, ∀ r, resolve b k = .ok r → resolve σ k = .ok r) :
    ∀ {current : Document} {r : Option Document}, walk b current keys = .ok r →
      walk σ current keys = .ok r := by
  induction keys with
  | nil => intro current r h; exact h
  | cons key keys ihk =>
    intro current r h
    rw [walk_cons] at h ⊢
    rcases hk : resolve b key with e | (_ | k)
    · rw [hk] at h; cases h
    · rw [hk] at h; rw [ih key List.mem_cons_self _ hk]; exact h
    -- the key is the same document under both, so both walks take the same step
    · rw [hk] at h; rw [ih key List.mem_cons_self _ hk]
      dsimp only at h ⊢
      split at h
      · exact h
      · exact ihk (fun k hk => ih k (List.mem_cons_of_mem _ hk)) h

theorem resolveAll_mono {ts : List Term}
    (ih : ∀ t ∈ ts, ∀ r, resolve b t = .ok r → resolve σ t = .ok r) :
    ∀ {r : Option (List Document)}, resolveAll b ts = .ok r → resolveAll σ ts = .ok r := by
  induction ts with
  | nil => intro r h; exact h
  | cons t ts iht =>
    intro r h
    rw [resolveAll_cons] at h ⊢
    rcases ht : resolve b t with e | (_ | d)
    · rw [ht] at h; cases h
    · rw [ht] at h; rw [ih t List.mem_cons_self _ ht]; exact h
    · rw [ht] at h; rw [ih t List.mem_cons_self _ ht]
      obtain ⟨found, hf, rfl⟩ := Fallible.map_eq_ok.1 h
      exact Fallible.map_eq_ok.2 ⟨found, iht (fun t ht => ih t (List.mem_cons_of_mem _ ht)) hf, rfl⟩

theorem applyTo_mono {function : Term} {operands : List Term}
    (ih : ∀ t ∈ operands, ∀ r, resolve b t = .ok r → resolve σ t = .ok r)
    {r : Option Document} (h : applyTo b function operands = .ok r) :
    applyTo σ function operands = .ok r := by
  by_cases hlen : operands.length = 2
  · obtain ⟨left, right, rfl⟩ := List.length_eq_two.1 hlen
    rw [applyTo_pair] at h ⊢
    split at h
    · cases h
    · rcases hl : resolve b left with e | l
      · rw [hl] at h; cases h
      · rcases hr : resolve b right with e | r'
        · rw [hl, hr] at h; cases h
        · rw [ih left (by simp) _ hl, ih right (by simp) _ hr]
          rwa [hl, hr] at h
  · rw [applyTo_of_length_ne b function hlen] at h
    split at h <;> cases h

/-- A term keeps its document, or stays undefined, under every extension. -/
theorem resolve_mono (hσ : σ.Extends b) (t : Term) :
    ∀ r, resolve b t = .ok r → resolve σ t = .ok r := by
  induction t using Term.induct with
  | ref root keys ihr ihk =>
    intro r h
    rw [resolve_ref] at h ⊢
    rcases hr : resolve b root with e | (_ | start)
    · rw [hr] at h; cases h
    · rw [hr] at h; rw [ihr _ hr]; exact h
    · rw [hr] at h; rw [ihr _ hr]; exact walk_mono ihk h
  | call function args _ iha => intro r h; exact applyTo_mono iha h
  | var name =>
    intro r h
    rw [resolve] at h ⊢
    split at h
    · next d hd => rw [hσ name d hd]; exact h
    · cases h
  | array items ih =>
    intro r h
    rw [resolve_array] at h ⊢
    obtain ⟨found, hf, rfl⟩ := Fallible.map_eq_ok.1 h
    exact Fallible.map_eq_ok.2 ⟨found, resolveAll_mono ih hf, rfl⟩
  | set items ih =>
    intro r h
    rw [resolve_set] at h ⊢
    obtain ⟨found, hf, rfl⟩ := Fallible.map_eq_ok.1 h
    exact Fallible.map_eq_ok.2 ⟨found, resolveAll_mono ih hf, rfl⟩
  | _ => intro r h; exact h

end Term

/-! ## Expressions -/

/-- An expression that holds, or does not hold, does so under every extension. -/
theorem Expression.holds_mono {σ b : Bindings} (hσ : σ.Extends b) {e : Expression} {r : Bool}
    (h : e.holds b = .ok r) : e.holds σ = .ok r := by
  unfold holds at h ⊢
  split at h
  · exact h
  · obtain ⟨found, hf, rfl⟩ := Fallible.map_eq_ok.1 h
    exact Fallible.map_eq_ok.2 ⟨found, Term.resolve_mono hσ _ _ hf, rfl⟩
  · obtain ⟨found, hf, rfl⟩ := Fallible.map_eq_ok.1 h
    exact Fallible.map_eq_ok.2
      ⟨found, Term.applyTo_mono (fun t _ => Term.resolve_mono hσ t) hf, rfl⟩

end PolicyClient
