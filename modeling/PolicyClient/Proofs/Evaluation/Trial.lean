/-
The search as a list of trials. Binding each variable found to each of its keys in turn gives the
assignments that the search tries, in its order; the search is over as soon as one of them makes all
expressions hold or fails with an error (`search_eq_anyM`). A trial binds iteration variables only,
each to a key of the collection at its position (`assigns_of_mem_trials`).
-/
import PolicyClient.Proofs.Evaluation.Range

namespace PolicyClient.Expression

variable {b σ : Bindings} {es : List Expression}

/-! ## Assignments -/

/-- Every expression holds. -/
def Satisfied (es : List Expression) (σ : Bindings) : Prop :=
  ∀ e ∈ es, e.holds σ = .ok true

/-- Beyond `b`, only iteration variables of the expressions are bound, each to a key of the
collection at a position where the variable stands. -/
def Assigns (es : List Expression) (b σ : Bindings) : Prop :=
  ∀ name d, b.get? name = none → σ.get? name = some d →
    ∃ e ∈ es, ∃ t ∈ e.operands, ∃ collection, t.StandsAt σ name collection ∧ d ∈ collection.keys

theorem Assigns.refl (es : List Expression) (b : Bindings) : Assigns es b b := by
  intro name d hb hd
  rw [hb] at hd; cases hd

/-- The operands of an expression that holds are defined. -/
theorem operands_of_holds {e : Expression} (h : e.holds b = .ok true) :
    ∀ t ∈ e.operands, ∃ d, t.resolve b = .ok (some d) := by
  obtain ⟨index, terms⟩ := e
  unfold holds at h
  match terms, h with
  | [], _ => intro t ht; cases ht
  | [t], h =>
    obtain ⟨found, hf, htrue⟩ := Fallible.map_eq_ok.1 h
    rcases found with _ | d
    · cases htrue
    · intro u hu
      obtain rfl : u = t := by simpa [operands] using hu
      exact ⟨d, hf⟩
  | operator :: t :: ts, h =>
    obtain ⟨found, hf, htrue⟩ := Fallible.map_eq_ok.1 h
    rcases found with _ | d
    · cases htrue
    · exact Term.applyTo_eq_some hf

/-- Where no operand has a variable to search for, the expressions have none. -/
theorem nextRange_of_operands (h : ∀ e ∈ es, ∀ t ∈ e.operands, t.nextRange b = .ok none) :
    nextRange b es = .ok none := by
  induction es with
  | nil => rfl
  | cons e es ih =>
    obtain ⟨he, hes⟩ := List.forall_mem_cons.1 h
    rw [nextRange_cons, Term.nextRangeAll_of_defined he]; exact ih hes

theorem nextRange_of_satisfied (h : Satisfied es b) : nextRange b es = .ok none := by
  refine nextRange_of_operands fun e he t ht => ?_
  obtain ⟨d, hd⟩ := operands_of_holds (h e he) t ht
  exact Term.nextRange_of_defined t d hd

/-- An extension under which all expressions hold binds the variable found, to one of its keys. -/
theorem bound_of_nextRange (hσ : σ.Extends b) (hsat : Satisfied es σ) {range : Range}
    (h : nextRange b es = .ok (some range)) : ∃ key ∈ range.2, σ.get? range.1 = some key := by
  obtain ⟨e, he, t, ht, hn⟩ := nextRange_eq_some h
  obtain ⟨d, hd⟩ := operands_of_holds (hsat e he) t ht
  exact Term.bound_of_nextRange hσ t d hd hn

/-! ## Trials -/

/-- The assignments that the search tries, in its order. A branch ends where no variable is found,
or where looking for one fails. -/
def trials (es : List Expression) (b : Bindings) : List Bindings :=
  match _h : nextRange b es with
  | .ok (some (name, keys)) => keys.flatMap fun key => trials es (b.bind name key)
  | .ok none => [b]
  | .error _ => [b]
termination_by (openNames b es).length
decreasing_by exact openNames_bind_lt b es _h key

/-- What one trial finds out. -/
def outcome (es : List Expression) (σ : Bindings) : Except EvalError Bool :=
  match nextRange σ es with
  | .error err => .error err
  | .ok _ => es.allM (holds σ)

theorem trials_of_range {name : String} {keys : List Document}
    (h : nextRange b es = .ok (some (name, keys))) :
    trials es b = keys.flatMap fun key => trials es (b.bind name key) := by
  rw [trials]
  split
  · next h' => rw [h] at h'; cases h'; rfl
  · next h' => rw [h] at h'; cases h'
  · next h' => rw [h] at h'; cases h'

theorem trials_of_not_range (h : ∀ range, nextRange b es ≠ .ok (some range)) : trials es b = [b] := by
  rw [trials]
  split
  · next h' => exact absurd h' (h _)
  · rfl
  · rfl

/-- A trial succeeds exactly when all expressions hold. -/
theorem outcome_eq_true_iff : outcome es σ = .ok true ↔ Satisfied es σ := by
  unfold outcome
  constructor
  · intro h
    split at h
    · cases h
    · exact Fallible.allM_eq_true_iff.1 h
  · intro h
    rw [nextRange_of_satisfied h]
    exact Fallible.allM_eq_true_iff.2 h

/-- The search goes through its trials until one succeeds or fails. -/
theorem search_eq_anyM (es : List Expression) (b : Bindings) :
    search es b = (trials es b).anyM (outcome es) := by
  induction b using search_induct es with
  | step b ih =>
    rcases hn : nextRange b es with err | (_ | ⟨name, keys⟩)
    · rw [search_of_error hn, trials_of_not_range (by simp [hn]), Fallible.anyM_singleton, outcome, hn]
    · rw [search_of_none hn, trials_of_not_range (by simp [hn]), Fallible.anyM_singleton, outcome, hn]
    -- the trials of the keys stand one behind the other
    · rw [search_of_range hn, trials_of_range hn, Fallible.anyM_flatMap]
      congr 1
      funext key
      exact ih name keys hn key

/-- Every trial extends the bindings by iteration variables only. -/
theorem assigns_of_mem_trials (b : Bindings) :
    ∀ σ ∈ trials es b, σ.Extends b ∧ Assigns es b σ := by
  induction b using search_induct es with
  | step b ih =>
    intro σ hmem
    rcases hn : nextRange b es with err | (_ | ⟨name, keys⟩)
    · rw [trials_of_not_range (by simp [hn]), List.mem_singleton] at hmem
      subst hmem; exact ⟨.refl σ, .refl es σ⟩
    · rw [trials_of_not_range (by simp [hn]), List.mem_singleton] at hmem
      subst hmem; exact ⟨.refl σ, .refl es σ⟩
    · rw [trials_of_range hn] at hmem
      obtain ⟨key, hkey, hmem⟩ := List.mem_flatMap.1 hmem
      obtain ⟨-, hfree⟩ := keyNames_of_nextRange hn
      obtain ⟨hσ, hassigns⟩ := ih name keys hn key σ hmem
      have hσb := hσ.trans (Bindings.bind_extends hfree key)
      refine ⟨hσb, fun other d hb hd => ?_⟩
      -- the variable found stands in a term; any other was bound further down
      by_cases ho : name = other
      · subst ho
        obtain rfl : key = d :=
          Option.some.inj ((hσ name key (Bindings.get?_bind_self b name key)).symm.trans hd)
        obtain ⟨e, he, t, ht, hn'⟩ := nextRange_eq_some hn
        obtain ⟨c, hc, hkeys⟩ := Term.standsAt_of_nextRange t hn'
        exact ⟨e, he, t, ht, c, hc.mono hσb, by rw [← hkeys]; exact hkey⟩
      · exact hassigns other d ((Bindings.get?_bind_of_ne key ho).trans hb) hd

/-- Where all trials come out `false`, no extension makes all expressions hold. -/
theorem not_satisfied_of_trials (b : Bindings) (h : ∀ τ ∈ trials es b, outcome es τ = .ok false) :
    ∀ σ : Bindings, σ.Extends b → ¬ Satisfied es σ := by
  induction b using search_induct es with
  | step b ih =>
    intro σ hσ hsat
    by_cases hn : ∃ range, nextRange b es = .ok (some range)
    · obtain ⟨⟨name, keys⟩, hn⟩ := hn
      -- the extension binds the variable found to one of its keys, so it extends that branch
      obtain ⟨key, hkey, hget⟩ := bound_of_nextRange hσ hsat hn
      refine ih name keys hn key (fun τ hτ => h τ ?_) σ (hσ.bind hget) hsat
      rw [trials_of_range hn]
      exact List.mem_flatMap.2 ⟨key, hkey, hτ⟩
    · have hfalse := h b (by rw [trials_of_not_range fun range hr => hn ⟨range, hr⟩]; simp)
      unfold outcome at hfalse
      split at hfalse
      · cases hfalse
      · obtain ⟨e, he, hf⟩ := Fallible.allM_eq_false hfalse
        have := hsat e he
        rw [holds_mono hσ hf] at this; cases this

/-- Without a variable to search for, the expression holds or not under the bindings themselves. -/
theorem evaluate_of_closed {e : Expression} (h : nextRange b [e] = .ok none) :
    e.evaluate b = e.holds b := by
  rw [evaluate, search_of_none h, Fallible.allM_singleton]

end PolicyClient.Expression
