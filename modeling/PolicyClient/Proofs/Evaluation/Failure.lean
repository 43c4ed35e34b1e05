/-
What an error hides. A trial that fails ends the search, so an assignment that satisfies a query is
found exactly when some satisfying trial comes before every failing one; otherwise the error of a
failing trial is the result (`evaluate_eq_true_iff_of_satisfiable`). In which order the elements of a
collection stand decides between the two (`evaluate_mixed_sizes`).
-/
import Mathlib
import PolicyClient.Proofs.Evaluation.Trial

namespace PolicyClient

namespace Expression

variable {b : Bindings} {es : List Expression}

/-- Some trial under which all expressions hold comes before every trial that fails. -/
def Reached (es : List Expression) (b : Bindings) : Prop :=
  ∃ before σ behind, trials es b = before ++ σ :: behind ∧ Satisfied es σ ∧
    ∀ τ ∈ before, ∀ err, outcome es τ ≠ .error err

theorem search_eq_true_iff : search es b = .ok true ↔ Reached es b := by
  rw [search_eq_anyM]
  constructor
  · intro h
    obtain ⟨before, σ, behind, htrials, hfalse, hσ⟩ := (Fallible.anyM_eq_iff (by simp)).1 h
    refine ⟨before, σ, behind, htrials, outcome_eq_true_iff.1 hσ, fun τ hτ err herr => ?_⟩
    rw [hfalse τ hτ] at herr; cases herr
  · rintro ⟨before, σ, behind, htrials, hsat, hnone⟩
    rw [htrials, Fallible.anyM_append, Fallible.anyM_cons, outcome_eq_true_iff.2 hsat]
    rcases hbefore : before.anyM (outcome es) with err | (_ | _)
    · obtain ⟨pre, τ, post, rfl, -, hτ⟩ := (Fallible.anyM_eq_iff (by simp)).1 hbefore
      exact absurd hτ (hnone τ (by simp) err)
    · rfl
    · rfl

/-- A search that is neither `true` nor `false` has the error of a trial. -/
theorem failing_of_search {err : EvalError} (h : search es b = .error err) :
    ∃ τ ∈ trials es b, outcome es τ = .error err := by
  rw [search_eq_anyM] at h
  obtain ⟨before, τ, behind, htrials, -, hτ⟩ := (Fallible.anyM_eq_iff (by simp)).1 h
  exact ⟨τ, by rw [htrials]; simp, hτ⟩

theorem search_ne_false {σ : Bindings} (hσ : σ.Extends b) (hsat : Satisfied es σ) :
    search es b ≠ .ok false := by
  intro h
  rw [search_eq_anyM] at h
  exact not_satisfied_of_trials b (Fallible.anyM_eq_false_iff.1 h) σ hσ hsat

end Expression

open Expression (Satisfied Assigns Reached trials outcome)

/-! ## Queries that some assignment satisfies -/

/-- A query that some extension of the bindings satisfies is `true` exactly when a satisfying trial
comes before every failing one, so whenever no trial fails; otherwise it has the error of a trial. -/
theorem evaluate_eq_true_iff_of_satisfiable {q : Query} {b σ : Bindings} (hσ : σ.Extends b)
    (hsat : Satisfied q.expressions σ) :
    (q.evaluate b = .ok true ↔ Reached q.expressions b) ∧
    ((∀ τ ∈ trials q.expressions b, ∀ err, outcome q.expressions τ ≠ .error err) →
      q.evaluate b = .ok true) ∧
    (¬ Reached q.expressions b → ∃ τ ∈ trials q.expressions b, ∃ err,
      outcome q.expressions τ = .error err ∧ q.evaluate b = .error err) := by
  have hcases : q.evaluate b = .ok true ∨ ∃ τ ∈ trials q.expressions b, ∃ err,
      outcome q.expressions τ = .error err ∧ q.evaluate b = .error err := by
    unfold Query.evaluate
    rcases h : Expression.search q.expressions b with err | (_ | _)
    · obtain ⟨τ, hτ, herr⟩ := Expression.failing_of_search h
      exact .inr ⟨τ, hτ, err, herr, rfl⟩
    · exact absurd h (Expression.search_ne_false hσ hsat)
    · exact .inl rfl
  refine ⟨Expression.search_eq_true_iff, fun hnone => ?_, fun hreached => ?_⟩
  · rcases hcases with h | ⟨τ, hτ, err, herr, -⟩
    · exact h
    · exact absurd herr (hnone τ hτ err)
  · rcases hcases with h | h
    · exact absurd (Expression.search_eq_true_iff.1 h) hreached
    · exact h

/-- Some element of `input.sizes` is less than 5. -/
def smallSize : Query :=
  ⟨[⟨0, [.path "lt" [], .ref (.var "input") [.text "sizes", .var "$01"], .numeric (.ofInt 5)]⟩]⟩

/-- An input with the sizes listed. -/
def sizes (items : List Document) : Bindings :=
  .bind .empty "input" (.object [("sizes", .array items)])

theorem not_reached_mixed_sizes :
    Satisfied smallSize.expressions ((sizes [.text "large", .ofNat 3]).bind "$01" (.ofNat 1)) ∧
      ¬ Reached smallSize.expressions (sizes [.text "large", .ofNat 3]) := by
  have hsat : Satisfied smallSize.expressions
      ((sizes [.text "large", .ofNat 3]).bind "$01" (.ofNat 1)) :=
    Expression.outcome_eq_true_iff.1 (by cbv)
  refine ⟨hsat, fun hreached => ?_⟩
  have htrue := (evaluate_eq_true_iff_of_satisfiable
    (Bindings.bind_extends (by decide) (.ofNat 1)) hsat).1.2 hreached
  have herr : smallSize.evaluate (sizes [.text "large", .ofNat 3]) =
      .error (.incomparable "string" "number") := by cbv
  rw [htrue] at herr; cases herr

/-- The index 1 satisfies the query, but the text before it cannot be compared, and its error is the
result; in the other order the same element is found. -/
theorem evaluate_mixed_sizes :
    (∃ σ : Bindings, σ.Extends (sizes [.text "large", .ofNat 3]) ∧
      Assigns smallSize.expressions (sizes [.text "large", .ofNat 3]) σ ∧
      Satisfied smallSize.expressions σ) ∧
    smallSize.evaluate (sizes [.text "large", .ofNat 3]) = .error (.incomparable "string" "number") ∧
    smallSize.evaluate (sizes [.ofNat 3, .text "large"]) = .ok true := by
  have htrials : trials smallSize.expressions (sizes [.text "large", .ofNat 3]) =
      [(sizes [.text "large", .ofNat 3]).bind "$01" (.ofNat 0),
        (sizes [.text "large", .ofNat 3]).bind "$01" (.ofNat 1)] := by cbv
  have hmem : (sizes [.text "large", .ofNat 3]).bind "$01" (.ofNat 1) ∈
      trials smallSize.expressions (sizes [.text "large", .ofNat 3]) := by rw [htrials]; simp
  obtain ⟨hσ, hassigns⟩ := Expression.assigns_of_mem_trials _ _ hmem
  refine ⟨⟨_, hσ, hassigns, ?_⟩, by cbv, by cbv⟩
  exact Expression.outcome_eq_true_iff.1 (by cbv)

end PolicyClient
