/-
Query evaluation finds an assignment whenever it answers: `true` comes with an extension of the
bindings that makes every expression of some query hold and binds nothing but iteration variables,
each to a key of the collection at its position; `false` says that no extension whatsoever makes
every expression of a query hold (`evaluate_answers`).
-/
import Mathlib
import PolicyClient.Proofs.Evaluation.Trial

namespace PolicyClient

open Expression (Satisfied Assigns)

/-- What an answer under `b` tells of a disjunction of conjunctions. -/
structure Answers (queries : List (List Expression)) (b : Bindings) (r : Bool) : Prop where
  iff_satisfied : r = true ↔ ∃ es ∈ queries, ∃ σ : Bindings, σ.Extends b ∧ Satisfied es σ
  assigned : r = true → ∃ es ∈ queries, ∃ σ : Bindings, σ.Extends b ∧ Satisfied es σ ∧ Assigns es b σ

theorem Answers.of_anyM {queries : List (List Expression)} {b : Bindings} {r : Bool}
    (h : (queries.anyM fun es => Expression.search es b) = .ok r) : Answers queries b r := by
  cases r with
  | false =>
    -- every trial of every query came out false
    refine ⟨⟨nofun, ?_⟩, nofun⟩
    rintro ⟨es, hes, σ, hσ, hsat⟩
    have hfalse := Fallible.anyM_eq_false_iff.1 h es hes
    rw [Expression.search_eq_anyM] at hfalse
    have htrials := Fallible.anyM_eq_false_iff.1 hfalse
    exact absurd hsat (Expression.not_satisfied_of_trials b htrials σ hσ)
  | true =>
    -- the trial that settled the answer is the assignment
    obtain ⟨pre, es, post, rfl, -, htrue⟩ := (Fallible.anyM_eq_iff (by simp)).1 h
    rw [Expression.search_eq_anyM] at htrue
    obtain ⟨before, σ, behind, htrials, -, hσ⟩ := (Fallible.anyM_eq_iff (by simp)).1 htrue
    have hsat := Expression.outcome_eq_true_iff.1 hσ
    obtain ⟨hext, hassigns⟩ := Expression.assigns_of_mem_trials b σ (by rw [htrials]; simp)
    exact ⟨⟨fun _ => ⟨es, by simp, σ, hext, hsat⟩, fun _ => rfl⟩,
      fun _ => ⟨es, by simp, σ, hext, hsat, hassigns⟩⟩

/-- An answer of a query set, a query or an expression is `true` exactly when some extension of the
bindings makes every expression of one query hold. If it is, some such extension binds only
iteration variables of that query, each to a key of the collection at a position of the variable. -/
theorem evaluate_answers (b : Bindings) (r : Bool) :
    (∀ s : QuerySet, s.evaluate b = .ok r → Answers (s.queries.map (·.expressions)) b r) ∧
    (∀ q : Query, q.evaluate b = .ok r → Answers [q.expressions] b r) ∧
    (∀ e : Expression, e.evaluate b = .ok r → Answers [[e]] b r) := by
  refine ⟨fun s h => .of_anyM ?_, fun q h => .of_anyM ?_, fun e h => .of_anyM ?_⟩
  · rw [Fallible.anyM_map]; exact h
  · rw [Fallible.anyM_singleton]; exact h
  · rw [Fallible.anyM_singleton]; exact h

/-- Some tag of `input` is `draft`, and it is the second. -/
def draftSecond : Query :=
  ⟨[⟨0, [.path "eq" [], .ref (.var "input") [.text "tags", .var "$01"], .text "draft"]⟩,
    ⟨1, [.path "eq" [], .var "$01", .numeric (.ofInt 1)]⟩]⟩

/-- An input with the tags listed. -/
def tags (items : List String) : Bindings :=
  .bind .empty "input" (.object [("tags", .array (items.map .text))])

theorem evaluate_answers_draft_second :
    (QuerySet.mk [draftSecond]).evaluate (tags ["public", "draft"]) = .ok true ∧
      Answers [draftSecond.expressions] (tags ["public", "draft"]) true ∧
      draftSecond.evaluate (tags ["draft", "public"]) = .ok false ∧
      Answers [draftSecond.expressions] (tags ["draft", "public"]) false := by
  have htrue : (QuerySet.mk [draftSecond]).evaluate (tags ["public", "draft"]) = .ok true := by cbv
  have hfalse : draftSecond.evaluate (tags ["draft", "public"]) = .ok false := by cbv
  exact ⟨htrue, (evaluate_answers _ true).1 _ htrue, hfalse, (evaluate_answers _ false).2.1 _ hfalse⟩

end PolicyClient
