/-
Unbound variables. The search binds a variable when it finds it as a key of a reference whose
collection is defined; a variable that is read before that is an error. So the error of an iteration
variable comes from a root, which is looked up and not searched, from a key that is no variable, or
from a variable that stands for itself while no collection of it is reached (`evaluate_unbound`).
-/
import Mathlib
import PolicyClient.Proofs.Evaluation.Lookup

namespace PolicyClient

open Fallible

namespace Term

variable {b : Bindings} {name : String}

/-! ## Positions -/

/-- A variable stands for itself in a term: as the term, as an argument or as an item. -/
inductive Plain (name : String) : Term → Prop
  | var : Plain name (.var name)
  | arg {f a : Term} {args : List Term} : a ∈ args → Plain name a → Plain name (.call f args)
  | item {t : Term} {items : List Term} : t ∈ items → Plain name t → Plain name (.array items)
  | element {t : Term} {items : List Term} : t ∈ items → Plain name t → Plain name (.set items)

/-- A variable is looked up where the search passes: anywhere in the root of a reference, or
standing for itself in a key that is not the variable. -/
inductive Passed (name : String) : Term → Prop
  | root {root : Term} {keys : List Term} : name ∈ root.occurrences → Passed name (.ref root keys)
  | part {root k : Term} {keys : List Term} : k ∈ keys → k ≠ .var name → Plain name k →
      Passed name (.ref root keys)
  | key {root k : Term} {keys : List Term} : k ∈ keys → Passed name k → Passed name (.ref root keys)
  | arg {f a : Term} {args : List Term} : a ∈ args → Passed name a → Passed name (.call f args)
  | item {t : Term} {items : List Term} : t ∈ items → Passed name t → Passed name (.array items)
  | element {t : Term} {items : List Term} : t ∈ items → Passed name t → Passed name (.set items)

theorem Plain.mem_occurrences {t : Term} (h : Plain name t) : name ∈ t.occurrences := by
  induction h with
  | var => simp [occurrences]
  | arg ha _ ih => rw [occurrences]; exact mem_occurrencesAll.2 ⟨_, ha, ih⟩
  | item ht _ ih => rw [occurrences]; exact mem_occurrencesAll.2 ⟨_, ht, ih⟩
  | element ht _ ih => rw [occurrences]; exact mem_occurrencesAll.2 ⟨_, ht, ih⟩

theorem Passed.mem_occurrences {t : Term} (h : Passed name t) : name ∈ t.occurrences := by
  induction h with
  | root h => rw [occurrences]; exact List.mem_append_left _ h
  | part hk _ hplain =>
    rw [occurrences]
    exact List.mem_append_right _ (mem_occurrencesAll.2 ⟨_, hk, hplain.mem_occurrences⟩)
  | key hk _ ih =>
    rw [occurrences]; exact List.mem_append_right _ (mem_occurrencesAll.2 ⟨_, hk, ih⟩)
  | arg ha _ ih => rw [occurrences]; exact mem_occurrencesAll.2 ⟨_, ha, ih⟩
  | item ht _ ih => rw [occurrences]; exact mem_occurrencesAll.2 ⟨_, ht, ih⟩
  | element ht _ ih => rw [occurrences]; exact mem_occurrencesAll.2 ⟨_, ht, ih⟩

/-- The search comes past a term: the keys in front of it lead to a document. -/
inductive Reaches (b : Bindings) (u : Term) : Term → Prop
  | here : Reaches b u u
  | key {root k : Term} {before behind : List Term} {collection : Document} :
      resolve b (.ref root before) = .ok (some collection) → Reaches b u k →
      Reaches b u (.ref root (before ++ k :: behind))
  | arg {f a : Term} {args : List Term} : a ∈ args → Reaches b u a → Reaches b u (.call f args)
  | item {t : Term} {items : List Term} : t ∈ items → Reaches b u t → Reaches b u (.array items)
  | element {t : Term} {items : List Term} : t ∈ items → Reaches b u t → Reaches b u (.set items)

/-! ## Where the search passes without finding a variable -/

theorem nextRangeAll_eq_none_iff {ts : List Term} :
    nextRangeAll b ts = .ok none ↔ ∀ t ∈ ts, nextRange b t = .ok none := by
  refine ⟨fun h => ?_, nextRangeAll_of_defined⟩
  induction ts with
  | nil => simp
  | cons t ts ih =>
    rw [nextRangeAll_cons] at h
    split at h
    · cases h
    · cases h
    · next ht => exact List.forall_mem_cons.2 ⟨ht, ih h⟩

/-- A key that is passed is no unbound variable, and it is resolved. -/
theorem nextKeyRange_cons_eq_none {current : Document} {key : Term} {keys : List Term}
    (h : nextKeyRange b current (key :: keys) = .ok none) :
    (∀ name, key = .var name → b.get? name ≠ none) ∧ nextRange b key = .ok none ∧
      (resolve b key = .ok none ∨ ∃ k, resolve b key = .ok (some k) ∧
        ∀ next, current.step k = some next → nextKeyRange b next keys = .ok none) := by
  have hbound : ∀ name, key = .var name → b.get? name ≠ none := by
    rintro name rfl hfree
    rw [nextKeyRange_open hfree] at h; cases h
  rw [nextKeyRange_cons hbound] at h
  split at h
  · cases h
  · cases h
  · next hn =>
    refine ⟨hbound, hn, ?_⟩
    split at h
    · cases h
    · next hk => exact .inl hk
    · next k hk =>
      refine .inr ⟨k, hk, fun next hs => ?_⟩
      rwa [hs] at h

/-- Keys that are passed are walked without an error. -/
theorem walk_of_nextKeyRange {current : Document} {keys : List Term}
    (h : nextKeyRange b current keys = .ok none) : ∃ r, walk b current keys = .ok r := by
  induction keys generalizing current with
  | nil => exact ⟨some current, by rw [walk]⟩
  | cons key keys ih =>
    rw [walk_cons]
    obtain ⟨-, -, hk | ⟨k, hk, hnext⟩⟩ := nextKeyRange_cons_eq_none h
    · rw [hk]; exact ⟨none, rfl⟩
    · rw [hk]
      dsimp only
      cases hs : current.step k with
      | none => exact ⟨none, rfl⟩
      | some next => exact ih (hnext next hs)

theorem nextRange_ref_eq_none {root : Term} {keys : List Term}
    (h : nextRange b (.ref root keys) = .ok none) :
    resolve b root = .ok none ∨
      ∃ start, resolve b root = .ok (some start) ∧ nextKeyRange b start keys = .ok none := by
  rw [nextRange_ref] at h
  split at h
  · cases h
  · next hr => exact .inl hr
  · next start hr => exact .inr ⟨start, hr, h⟩

/-- Where no variable is found, only one that stands for itself is left to be read. -/
theorem plain_of_resolve {t : Term} (hn : nextRange b t = .ok none)
    (h : resolve b t = .error (.unbound name)) : Plain name t := by
  induction t using Term.induct with
  | ref root keys _ _ =>
    rw [resolve_ref] at h
    rcases nextRange_ref_eq_none hn with hr | ⟨start, hr, hkeys⟩
    · rw [hr] at h; cases h
    · obtain ⟨r, hw⟩ := walk_of_nextKeyRange hkeys
      rw [hr] at h
      dsimp only at h
      rw [hw] at h; cases h
  | call function args _ ih =>
    obtain ⟨a, ha, hr⟩ := applyTo_eq_unbound h
    exact .arg ha (ih a ha (nextRangeAll_eq_none_iff.1 hn a ha) hr)
  | var other =>
    rw [resolve] at h
    split at h
    · cases h
    · cases h; exact .var
  | array items ih =>
    rw [resolve_array] at h
    obtain ⟨t, ht, hr⟩ := resolveAll_eq_error (map_eq_error.1 h)
    exact .item ht (ih t ht (nextRangeAll_eq_none_iff.1 hn t ht) hr)
  | set items ih =>
    rw [resolve_set] at h
    obtain ⟨t, ht, hr⟩ := resolveAll_eq_error (map_eq_error.1 h)
    exact .element ht (ih t ht (nextRangeAll_eq_none_iff.1 hn t ht) hr)
  | numeric d =>
    rw [resolve] at h
    split at h <;> cases h
  | _ => cases h

/-! ## Where the search fails -/

theorem nextRangeAll_eq_error {ts : List Term} {err : EvalError}
    (h : nextRangeAll b ts = .error err) : ∃ t ∈ ts, nextRange b t = .error err := by
  induction ts with
  | nil => cases h
  | cons t ts ih =>
    rw [nextRangeAll_cons] at h
    split at h
    · next ht => cases h; exact ⟨t, by simp, ht⟩
    · cases h
    · obtain ⟨u, hu, hn⟩ := ih h
      exact ⟨u, by simp [hu], hn⟩

/-- The search fails at a key when it goes through the key, or when it looks the key up. -/
theorem nextKeyRange_eq_error {current : Document} {keys : List Term} {err : EvalError}
    (h : nextKeyRange b current keys = .error err) :
    ∃ k ∈ keys, nextRange b k = .error err ∨
      (∀ name, k = .var name → b.get? name ≠ none) ∧ nextRange b k = .ok none ∧
        resolve b k = .error err := by
  induction keys generalizing current with
  | nil => cases h
  | cons key keys ih =>
    by_cases hbound : ∀ name, key = .var name → b.get? name ≠ none
    · rw [nextKeyRange_cons hbound] at h
      split at h
      · next hn => cases h; exact ⟨key, by simp, .inl hn⟩
      · cases h
      · next hn =>
        split at h
        · next hk => cases h; exact ⟨key, by simp, .inr ⟨hbound, hn, hk⟩⟩
        · cases h
        · split at h
          · cases h
          · obtain ⟨k, hk, hfail⟩ := ih h
            exact ⟨k, by simp [hk], hfail⟩
    · push Not at hbound
      obtain ⟨other, rfl, hb⟩ := hbound
      rw [nextKeyRange_open hb] at h; cases h

/-- A variable at which the search fails is looked up where the search passes. -/
theorem passed_of_nextRange {t : Term} (h : nextRange b t = .error (.unbound name)) :
    Passed name t ∧ b.get? name = none := by
  induction t using Term.induct with
  | ref root keys _ ih =>
    rw [nextRange_ref] at h
    split at h
    · next hr =>
      cases h
      obtain ⟨hm, hb⟩ := unbound_of_resolve hr
      exact ⟨.root hm, hb⟩
    · cases h
    · obtain ⟨k, hk, hfail | ⟨hbound, hn, hr⟩⟩ := nextKeyRange_eq_error h
      · obtain ⟨hp, hb⟩ := ih k hk hfail
        exact ⟨.key hk hp, hb⟩
      · obtain ⟨-, hb⟩ := unbound_of_resolve hr
        exact ⟨.part hk (fun heq => hbound name heq hb) (plain_of_resolve hn hr), hb⟩
  | call function args _ ih =>
    obtain ⟨a, ha, hn⟩ := nextRangeAll_eq_error h
    obtain ⟨hp, hb⟩ := ih a ha hn
    exact ⟨.arg ha hp, hb⟩
  | array items ih =>
    obtain ⟨t, ht, hn⟩ := nextRangeAll_eq_error h
    obtain ⟨hp, hb⟩ := ih t ht hn
    exact ⟨.item ht hp, hb⟩
  | set items ih =>
    obtain ⟨t, ht, hn⟩ := nextRangeAll_eq_error h
    obtain ⟨hp, hb⟩ := ih t ht hn
    exact ⟨.element ht hp, hb⟩
  | _ => cases h

/-! ## Where the search has been -/

/-- Keys behind a document that the search has walked to are passed from there. -/
theorem nextKeyRange_of_reached {root : Term} {before keys : List Term} {collection : Document}
    (hc : resolve b (.ref root before) = .ok (some collection))
    (h : nextRange b (.ref root (before ++ keys)) = .ok none) :
    nextKeyRange b collection keys = .ok none := by
  obtain ⟨start, hr, hw⟩ := resolve_ref_eq_some hc
  rcases nextRange_ref_eq_none h with hnone | ⟨start', hr', hkeys⟩
  · rw [hr] at hnone; cases hnone
  · rw [hr] at hr'; cases hr'
    rwa [nextKeyRange_append hw] at hkeys

theorem nextRange_of_reaches {t u : Term} (hu : Reaches b u t) (h : nextRange b t = .ok none) :
    nextRange b u = .ok none := by
  induction hu with
  | here => exact h
  | key hc _ ih => exact ih (nextKeyRange_cons_eq_none (nextKeyRange_of_reached hc h)).2.1
  | arg ha _ ih => exact ih (nextRangeAll_eq_none_iff.1 h _ ha)
  | item ht _ ih => exact ih (nextRangeAll_eq_none_iff.1 h _ ht)
  | element ht _ ih => exact ih (nextRangeAll_eq_none_iff.1 h _ ht)

/-- A variable is found as a key in a term: the search comes past a reference whose keys in front of
the variable lead to a collection. -/
def Found (b : Bindings) (name : String) (t : Term) : Prop :=
  ∃ root before behind collection, Reaches b (.ref root (before ++ .var name :: behind)) t ∧
    resolve b (.ref root before) = .ok (some collection)

/-- Where the search passes, the variables that it finds are bound. -/
theorem bound_of_found {t : Term} (hf : Found b name t) (h : nextRange b t = .ok none) :
    b.get? name ≠ none := by
  obtain ⟨root, before, behind, collection, hr, hc⟩ := hf
  exact (nextKeyRange_cons_eq_none (nextKeyRange_of_reached hc (nextRange_of_reaches hr h))).1 name rfl

/-! ## Keys of defined terms -/

/-- A term stands in a term, the functions of calls aside. -/
inductive Within (u : Term) : Term → Prop
  | here : Within u u
  | root {r : Term} {keys : List Term} : Within u r → Within u (.ref r keys)
  | key {r k : Term} {keys : List Term} : k ∈ keys → Within u k → Within u (.ref r keys)
  | arg {f a : Term} {args : List Term} : a ∈ args → Within u a → Within u (.call f args)
  | item {t : Term} {items : List Term} : t ∈ items → Within u t → Within u (.array items)
  | element {t : Term} {items : List Term} : t ∈ items → Within u t → Within u (.set items)

theorem walk_append_eq_some {current d : Document} {before keys : List Term}
    (h : walk b current (before ++ keys) = .ok (some d)) :
    ∃ collection, walk b current before = .ok (some collection) ∧
      walk b collection keys = .ok (some d) := by
  induction before generalizing current with
  | nil => exact ⟨current, by rw [walk], h⟩
  | cons key before ih =>
    obtain ⟨k, next, hk, hs, hw⟩ := walk_cons_eq_some.1 h
    obtain ⟨collection, hbefore, hkeys⟩ := ih hw
    exact ⟨collection, walk_cons_eq_some.2 ⟨k, next, hk, hs, hbefore⟩, hkeys⟩

/-- What stands in a defined term is defined. -/
theorem defined_of_within {t u : Term} (hu : Within u t) :
    (∃ d, resolve b t = .ok (some d)) → ∃ d, resolve b u = .ok (some d) := by
  induction hu with
  | here => exact id
  | root _ ih =>
    rintro ⟨d, h⟩
    obtain ⟨start, hr, -⟩ := resolve_ref_eq_some h
    exact ih ⟨start, hr⟩
  | key hk _ ih =>
    rintro ⟨d, h⟩
    obtain ⟨start, -, hw⟩ := resolve_ref_eq_some h
    obtain ⟨before, behind, rfl⟩ := List.append_of_mem hk
    obtain ⟨c, -, hw⟩ := walk_append_eq_some hw
    obtain ⟨v, -, hv, -⟩ := walk_cons_eq_some.1 hw
    exact ih ⟨v, hv⟩
  | arg ha _ ih => rintro ⟨d, h⟩; exact ih (applyTo_eq_some h _ ha)
  | item ht _ ih => rintro ⟨d, h⟩; rw [resolve_array] at h; exact ih (items_eq_some h _ ht)
  | element ht _ ih => rintro ⟨d, h⟩; rw [resolve_set] at h; exact ih (items_eq_some h _ ht)

/-- A variable in a defined reference is bound to a key of the collection at its position. -/
theorem key_of_defined {root : Term} {before behind : List Term} {d : Document}
    (h : resolve b (.ref root (before ++ .var name :: behind)) = .ok (some d)) :
    ∃ collection, resolve b (.ref root before) = .ok (some collection) ∧
      ∃ key ∈ collection.keys, b.get? name = some key := by
  obtain ⟨start, hr, hw⟩ := resolve_ref_eq_some h
  obtain ⟨collection, hbefore, hw⟩ := walk_append_eq_some hw
  obtain ⟨k, next, hk, hs, -⟩ := walk_cons_eq_some.1 hw
  refine ⟨collection, by rw [resolve_ref, hr]; exact hbefore, k, Document.mem_keys_of_step hs, ?_⟩
  rw [resolve] at hk
  split at hk
  · next v hv => cases hk; exact hv
  · cases hk

end Term

namespace Expression

variable {b : Bindings} {es : List Expression} {name : String}

/-! ## Failing trials -/

theorem nextRange_eq_error {err : EvalError} (h : nextRange b es = .error err) :
    ∃ e ∈ es, ∃ t ∈ e.operands, t.nextRange b = .error err := by
  induction es with
  | nil => cases h
  | cons e es ih =>
    rw [nextRange_cons] at h
    split at h
    · next hn => cases h; exact ⟨e, by simp, Term.nextRangeAll_eq_error hn⟩
    · cases h
    · obtain ⟨e', he, hfail⟩ := ih h
      exact ⟨e', by simp [he], hfail⟩

theorem nextRange_eq_none (h : nextRange b es = .ok none) :
    ∀ e ∈ es, ∀ t ∈ e.operands, t.nextRange b = .ok none := by
  induction es with
  | nil => simp
  | cons e es ih =>
    rw [nextRange_cons] at h
    split at h
    · cases h
    · cases h
    · next hn => exact List.forall_mem_cons.2 ⟨Term.nextRangeAll_eq_none_iff.1 hn, ih h⟩

/-- No variable is left to be found in a trial. -/
theorem nextRange_of_mem_trials (b : Bindings) :
    ∀ τ ∈ trials es b, ∀ range, nextRange τ es ≠ .ok (some range) := by
  induction b using search_induct es with
  | step b ih =>
    intro τ hτ range
    by_cases hn : ∃ range, nextRange b es = .ok (some range)
    · obtain ⟨⟨other, keys⟩, hn⟩ := hn
      rw [trials_of_range hn] at hτ
      obtain ⟨key, -, hτ⟩ := List.mem_flatMap.1 hτ
      exact ih other keys hn key τ hτ range
    · have hone := trials_of_not_range fun range hr => hn ⟨range, hr⟩
      rw [hone, List.mem_singleton] at hτ
      subst hτ
      exact fun hr => hn ⟨range, hr⟩

/-- The search fails where the first trial that does not come out `false` fails. -/
theorem search_eq_error_iff {err : EvalError} : search es b = .error err ↔
    ∃ before τ behind, trials es b = before ++ τ :: behind ∧
      (∀ σ ∈ before, outcome es σ = .ok false) ∧ outcome es τ = .error err := by
  rw [search_eq_anyM]
  exact anyM_eq_iff (by simp)

end Expression

open Expression (Satisfied trials outcome)
open Term (Plain Passed Found Within)

/-! ## Iteration variables -/

/-- Some operand of a query has a property. -/
def Query.SomeOperand (q : Query) (p : Term → Prop) : Prop :=
  ∃ e ∈ q.expressions, ∃ t ∈ e.operands, p t

/-- A trial fails at a variable that is looked up where the search passes, or that stands for itself
while the search does not find it as a key. -/
theorem unbound_of_outcome {q : Query} {b τ : Bindings} {x : String}
    (hτ : τ ∈ trials q.expressions b) (h : outcome q.expressions τ = .error (.unbound x)) :
    τ.get? x = none ∧ (q.SomeOperand (Passed x) ∨
      q.SomeOperand (Plain x) ∧ ¬ q.SomeOperand (Found τ x)) := by
  unfold outcome at h
  split at h
  · next hn =>
    cases h
    obtain ⟨e, he, t, ht, hfail⟩ := Expression.nextRange_eq_error hn
    obtain ⟨hp, hb⟩ := Term.passed_of_nextRange hfail
    exact ⟨hb, .inl ⟨e, he, t, ht, hp⟩⟩
  · next range hn =>
    -- a trial leaves no variable to be found, so every variable found is bound
    obtain rfl : range = none := by
      cases range with
      | none => rfl
      | some range => exact absurd hn (Expression.nextRange_of_mem_trials b τ hτ range)
    have hnone := Expression.nextRange_eq_none hn
    obtain ⟨e, he, hfail⟩ := allM_eq_error h
    obtain ⟨t, ht, hr⟩ := Expression.unbound_of_holds hfail
    obtain ⟨-, hb⟩ := Term.unbound_of_resolve hr
    refine ⟨hb, .inr ⟨⟨e, he, t, ht, Term.plain_of_resolve (hnone e he t ht) hr⟩, ?_⟩⟩
    rintro ⟨e', he', t', ht', hf⟩
    exact Term.bound_of_found hf (hnone e' he' t' ht') hb

/-- A variable is reported as unbound exactly when the first trial that does not come out `false` fails
at it. There it stands in a root, plainly in a key that is no variable, or for itself while no
collection of it is reached; and a query is `true` only if every collection that the variable is a key
of is defined and has the key that the variable is bound to. -/
theorem evaluate_unbound (q : Query) (b : Bindings) (x : String) :
    (q.evaluate b = .error (.unbound x) ↔ ∃ before τ behind,
      trials q.expressions b = before ++ τ :: behind ∧
        (∀ σ ∈ before, outcome q.expressions σ = .ok false) ∧
        outcome q.expressions τ = .error (.unbound x)) ∧
    (∀ τ ∈ trials q.expressions b, outcome q.expressions τ = .error (.unbound x) →
      τ.get? x = none ∧ (q.SomeOperand (Passed x) ∨
        q.SomeOperand (Plain x) ∧ ¬ q.SomeOperand (Found τ x))) ∧
    (q.evaluate b = .ok true → ∃ σ ∈ trials q.expressions b, Satisfied q.expressions σ ∧
      ∀ root before behind, q.SomeOperand (Within (.ref root (before ++ .var x :: behind))) →
        ∃ collection, Term.resolve σ (.ref root before) = .ok (some collection) ∧
          ∃ key ∈ collection.keys, σ.get? x = some key) := by
  refine ⟨Expression.search_eq_error_iff, fun τ hτ h => unbound_of_outcome hτ h, fun h => ?_⟩
  unfold Query.evaluate at h
  rw [Expression.search_eq_anyM] at h
  obtain ⟨pre, σ, post, htrials, -, hσ⟩ := (anyM_eq_iff (by simp)).1 h
  have hsat := Expression.outcome_eq_true_iff.1 hσ
  refine ⟨σ, by rw [htrials]; simp, hsat, ?_⟩
  rintro root before behind ⟨e, he, t, ht, hwithin⟩
  have hdefined := Expression.operands_of_holds (hsat e he) t ht
  obtain ⟨d, hd⟩ := Term.defined_of_within hwithin hdefined
  exact Term.key_of_defined hd

/-- Some member of `input` has an `ok` that is not false. The member is asked for in the root. -/
def someOk : Query :=
  ⟨[⟨0, [.ref (.ref (.var "input") [.var "$01"]) [.text "ok"]]⟩]⟩

/-- The first tag of `input` is `draft`; which tag it is, is said before it is compared. -/
def firstDraft : Query :=
  ⟨[⟨0, [.path "eq" [], .var "$01", .numeric (.ofInt 0)]⟩,
    ⟨1, [.path "eq" [], .ref (.var "input") [.text "tags", .var "$01"], .text "draft"]⟩]⟩

/-- The input is an object with the members listed. -/
def inputOf (members : Members) : Bindings :=
  .bind .empty "input" (.object members)

theorem not_found_firstDraft :
    firstDraft.evaluate (inputOf []) = .error (.unbound "$01") ∧
      ¬ firstDraft.SomeOperand (Passed "$01") ∧
      ∃ τ ∈ trials firstDraft.expressions (inputOf []), τ.get? "$01" = none ∧
        firstDraft.SomeOperand (Plain "$01") ∧ ¬ firstDraft.SomeOperand (Found τ "$01") := by
  have hpassed : ¬ firstDraft.SomeOperand (Passed "$01") := by
    rintro ⟨e, he, t, ht, hp⟩
    fin_cases he <;> fin_cases ht <;> cases hp
    case root h => simp [Term.occurrences] at h
    case part k hne hplain hk => fin_cases hk <;> cases hplain; exact hne rfl
    case key k hpassed hk => fin_cases hk <;> cases hpassed
  have herr : firstDraft.evaluate (inputOf []) = .error (.unbound "$01") := by cbv
  obtain ⟨hexact, htrial, -⟩ := evaluate_unbound firstDraft (inputOf []) "$01"
  obtain ⟨before, τ, behind, htrials, -, hτ⟩ := hexact.1 herr
  have hmem : τ ∈ trials firstDraft.expressions (inputOf []) := by rw [htrials]; simp
  obtain ⟨hfree, hcases⟩ := htrial τ hmem hτ
  exact ⟨herr, hpassed, τ, hmem, hfree, hcases.resolve_left hpassed⟩

/-- A key in a root is not searched, though an assignment satisfies the query; and a key whose
collection is missing is an error or not, depending on which expression comes first. -/
theorem evaluate_key_unbound :
    (someOk.SomeOperand (Within (.ref (.var "input") [.var "$01"])) ∧
      Satisfied someOk.expressions
        ((inputOf [("a", .object [("ok", .bool true)])]).bind "$01" (.text "a")) ∧
      someOk.evaluate (inputOf [("a", .object [("ok", .bool true)])]) = .error (.unbound "$01")) ∧
    firstDraft.SomeOperand (Within (.ref (.var "input") [.text "tags", .var "$01"])) ∧
    firstDraft.evaluate (inputOf []) = .error (.unbound "$01") ∧
    (Query.mk firstDraft.expressions.reverse).evaluate (inputOf []) = .ok false := by
  refine ⟨⟨⟨_, .head _, _, .head _, .root .here⟩, ?_, by cbv⟩,
    ⟨_, .tail _ (.head _), _, .head _, .here⟩, by cbv, by cbv⟩
  exact Expression.outcome_eq_true_iff.1 (by cbv)

end PolicyClient
