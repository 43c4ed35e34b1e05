/-
Renaming variables. Evaluation compares names with names and reads nothing else of them, so an
injective renaming of the variables of a tree, and of the bindings with them, renames the variable of
an error and changes nothing else (`search_rename`). Two unbound names can be exchanged without
touching the bindings; where one of them is new to the tree, the exchange replaces the other by it
(`evaluate_replace`).
-/
import Mathlib
import PolicyClient.Proofs.Evaluation.Agreement
import PolicyClient.Proofs.Evaluation.Search

namespace PolicyClient

/-! ## Renamed trees -/

namespace Term

mutual

/-- The term with its variables renamed; the functions of calls name operators and are kept. -/
def rename (ρ : String → String) : Term → Term
  | .ref root keys => .ref (rename ρ root) (renameAll ρ keys)
  | .call function args => .call function (renameAll ρ args)
  | .var name => .var (ρ name)
  | .numeric value => .numeric value
  | .text value => .text value
  | .bool value => .bool value
  | .null => .null
  | .array items => .array (renameAll ρ items)
  | .set items => .set (renameAll ρ items)

/-- The terms with their variables renamed. -/
def renameAll (ρ : String → String) : List Term → List Term
  | [] => []
  | t :: ts => rename ρ t :: renameAll ρ ts

end

variable {ρ τ : String → String}

theorem renameAll_eq_map (ts : List Term) : renameAll ρ ts = ts.map (rename ρ) := by
  induction ts with
  | nil => rfl
  | cons t ts ih => rw [renameAll, ih, List.map_cons]

/-- Only the variables of a term matter to its renaming. -/
theorem rename_congr {t : Term} (h : ∀ name ∈ t.occurrences, ρ name = τ name) :
    t.rename ρ = t.rename τ := by
  have hitems : ∀ {items : List Term}, (∀ u ∈ items, (∀ name ∈ u.occurrences, ρ name = τ name) →
      u.rename ρ = u.rename τ) → (∀ name ∈ occurrencesAll items, ρ name = τ name) →
      items.map (rename ρ) = items.map (rename τ) := fun ih h =>
    List.map_congr_left fun u hu => ih u hu fun name hname => h name (mem_occurrencesAll.2 ⟨u, hu, hname⟩)
  induction t using Term.induct with
  | ref root keys ihr ihk =>
    rw [occurrences, List.forall_mem_append] at h
    rw [rename, rename, renameAll_eq_map, renameAll_eq_map, ihr h.1, hitems ihk h.2]
  | call function args _ ih =>
    rw [occurrences] at h
    rw [rename, rename, renameAll_eq_map, renameAll_eq_map, hitems ih h]
  | var name => rw [rename, rename, h name (by simp [occurrences])]
  | array items ih =>
    rw [occurrences] at h
    rw [rename, rename, renameAll_eq_map, renameAll_eq_map, hitems ih h]
  | set items ih =>
    rw [occurrences] at h
    rw [rename, rename, renameAll_eq_map, renameAll_eq_map, hitems ih h]
  | _ => rfl

end Term

namespace Expression

/-- The expression with the variables of its operands renamed. -/
def rename (ρ : String → String) (e : Expression) : Expression where
  index := e.index
  terms := match e.terms with
    | operator :: t :: ts => operator :: (t :: ts).map (Term.rename ρ)
    | terms => terms.map (Term.rename ρ)

variable {ρ τ : String → String}

theorem operands_rename (e : Expression) :
    (e.rename ρ).operands = e.operands.map (Term.rename ρ) := by
  obtain ⟨index, terms⟩ := e
  rcases terms with _ | ⟨operator, _ | ⟨t, ts⟩⟩ <;> rfl

theorem rename_congr {e : Expression} (h : ∀ name ∈ e.occurrences, ρ name = τ name) :
    e.rename ρ = e.rename τ := by
  have hoperands : e.operands.map (Term.rename ρ) = e.operands.map (Term.rename τ) :=
    List.map_congr_left fun t ht =>
      Term.rename_congr fun name hname => h name (Term.mem_occurrencesAll.2 ⟨t, ht, hname⟩)
  obtain ⟨index, terms⟩ := e
  rcases terms with _ | ⟨operator, _ | ⟨t, ts⟩⟩
  · rfl
  · exact congrArg (Expression.mk index) hoperands
  · exact congrArg (fun ts => Expression.mk index (operator :: ts)) hoperands

end Expression

/-- The query with the variables of its expressions renamed. -/
def Query.rename (ρ : String → String) (q : Query) : Query :=
  ⟨q.expressions.map (Expression.rename ρ)⟩

/-- The query set with the variables of its queries renamed. -/
def QuerySet.rename (ρ : String → String) (s : QuerySet) : QuerySet :=
  ⟨s.queries.map (Query.rename ρ)⟩

/-- The error with the variable that it reports renamed. -/
def EvalError.rename (ρ : String → String) : EvalError → EvalError
  | .unbound name => .unbound (ρ name)
  | e => e

/-! ## Renamed bindings -/

/-- What a name stands for under `b`, its new name stands for under `c`. -/
def Bindings.Renamed (ρ : String → String) (b c : Bindings) : Prop :=
  ∀ name, c.get? (ρ name) = b.get? name

variable {ρ : String → String} {b c : Bindings}

theorem Bindings.Renamed.bind (hρ : Function.Injective ρ) (h : Renamed ρ b c) (name : String)
    (d : Document) : Renamed ρ (b.bind name d) (c.bind (ρ name) d) := by
  intro other
  by_cases ho : name = other
  · subst ho; rw [get?_bind_self, get?_bind_self]
  · rw [get?_bind_of_ne d ho, get?_bind_of_ne d (hρ.ne ho)]; exact h other

open Bindings (Renamed)

/-! ## Looking up -/

/-- Only the error of an unbound variable shows a name. -/
theorem EvalError.rename_of_ne_unbound {α : Type} {x : Except EvalError α} {e : EvalError}
    (h : ∀ name, x ≠ .error (.unbound name)) (hx : x = .error e) : e.rename ρ = e := by
  cases e with
  | unbound name => exact absurd hx (h name)
  | _ => rfl

namespace Term

theorem walk_rename {keys : List Term}
    (h : ∀ k ∈ keys, resolve c (k.rename ρ) = (resolve b k).mapError (EvalError.rename ρ))
    (current : Document) : walk c current (keys.map (rename ρ)) =
      (walk b current keys).mapError (EvalError.rename ρ) := by
  induction keys generalizing current with
  | nil => rw [List.map_nil, walk, walk]; rfl
  | cons key keys ih =>
    obtain ⟨hkey, hkeys⟩ := List.forall_mem_cons.1 h
    rw [List.map_cons, walk_cons, walk_cons, hkey]
    rcases resolve b key with e | (_ | k)
    · rfl
    · rfl
    · dsimp only [Except.mapError]
      cases current.step k with
      | none => rfl
      | some next => exact ih hkeys next

theorem resolveAll_rename {ts : List Term}
    (h : ∀ t ∈ ts, resolve c (t.rename ρ) = (resolve b t).mapError (EvalError.rename ρ)) :
    resolveAll c (ts.map (rename ρ)) = (resolveAll b ts).mapError (EvalError.rename ρ) := by
  induction ts with
  | nil => rw [List.map_nil, resolveAll, resolveAll]; rfl
  | cons t ts ih =>
    obtain ⟨ht, hts⟩ := List.forall_mem_cons.1 h
    rw [List.map_cons, resolveAll_cons, resolveAll_cons, ht, ih hts]
    rcases resolve b t with e | (_ | d)
    · rfl
    · rfl
    · rcases resolveAll b ts with e | found <;> rfl

theorem applyTo_rename {function : Term} {operands : List Term}
    (h : ∀ t ∈ operands, resolve c (t.rename ρ) = (resolve b t).mapError (EvalError.rename ρ)) :
    applyTo c function (operands.map (rename ρ)) =
      (applyTo b function operands).mapError (EvalError.rename ρ) := by
  by_cases hlen : operands.length = 2
  · obtain ⟨left, right, rfl⟩ := List.length_eq_two.1 hlen
    rw [List.map_cons, List.map_singleton, applyTo_pair, applyTo_pair, h left (by simp), h right (by simp)]
    rcases hf : function.operator with e | ⟨name, op⟩
    · exact congrArg _ (EvalError.rename_of_ne_unbound (operator_ne_unbound function) hf).symm
    · rcases resolve b left with e | (_ | l) <;> rcases resolve b right with e' | (_ | r)
      -- both operands have documents, and the operator reads no variable
      case ok.some.ok.some =>
        dsimp only [Except.mapError]
        rcases ho : op.apply l r with e | answer
        · exact congrArg _ (EvalError.rename_of_ne_unbound (Operator.apply_ne_unbound op l r) ho).symm
        · rfl
      all_goals rfl
  · rw [applyTo_of_length_ne c function (by rwa [List.length_map]), List.length_map,
      applyTo_of_length_ne b function hlen]
    rcases hf : function.operator with e | ⟨name, op⟩
    · exact congrArg _ (EvalError.rename_of_ne_unbound (operator_ne_unbound function) hf).symm
    · rfl

/-- A renamed term stands for the same document. -/
theorem resolve_rename (h : Renamed ρ b c) (t : Term) :
    resolve c (t.rename ρ) = (resolve b t).mapError (EvalError.rename ρ) := by
  induction t using Term.induct with
  | ref root keys ihr ihk =>
    rw [rename, renameAll_eq_map, resolve_ref, resolve_ref, ihr]
    rcases resolve b root with e | (_ | start)
    · rfl
    · rfl
    · exact walk_rename ihk start
  | call function args _ ih =>
    rw [rename, renameAll_eq_map, resolve, resolve]
    exact applyTo_rename ih
  | var name =>
    rw [rename, resolve, resolve, h name]
    cases b.get? name <;> rfl
  | array items ih =>
    rw [rename, renameAll_eq_map, resolve_array, resolve_array, resolveAll_rename ih]
    rcases resolveAll b items with e | found <;> rfl
  | set items ih =>
    rw [rename, renameAll_eq_map, resolve_set, resolve_set, resolveAll_rename ih]
    rcases resolveAll b items with e | found <;> rfl
  | numeric d =>
    rw [rename, resolve, resolve]
    cases d.numeral <;> rfl
  | _ => rw [rename, resolve, resolve]; rfl

/-! ## Iteration variables -/

/-- What the search finds, with the variable renamed. -/
def renameFound (ρ : String → String) (found : Except EvalError (Option Range)) :
    Except EvalError (Option Range) :=
  (found.map (Option.map fun range => (ρ range.1, range.2))).mapError (EvalError.rename ρ)

theorem rename_eq_var {t : Term} {name : String} (h : t.rename ρ = .var name) :
    ∃ old, t = .var old ∧ name = ρ old := by
  cases t with
  | var old => rw [rename] at h; cases h; exact ⟨old, rfl, rfl⟩
  | _ => rw [rename] at h; cases h

theorem nextRangeAll_rename {ts : List Term}
    (h : ∀ t ∈ ts, nextRange c (t.rename ρ) = renameFound ρ (nextRange b t)) :
    nextRangeAll c (ts.map (rename ρ)) = renameFound ρ (nextRangeAll b ts) := by
  induction ts with
  | nil => rfl
  | cons t ts ih =>
    obtain ⟨ht, hts⟩ := List.forall_mem_cons.1 h
    rw [List.map_cons, nextRangeAll_cons, nextRangeAll_cons, ht, ih hts]
    rcases nextRange b t with e | (_ | range) <;> rfl

theorem nextKeyRange_rename (hbc : Renamed ρ b c) {keys : List Term}
    (h : ∀ k ∈ keys, nextRange c (k.rename ρ) = renameFound ρ (nextRange b k)) (current : Document) :
    nextKeyRange c current (keys.map (rename ρ)) = renameFound ρ (nextKeyRange b current keys) := by
  induction keys generalizing current with
  | nil => rfl
  | cons key keys ih =>
    obtain ⟨hkey, hkeys⟩ := List.forall_mem_cons.1 h
    rw [List.map_cons]
    by_cases hopen : ∃ name, key = .var name ∧ b.get? name = none
    · obtain ⟨name, rfl, hb⟩ := hopen
      rw [rename, nextKeyRange_open hb, nextKeyRange_open ((hbc name).trans hb)]
      rfl
    · have hb : ∀ name, key = .var name → b.get? name ≠ none :=
        fun name hname hfree => hopen ⟨name, hname, hfree⟩
      have hc : ∀ name, key.rename ρ = .var name → c.get? name ≠ none := by
        intro name hname
        obtain ⟨old, hold, rfl⟩ := rename_eq_var hname
        rw [hbc old]
        exact hb old hold
      rw [nextKeyRange_cons hb, nextKeyRange_cons hc, hkey, resolve_rename hbc key]
      rcases nextRange b key with e | (_ | range)
      · rfl
      · rcases resolve b key with e | (_ | k)
        · rfl
        · rfl
        · dsimp only [Except.mapError]
          cases current.step k with
          | none => rfl
          | some next => exact ih hkeys next
      · rfl

/-- In a renamed term the same variable is found, under its new name. -/
theorem nextRange_rename (hbc : Renamed ρ b c) (t : Term) :
    nextRange c (t.rename ρ) = renameFound ρ (nextRange b t) := by
  induction t using Term.induct with
  | ref root keys _ ih =>
    rw [rename, renameAll_eq_map, nextRange_ref, nextRange_ref, resolve_rename hbc root]
    rcases resolve b root with e | (_ | start)
    · rfl
    · rfl
    · exact nextKeyRange_rename hbc ih start
  | call function args _ ih =>
    rw [rename, renameAll_eq_map, nextRange, nextRange]
    exact nextRangeAll_rename ih
  | array items ih =>
    rw [rename, renameAll_eq_map, nextRange, nextRange]
    exact nextRangeAll_rename ih
  | set items ih =>
    rw [rename, renameAll_eq_map, nextRange, nextRange]
    exact nextRangeAll_rename ih
  | _ => rfl

end Term

/-! ## The search -/

namespace Expression

theorem holds_rename (hbc : Renamed ρ b c) (e : Expression) :
    (e.rename ρ).holds c = (e.holds b).mapError (EvalError.rename ρ) := by
  obtain ⟨index, terms⟩ := e
  unfold holds rename
  rcases terms with _ | ⟨operator, _ | ⟨t, ts⟩⟩
  · rfl
  · show ((operator.rename ρ).resolve c).map Document.isTruthy =
      ((operator.resolve b).map Document.isTruthy).mapError _
    rw [Term.resolve_rename hbc operator]
    rcases operator.resolve b with err | found <;> rfl
  · show (Term.applyTo c operator ((t :: ts).map (Term.rename ρ))).map Document.isTruthy =
      ((Term.applyTo b operator (t :: ts)).map Document.isTruthy).mapError _
    rw [Term.applyTo_rename fun u _ => Term.resolve_rename hbc u]
    rcases Term.applyTo b operator (t :: ts) with err | found <;> rfl

theorem nextRange_rename (hbc : Renamed ρ b c) (es : List Expression) :
    nextRange c (es.map (rename ρ)) = Term.renameFound ρ (nextRange b es) := by
  induction es with
  | nil => rfl
  | cons e es ih =>
    rw [List.map_cons, nextRange_cons, nextRange_cons, operands_rename,
      Term.nextRangeAll_rename fun t _ => Term.nextRange_rename hbc t, ih]
    rcases Term.nextRangeAll b e.operands with err | (_ | range) <;> rfl

/-- Both searches bind the same variable, under its two names, to the same keys, and come to the same
result. -/
theorem search_rename (hρ : Function.Injective ρ) (es : List Expression) (b : Bindings) :
    ∀ c, Renamed ρ b c →
      search (es.map (rename ρ)) c = (search es b).mapError (EvalError.rename ρ) := by
  induction b using search_induct es with
  | step b ih =>
    intro c hbc
    have hnext := nextRange_rename hbc es
    rcases hn : nextRange b es with err | (_ | ⟨name, keys⟩)
    · rw [hn] at hnext
      rw [search_of_error hn, search_of_error hnext]
      rfl
    · rw [hn] at hnext
      rw [search_of_none hn, search_of_none hnext, Fallible.allM_map, Fallible.allM_mapError]
      exact Fallible.allM_congr fun e _ => holds_rename hbc e
    · rw [hn] at hnext
      rw [search_of_range hn, search_of_range hnext, Fallible.anyM_mapError]
      exact Fallible.anyM_congr fun key _ => ih name keys hn key _ (hbc.bind hρ name key)

end Expression

/-! ## A new name for an unbound variable -/

/-- The name with `v` replaced by `w`. -/
def replaceName (v w name : String) : String :=
  if name = v then w else name

theorem swap_eq_replaceName {v w name : String} (h : name ≠ w) :
    Equiv.swap v w name = replaceName v w name := by
  unfold replaceName
  split
  · next hv => rw [hv, Equiv.swap_apply_left]
  · next hv => exact Equiv.swap_apply_of_ne_of_ne hv h

/-- Two unbound names can be exchanged. -/
theorem Bindings.renamed_swap {v w : String} (hv : b.get? v = none) (hw : b.get? w = none) :
    Renamed (Equiv.swap v w) b b := by
  intro name
  rcases eq_or_ne name v with rfl | hnv
  · rw [Equiv.swap_apply_left, hv, hw]
  · rcases eq_or_ne name w with rfl | hnw
    · rw [Equiv.swap_apply_right, hv, hw]
    · rw [Equiv.swap_apply_of_ne_of_ne hnv hnw]

theorem Expression.search_replace {v w : String} (hv : b.get? v = none) (hw : b.get? w = none)
    {es : List Expression} (hnew : w ∉ es.flatMap occurrences) :
    search (es.map (rename (replaceName v w))) b =
      (search es b).mapError (EvalError.rename (replaceName v w)) := by
  -- among the names of the expressions, the replacement is an exchange
  have hmap : es.map (rename (replaceName v w)) = es.map (rename (Equiv.swap v w)) := by
    refine List.map_congr_left fun e he => rename_congr fun name hname => ?_
    refine (swap_eq_replaceName ?_).symm
    rintro rfl
    exact hnew (List.mem_flatMap.2 ⟨e, he, hname⟩)
  rw [hmap, search_rename (Equiv.swap v w).injective es b b (Bindings.renamed_swap hv hw)]
  rcases hs : search es b with err | r
  · cases err with
    | unbound name =>
      have hne : name ≠ w := by
        rintro rfl
        exact hnew (unbound_of_search hs).1
      exact congrArg (fun found => Except.error (EvalError.unbound found)) (swap_eq_replaceName hne)
    | _ => rfl
  · rfl

/-- An unbound variable can be replaced by a name that is new and unbound: expressions, queries and
query sets have the same result, except that the error of the variable shows the new name. -/
theorem evaluate_replace {v w : String} {b : Bindings} (hv : b.get? v = none) (hw : b.get? w = none) :
    (∀ e : Expression, w ∉ (Node.expression e).names →
      (e.rename (replaceName v w)).evaluate b =
        (e.evaluate b).mapError (EvalError.rename (replaceName v w))) ∧
    (∀ q : Query, w ∉ (Node.query q).names →
      (q.rename (replaceName v w)).evaluate b =
        (q.evaluate b).mapError (EvalError.rename (replaceName v w))) ∧
    (∀ s : QuerySet, w ∉ (Node.querySet s).names →
      (s.rename (replaceName v w)).evaluate b =
        (s.evaluate b).mapError (EvalError.rename (replaceName v w))) := by
  have hquery : ∀ q : Query, w ∉ q.occurrences → (q.rename (replaceName v w)).evaluate b =
      (q.evaluate b).mapError (EvalError.rename (replaceName v w)) :=
    fun q hnew => Expression.search_replace hv hw hnew
  refine ⟨fun e hnew => ?_, fun q hnew => hquery q (mt NameSet.mem_ofList.2 hnew), fun s hnew => ?_⟩
  · have hone : w ∉ [e].flatMap Expression.occurrences := by
      rw [List.flatMap_singleton]
      exact mt NameSet.mem_ofList.2 hnew
    exact Expression.search_replace hv hw hone
  · unfold QuerySet.evaluate QuerySet.rename
    rw [Fallible.anyM_map, Fallible.anyM_mapError]
    refine Fallible.anyM_congr fun q hq => hquery q fun hmem => hnew (NameSet.mem_ofList.2 ?_)
    exact List.mem_flatMap.2 ⟨q, hq, hmem⟩

/-- Where a tag is found under `$01`, it is found under `index`; where nothing binds `$01` before it is
compared, the error is that of `index`. -/
theorem evaluate_replace_index :
    (draftSecond.evaluate (tags ["public", "draft"]) = .ok true ∧
      (draftSecond.rename (replaceName "$01" "index")).evaluate (tags ["public", "draft"]) = .ok true) ∧
    firstDraft.evaluate (inputOf []) = .error (.unbound "$01") ∧
      (firstDraft.rename (replaceName "$01" "index")).evaluate (inputOf []) =
        .error (.unbound "index") := by
  have htrue : draftSecond.evaluate (tags ["public", "draft"]) = .ok true := by cbv
  have herr : firstDraft.evaluate (inputOf []) = .error (.unbound "$01") := by cbv
  have hsecond := (evaluate_replace (v := "$01") (w := "index") (b := tags ["public", "draft"])
    (by cbv) (by cbv)).2.1 draftSecond (by decide)
  have hfirst := (evaluate_replace (v := "$01") (w := "index") (b := inputOf [])
    (by cbv) (by cbv)).2.1 firstDraft (by decide)
  rw [htrue] at hsecond
  rw [herr] at hfirst
  exact ⟨⟨htrue, hsecond⟩, herr, hfirst⟩

end PolicyClient
