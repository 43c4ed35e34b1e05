/-
Queries with all variables bound. Before any expression is evaluated, the search looks through all
operands, and on its way it looks up what stands in references; a failure there would come before
the answer of the first expression. Where all variables are bound and the references are paths of keys
that can be looked up, this passes without a find and without a failure (`nextRange_of_paths`), so the
query is its expressions one after the other (`evaluate_in_order`).
-/
import Mathlib
import PolicyClient.Proofs.Evaluation.Agreement
import PolicyClient.Proofs.Query.Grammar
import PolicyClient.Proofs.Term.Number

namespace PolicyClient

/-! ## Numbers without an exponent -/

/-- A number that is written without an exponent is no padded zero. -/
theorem Numeral.not_isPaddedZero {n : Numeral} {d : Decimal} (hplain : n.exponent = none)
    (h : n.decimal? = some d) : ¬ d.IsPaddedZero := by
  have hscale : d.scale = (n.fraction.getD []).length - Decimal.power n.exponent := (parts_of_decimal? h).2
  rw [hplain, Decimal.power] at hscale
  intro hzero
  have := hzero.2.2
  omega

namespace Term

variable {b : Bindings}

/-! ## Paths -/

/-- A key that can be looked up once its variables are bound: a variable, a literal, a number that is
written without an exponent, or a reference from a variable by such keys. -/
inductive PathKey : Term → Prop
  | var (name : String) : PathKey (.var name)
  | text (value : String) : PathKey (.text value)
  | bool (value : Bool) : PathKey (.bool value)
  | null : PathKey .null
  | number {n : Numeral} {d : Decimal} (hplain : n.exponent = none) (hread : n.decimal? = some d) :
      PathKey (.numeric d)
  | path {name : String} {keys : List Term} (hkeys : ∀ k ∈ keys, PathKey k) :
      PathKey (.ref (.var name) keys)

/-- The references of a key are keys themselves. -/
theorem PathKey.of_within {t root : Term} {keys : List Term} (h : PathKey t)
    (hw : Within (.ref root keys) t) : PathKey (.ref root keys) := by
  induction h with
  | path hkeys ih =>
    cases hw with
    | here => exact .path hkeys
    | root hw => cases hw
    | key hk hw => exact ih _ hk hw
  | _ => cases hw

/-- Keys that can be looked up are passed. -/
theorem nextKeyRange_of_resolved {keys : List Term}
    (h : ∀ k ∈ keys, nextRange b k = .ok none ∧ ∃ r, resolve b k = .ok r) (current : Document) :
    nextKeyRange b current keys = .ok none := by
  induction keys generalizing current with
  | nil => rfl
  | cons key keys ih =>
    obtain ⟨⟨hnext, r, hr⟩, hkeys⟩ := List.forall_mem_cons.1 h
    rw [nextKeyRange_cons (bound_of_resolve hr), hnext, hr]
    rcases r with _ | k
    · rfl
    · dsimp only
      cases current.step k with
      | none => rfl
      | some next => exact ih hkeys next

theorem resolved_of_pathKey {t : Term} (ht : PathKey t)
    (hbound : ∀ name ∈ t.occurrences, b.get? name ≠ none) :
    nextRange b t = .ok none ∧ ∃ r, resolve b t = .ok r := by
  induction ht with
  | var name =>
    obtain ⟨d, hd⟩ := Option.ne_none_iff_exists'.1 (hbound name (by simp [occurrences]))
    exact ⟨rfl, some d, by rw [resolve, hd]⟩
  | text value => exact ⟨rfl, some (.text value), by rw [resolve]⟩
  | bool value => exact ⟨rfl, some (.bool value), by rw [resolve]⟩
  | null => exact ⟨rfl, some .null, by rw [resolve]⟩
  | number hplain hread =>
    obtain ⟨n, hn⟩ := (Decimal.numeral_eq_ok_iff _).2 (Numeral.not_isPaddedZero hplain hread)
    exact ⟨rfl, some (.number n), resolve_numeric hn b⟩
  | @path name keys _ ih =>
    rw [occurrences] at hbound
    obtain ⟨start, hstart⟩ := Option.ne_none_iff_exists'.1 (hbound name (by simp [occurrences]))
    have hroot : resolve b (.var name) = .ok (some start) := by rw [resolve, hstart]
    have hkeys : nextKeyRange b start keys = .ok none :=
      nextKeyRange_of_resolved (fun k hk => ih k hk fun other ho =>
        hbound other (List.mem_append_right _ (mem_occurrencesAll.2 ⟨k, hk, ho⟩))) start
    rw [nextRange_ref, resolve_ref, hroot]
    exact ⟨hkeys, walk_of_nextKeyRange hkeys⟩

/-- In a term whose references are paths, the search finds nothing once all variables are bound. -/
theorem nextRange_of_paths {t : Term}
    (hpaths : ∀ root keys, Within (.ref root keys) t → PathKey (.ref root keys))
    (hbound : ∀ name ∈ t.occurrences, b.get? name ≠ none) : nextRange b t = .ok none := by
  have hitems : ∀ {items : List Term} {u : Term}, u ∈ items →
      (∀ name ∈ occurrencesAll items, b.get? name ≠ none) → ∀ name ∈ u.occurrences, b.get? name ≠ none :=
    fun hu hall name hname => hall name (mem_occurrencesAll.2 ⟨_, hu, hname⟩)
  induction t using Term.induct with
  | ref root keys _ _ => exact (resolved_of_pathKey (hpaths root keys .here) hbound).1
  | call function args _ ih =>
    rw [occurrences] at hbound
    exact nextRangeAll_of_defined fun a ha =>
      ih a ha (fun root keys hw => hpaths root keys (.arg ha hw)) (hitems ha hbound)
  | array items ih =>
    rw [occurrences] at hbound
    exact nextRangeAll_of_defined fun u hu =>
      ih u hu (fun root keys hw => hpaths root keys (.item hu hw)) (hitems hu hbound)
  | set items ih =>
    rw [occurrences] at hbound
    exact nextRangeAll_of_defined fun u hu =>
      ih u hu (fun root keys hw => hpaths root keys (.element hu hw)) (hitems hu hbound)
  | _ => rfl

end Term

/-! ## One expression after the other -/

/-- Where no operand has a variable to search for, every expression is evaluated by itself. -/
theorem Expression.search_eq_allM {b : Bindings} {es : List Expression}
    (h : ∀ e ∈ es, ∀ t ∈ e.operands, t.nextRange b = .ok none) :
    search es b = es.allM fun e => e.evaluate b := by
  rw [search_of_none (nextRange_of_operands h)]
  refine Fallible.allM_congr fun e he => ?_
  rw [evaluate_of_closed (nextRange_of_operands (List.forall_mem_singleton.2 (h e he)))]

/-- Every reference among the operands of a query is a path. -/
def Query.OnlyPaths (q : Query) : Prop :=
  ∀ e ∈ q.expressions, ∀ t ∈ e.operands, ∀ root keys, Term.Within (.ref root keys) t →
    Term.PathKey (.ref root keys)

/-- A query of paths with all its variables bound is evaluated expression by expression: the first that
is not `true` gives the result, so what stands behind it is not looked at. -/
theorem evaluate_in_order {q : Query} {b : Bindings}
    (hbound : ∀ name ∈ (Node.query q).names, b.get? name ≠ none) (hpaths : q.OnlyPaths) :
    q.evaluate b = (q.expressions.allM fun e => e.evaluate b) ∧
    ((∀ e ∈ q.expressions, e.evaluate b = .ok true) → q.evaluate b = .ok true) ∧
    ∀ before e behind, q.expressions = before ++ e :: behind →
      (∀ x ∈ before, x.evaluate b = .ok true) → e.evaluate b ≠ .ok true →
      q.evaluate b = e.evaluate b := by
  have hall : q.evaluate b = q.expressions.allM fun e => e.evaluate b :=
    Expression.search_eq_allM fun e he t ht =>
      Term.nextRange_of_paths (hpaths e he t ht) fun name hname =>
        hbound name (NameSet.mem_ofList.2 (List.mem_flatMap.2
          ⟨e, he, Term.mem_occurrencesAll.2 ⟨t, ht, hname⟩⟩))
  refine ⟨hall, fun htrue => ?_, fun before e behind hsplit hbefore he => ?_⟩
  · rw [hall]; exact Fallible.allM_eq_true_iff.2 htrue
  · rw [hall, hsplit]; exact Fallible.allM_of_first behind hbefore he

/-- The flag of a tag is set, and the tags are less than 5. -/
def flagOfTag : Query :=
  ⟨[⟨0, [.path "eq" [], .ref (.var "input") [.text "flags", .ref (.var "input") [.text "tags", .var "k"]],
      .bool true]⟩,
    ⟨1, [.path "lt" [], .path "input" ["tags"], .numeric (.ofInt 5)]⟩]⟩

/-- An input with one tag, which has no flag. -/
def unflaggedTag : Bindings :=
  .bind (.bind .empty "input" (.object [("flags", .object [("draft", .bool true)]),
    ("tags", .array [.text "public"])])) "k" (.ofNat 0)

/-- The first expression is false, so the tags are not compared with a number, which is an error. -/
theorem evaluate_in_order_flagOfTag :
    (∀ name ∈ (Node.query flagOfTag).names, unflaggedTag.get? name ≠ none) ∧ flagOfTag.OnlyPaths ∧
      (∃ e ∈ flagOfTag.expressions, e.evaluate unflaggedTag = .error (.incomparable "array" "number")) ∧
      flagOfTag.evaluate unflaggedTag = .ok false := by
  have hbound : ∀ name ∈ (Node.query flagOfTag).names, unflaggedTag.get? name ≠ none := by
    rw [show (Node.query flagOfTag).names = ["input", "k"] by cbv]
    exact List.forall_mem_cons.2 ⟨by decide, List.forall_mem_singleton.2 (by decide)⟩
  have htag : (Term.ref (.var "input") [.text "tags", .var "k"]).PathKey :=
    .path (by simp [Term.PathKey.text, Term.PathKey.var])
  have hfive : (Term.numeric (.ofInt 5)).PathKey := .number (n := .ofNat 5) rfl (by cbv)
  have hkeys : ∀ e ∈ flagOfTag.expressions, ∀ t ∈ e.operands, t.PathKey := by
    refine List.forall_mem_cons.2 ⟨List.forall_mem_cons.2 ⟨.path ?_, ?_⟩, List.forall_mem_singleton.2
      (List.forall_mem_cons.2 ⟨.path ?_, ?_⟩)⟩
    · simp [Term.PathKey.text, htag]
    · simp [Term.PathKey.bool]
    · simp [Term.PathKey.text]
    · simp [hfive]
  have hpaths : flagOfTag.OnlyPaths := fun e he t ht root keys hw => (hkeys e he t ht).of_within hw
  refine ⟨hbound, hpaths, ⟨_, List.mem_cons_of_mem _ List.mem_cons_self, by cbv⟩, ?_⟩
  have hfalse : (Expression.mk 0 [.path "eq" [], .ref (.var "input") [.text "flags",
      .ref (.var "input") [.text "tags", .var "k"]], .bool true]).evaluate unflaggedTag = .ok false := by cbv
  rw [(evaluate_in_order hbound hpaths).2.2 [] _ _ rfl (List.forall_mem_nil _) (by rw [hfalse]; simp), hfalse]

end PolicyClient
