/-
What a decision says without the bindings, and that it says the same as evaluation. A query without
expressions holds under all bindings, so it settles a disjunction wherever it stands: evaluation comes
to `true` unless a query in front of it fails (`evaluate_of_empty`). The decision on a response is read
off its member `queries`, and what else stands in the result is kept (`Residue.Reports`).
-/
import Mathlib
import PolicyClient.Evaluation.Decision
import PolicyClient.Proofs.Fallible
import PolicyClient.Query.Residue

namespace PolicyClient

/-! ## Queries without expressions -/

/-- A query without expressions holds. -/
theorem Query.evaluate_of_empty {q : Query} (hq : q.expressions = []) (b : Bindings) :
    q.evaluate b = .ok true := by
  unfold evaluate
  rw [hq, Expression.search_of_none (by rfl)]
  rfl

/-- A query set with a query without expressions is never `false`. -/
theorem QuerySet.evaluate_ne_false {s : QuerySet} (hs : ∃ q ∈ s.queries, q.expressions = [])
    (b : Bindings) : s.evaluate b ≠ .ok false := by
  obtain ⟨q, hq, hempty⟩ := hs
  intro h
  have hfalse := Fallible.anyM_eq_false_iff.1 h q hq
  rw [Query.evaluate_of_empty hempty] at hfalse
  cases hfalse

namespace Decision

variable {s : QuerySet}

theorem of_eq_unsatisfiable_iff {queries : Option QuerySet} :
    of queries = .unsatisfiable ↔ ∀ s, queries = some s → s.queries = [] := by
  cases queries with
  | none => simp [of]
  | some s =>
    simp only [of, List.isEmpty_iff, Option.some.injEq, forall_eq']
    split_ifs with hempty <;> simp [hempty]

theorem of_eq_unconditional_iff {queries : Option QuerySet} :
    of queries = .unconditional ↔ ∃ s, queries = some s ∧ ∃ q ∈ s.queries, q.expressions = [] := by
  cases queries with
  | none => simp [of]
  | some s =>
    simp only [of, List.isEmpty_iff, List.any_eq_true, Option.some.injEq, exists_eq_left']
    split_ifs with hempty hany
    · simp [hempty]
    · simp [hany]
    · simp [hany]

/-- Without a query that holds anyway, a decision is evaluated as its query set. -/
theorem evaluate_of_nonempty (hs : ∀ q ∈ s.queries, q.expressions ≠ []) (b : Bindings) :
    (of (some s)).evaluate b = s.evaluate b := by
  simp only [of]
  split_ifs with hempty hany
  · rw [List.isEmpty_iff] at hempty
    unfold QuerySet.evaluate
    rw [hempty]
    rfl
  · obtain ⟨q, hq, hqe⟩ := List.any_eq_true.1 hany
    exact absurd (List.isEmpty_iff.1 hqe) (hs q hq)
  · rfl

theorem evaluate_of_empty (hs : ∃ q ∈ s.queries, q.expressions = []) (b : Bindings) :
    (of (some s)).evaluate b = .ok true := by
  rw [of_eq_unconditional_iff.2 ⟨s, rfl, hs⟩]
  rfl

end Decision

/-! ## Responses -/

namespace Document

/-- The member of an object under a name. -/
def member? : Document → String → Option Document
  | .object members, name => Members.get? members name
  | _, _ => none

/-- The member under a name that says something: `null` is as good as none. -/
def given? (d : Document) (name : String) : Option Document :=
  match d.member? name with
  | some .null => none
  | found => found

end Document

namespace Members

theorem get?_erase (members : Members) (name other : String) :
    (members.erase name).get? other = if other = name then none else members.get? other := by
  induction members with
  | nil => simp [erase, get?]
  | cons entry rest ih =>
    obtain ⟨key, value⟩ := entry
    unfold erase at ih ⊢
    by_cases hkey : key = name
    · subst hkey
      rw [List.filter_cons_of_neg (by simp), ih]
      split_ifs with hother
      · rfl
      · rw [get?, if_neg (Ne.symm hother)]
    · rw [List.filter_cons_of_pos (by simpa using hkey), get?, get?, ih]
      split_ifs with h₁ h₂ <;> simp_all

end Members

/-- A query set without queries is read from the empty array only. -/
theorem QuerySet.queries_eq_nil_iff {d : Document} {s : QuerySet} (h : ofDocument d = .ok s) :
    s.queries = [] ↔ d = .array [] := by
  cases d with
  | array items =>
    obtain ⟨queries, hqueries, rfl⟩ := Fallible.map_eq_ok.1 h
    rw [Document.array.injEq, ← Fallible.eq_nil_iff_of_mapM hqueries]
  | _ => cases h

/-- A query without expressions is read from the empty array only. -/
theorem Query.expressions_eq_nil_iff {d : Document} {q : Query} (h : ofDocument d = .ok q) :
    q.expressions = [] ↔ d = .array [] := by
  cases d with
  | array items =>
    obtain ⟨expressions, hexpressions, rfl⟩ := Fallible.map_eq_ok.1 h
    rw [Document.array.injEq, ← Fallible.eq_nil_iff_of_mapM hexpressions]
  | _ => cases h

theorem QuerySet.exists_empty_iff {d : Document} {s : QuerySet} (h : ofDocument d = .ok s) :
    (∃ q ∈ s.queries, q.expressions = []) ↔ ∃ items, d = .array items ∧ .array [] ∈ items := by
  cases d with
  | array items =>
    obtain ⟨queries, hqueries, rfl⟩ := Fallible.map_eq_ok.1 h
    constructor
    · rintro ⟨q, hq, hempty⟩
      obtain ⟨item, hitem, hread⟩ := Fallible.mem_of_mapM hqueries hq
      rw [(Query.expressions_eq_nil_iff hread).1 hempty] at hitem
      exact ⟨items, rfl, hitem⟩
    · rintro ⟨_, ⟨⟩, hitem⟩
      obtain ⟨q, hq, hread⟩ := Fallible.exists_mem_of_mapM hqueries hitem
      exact ⟨q, hq, (Query.expressions_eq_nil_iff hread).2 rfl⟩
  | _ => cases h

namespace Residue

/-- What a response says of the residue that is read from it. The queries are those under `queries` of
its result, and what stands beside them is kept. -/
structure Reports (response : Document) (r : Residue) : Prop where
  unsatisfiable : Decision.of r.queries = .unsatisfiable ↔
    response.given? "result" = none ∨ (∃ result, response.given? "result" = some result ∧
      (result.given? "queries" = none ∨ result.given? "queries" = some (.array [])))
  unconditional : Decision.of r.queries = .unconditional ↔
    ∃ result, response.given? "result" = some result ∧
      ∃ items, result.given? "queries" = some (.array items) ∧ .array [] ∈ items
  nothing_beside : response.given? "result" = none → r.other = []
  beside : ∀ members, response.given? "result" = some (.object members) →
    r.other.Sublist members ∧
      ∀ name, r.other.get? name = if name = "queries" then none else Members.get? members name

/-- The queries of a result are read from the member that says something. -/
theorem ofResult_eq_ok {result : Document} {r : Residue} (h : ofResult result = .ok r) :
    ∃ members, result = .object members ∧ r.other = Members.erase members "queries" ∧
      ((result.given? "queries" = none ∧ r.queries = none) ∨
        ∃ d s, result.given? "queries" = some d ∧ r.queries = some s ∧
          QuerySet.ofDocument d = .ok s) := by
  cases result with
  | object members =>
    refine ⟨members, rfl, ?_⟩
    simp only [ofResult] at h
    simp only [Document.given?, Document.member?]
    split at h
    · next hget => cases h; rw [hget]; exact ⟨rfl, .inl ⟨rfl, rfl⟩⟩
    · next hget => cases h; rw [hget]; exact ⟨rfl, .inl ⟨rfl, rfl⟩⟩
    · next d hnull hget =>
      obtain ⟨queries, hqueries, h⟩ := Fallible.bind_eq_ok.1 h
      obtain ⟨s, hs, rfl⟩ := Fallible.map_eq_ok.1 hqueries
      cases h
      rw [hget]
      exact ⟨rfl, .inr ⟨d, s, by split <;> simp_all, rfl, hs⟩⟩
  | _ => cases h

/-- A response without a result that says something has an empty residue; any other has the residue
of its result. -/
theorem ofDocument_eq_ok {response : Document} {r : Residue} (h : ofDocument response = .ok r) :
    (response.given? "result" = none ∧ r = ⟨none, []⟩) ∨
      ∃ result, response.given? "result" = some result ∧ ofResult result = .ok r := by
  cases response with
  | object members =>
    simp only [ofDocument] at h
    simp only [Document.given?, Document.member?]
    split at h
    · next hget => cases h; rw [hget]; exact .inl ⟨rfl, rfl⟩
    · next hget => cases h; rw [hget]; exact .inl ⟨rfl, rfl⟩
    · next result hnull hget =>
      rw [hget]
      exact .inr ⟨result, by split <;> simp_all, h⟩
  | _ => cases h

theorem reports_of_ofDocument {response : Document} {r : Residue} (h : ofDocument response = .ok r) :
    Reports response r := by
  rcases ofDocument_eq_ok h with ⟨hnone, rfl⟩ | ⟨result, hsome, hresult⟩
  · refine ⟨?_, ?_, fun _ => rfl, ?_⟩ <;> simp [hnone, Decision.of]
  · obtain ⟨members, rfl, hother, hqueries⟩ := ofResult_eq_ok hresult
    have hbeside : r.other.Sublist members ∧
        ∀ name, r.other.get? name = if name = "queries" then none else Members.get? members name := by
      rw [hother]
      exact ⟨List.filter_sublist, Members.get?_erase members "queries"⟩
    refine ⟨?_, ?_, by simp [hsome], fun members' hmembers => ?_⟩
    · rw [Decision.of_eq_unsatisfiable_iff]
      rcases hqueries with ⟨hnone, hq⟩ | ⟨d, s, hd, hq, hs⟩
      · simp [hsome, hnone, hq]
      · simp [hsome, hd, hq, QuerySet.queries_eq_nil_iff hs]
    · rw [Decision.of_eq_unconditional_iff]
      rcases hqueries with ⟨hnone, hq⟩ | ⟨d, s, hd, hq, hs⟩
      · simp [hsome, hnone, hq]
      · simp [hsome, hd, hq, QuerySet.exists_empty_iff hs]
    · rw [hsome] at hmembers
      cases hmembers
      exact hbeside

end Residue

/-! ## Decisions and evaluation -/

/-- A decision comes to what its query set comes to, but that a query without expressions makes it `true`
also where evaluation fails on a query in front. On a response it is unsatisfiable exactly if no queries
are given, or none at all, and unconditional exactly if one of them is empty. -/
theorem decision_agrees :
    (∀ (s : QuerySet) (b : Bindings),
      ((∀ q ∈ s.queries, q.expressions ≠ []) →
        (Decision.of (some s)).evaluate b = s.evaluate b) ∧
      ((∃ q ∈ s.queries, q.expressions = []) →
        (Decision.of (some s)).evaluate b = .ok true ∧
          (s.evaluate b = .ok true ∨ ∃ e, s.evaluate b = .error e)) ∧
      ∀ r r', (Decision.of (some s)).evaluate b = .ok r → s.evaluate b = .ok r' → r = r') ∧
    ∀ response r, Residue.ofDocument response = .ok r → Residue.Reports response r := by
  have hsettled : ∀ (s : QuerySet) (b : Bindings), (∃ q ∈ s.queries, q.expressions = []) →
      s.evaluate b = .ok true ∨ ∃ e, s.evaluate b = .error e := by
    intro s b hempty
    rcases h : s.evaluate b with e | (_ | _)
    · exact .inr ⟨e, rfl⟩
    · exact absurd h (QuerySet.evaluate_ne_false hempty b)
    · exact .inl rfl
  refine ⟨fun s b => ⟨fun h => Decision.evaluate_of_nonempty h b, fun h =>
    ⟨Decision.evaluate_of_empty h b, hsettled s b h⟩, fun r r' hr hr' => ?_⟩,
    fun response r h => Residue.reports_of_ofDocument h⟩
  by_cases hempty : ∃ q ∈ s.queries, q.expressions = []
  · rw [Decision.evaluate_of_empty hempty] at hr
    rcases hsettled s b hempty with htrue | ⟨e, herr⟩
    · rw [htrue] at hr'; exact Except.ok.inj (hr.symm.trans hr')
    · rw [herr] at hr'; cases hr'
  · have hnonempty : ∀ q ∈ s.queries, q.expressions ≠ [] := fun q hq he => hempty ⟨q, hq, he⟩
    rw [Decision.evaluate_of_nonempty hnonempty, hr'] at hr
    exact (Except.ok.inj hr).symm

/-- A query that cannot be answered in front of one that holds. -/
def settledBehind : QuerySet :=
  ⟨[⟨[⟨0, [.path "lt" [], .text "large", .numeric (.ofInt 5)]⟩]⟩, ⟨[]⟩]⟩

/-- The second query settles the decision, while evaluation fails on the first. -/
theorem decision_agrees_settledBehind :
    (Decision.of (some settledBehind)).evaluate .empty = .ok true ∧
      settledBehind.evaluate .empty = .error (.incomparable "string" "number") ∧
      ∃ r, Residue.ofDocument (.object [("result",
          .object [("queries", .array [.array []]), ("support", .array [])])]) = .ok r ∧
        Decision.of r.queries = .unconditional ∧ r.other.get? "support" = some (.array []) := by
  have hread : Residue.ofDocument (.object [("result",
      .object [("queries", .array [.array []]), ("support", .array [])])]) =
        .ok ⟨some ⟨[⟨[]⟩]⟩, [("support", .array [])]⟩ := by cbv
  have hreports := decision_agrees.2 _ _ hread
  refine ⟨((decision_agrees.1 settledBehind .empty).2.1 ⟨⟨[]⟩, by simp [settledBehind], rfl⟩).1,
    by cbv, _, hread, hreports.unconditional.2 ?_, ?_⟩
  · exact ⟨_, rfl, _, rfl, by simp⟩
  · rw [(hreports.beside _ rfl).2]; rfl

end PolicyClient
