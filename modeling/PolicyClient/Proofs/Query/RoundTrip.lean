/-
Queries that are written and read again. A tree that a document holds, at any level, is read back
from its own document as an equal tree, and that tree is written as the same document
(`write_read_write`): reading and writing once settles all that can change.
-/
import Mathlib
import PolicyClient.Proofs.Term.RoundTrip
import PolicyClient.Query.Wire

namespace PolicyClient

open Fallible

/-! ## Expressions -/

namespace Expression

/-- The expression with its numbers settled. -/
def settled (e : Expression) : Expression :=
  ⟨e.index, Term.settledAll e.terms⟩

/-- All terms of an expression are proper. -/
def Proper (e : Expression) : Prop :=
  ∀ t ∈ e.terms, t.Proper

theorem settled_equal (e : Expression) : e.settled.equal e = true := by
  unfold equal
  rw [settled, beq_self_eq_true, Term.equalAll_settledAll fun t _ => t.settled_equal]
  rfl

theorem proper_of_termsOf {members : Members} {ts : List Term} (h : termsOf members = .ok ts) :
    ∀ t ∈ ts, t.Proper := by
  unfold termsOf at h
  intro t ht
  split at h
  · cases h
  · rw [Term.ofDocuments_eq_mapM] at h
    obtain ⟨d, -, hd⟩ := mem_of_mapM h ht
    exact Term.proper_of_ofDocument hd
  · obtain ⟨u, hu, rfl⟩ := map_eq_ok.1 h
    rw [List.mem_singleton.1 ht]
    exact Term.proper_of_ofDocument hu
  · cases h

theorem proper_of_ofDocument {d : Document} {e : Expression} (h : ofDocument d = .ok e) :
    e.Proper := by
  cases d with
  | object members =>
    obtain ⟨index, -, h⟩ := bind_eq_ok.1 h
    obtain ⟨terms, hterms, h⟩ := bind_eq_ok.1 h
    cases h
    exact proper_of_termsOf hterms
  | _ => cases h

/-- A proper expression is read back from its document with its numbers settled. -/
theorem stable_of_proper {e : Expression} (he : e.Proper) :
    Stable ofDocument toDocument settled e := by
  intro w hw
  obtain ⟨termDocs, hterms, rfl⟩ := map_eq_ok.1 hw
  obtain ⟨hterms1, hterms2⟩ :=
    Term.toDocuments_of_stable (fun t ht => Term.stable_of_proper (he t ht)) hterms
  have hindex : indexOf [("index", .ofNat e.index.toNat), ("terms", .array termDocs)] =
      .ok e.index := by
    simp only [indexOf, Members.get?, Document.ofNat, Numeral.word?_ofNat, if_pos]
  have htermsOf : termsOf [("index", .ofNat e.index.toNat), ("terms", .array termDocs)] =
      .ok (Term.settledAll e.terms) := by
    simp [termsOf, Members.get?, hterms1]
  constructor
  · rw [ofDocument, hindex, htermsOf]; rfl
  · rw [toDocument, settled, hterms2]; rfl

end Expression

/-! ## Queries and query sets -/

namespace Query

/-- The query with its numbers settled. -/
def settled (q : Query) : Query :=
  ⟨q.expressions.map Expression.settled⟩

/-- All expressions of a query are proper. -/
def Proper (q : Query) : Prop :=
  ∀ e ∈ q.expressions, e.Proper

theorem settled_equal (q : Query) : q.settled.equal q = true := by
  unfold equal
  rw [settled, List.length_map, beq_self_eq_true, ← List.map_prod_right_eq_zip, List.all_map]
  simp [Expression.settled_equal]

theorem proper_of_ofDocument {d : Document} {q : Query} (h : ofDocument d = .ok q) : q.Proper := by
  cases d with
  | array items =>
    obtain ⟨es, hes, rfl⟩ := map_eq_ok.1 h
    intro e he
    obtain ⟨item, -, hitem⟩ := mem_of_mapM hes he
    exact Expression.proper_of_ofDocument hitem
  | _ => cases h

/-- A proper query is read back from its document with its numbers settled. -/
theorem stable_of_proper {q : Query} (hq : q.Proper) : Stable ofDocument toDocument settled q := by
  intro w hw
  obtain ⟨docs, hdocs, rfl⟩ := map_eq_ok.1 hw
  obtain ⟨hdocs1, hdocs2⟩ := mapM_of_stable (fun e he => Expression.stable_of_proper (hq e he)) hdocs
  constructor
  · rw [ofDocument, hdocs1]; rfl
  · rw [toDocument, settled, hdocs2]; rfl

end Query

namespace QuerySet

/-- The query set with its numbers settled. -/
def settled (s : QuerySet) : QuerySet :=
  ⟨s.queries.map Query.settled⟩

/-- All queries of a query set are proper. -/
def Proper (s : QuerySet) : Prop :=
  ∀ q ∈ s.queries, q.Proper

theorem settled_equal (s : QuerySet) : s.settled.equal s = true := by
  unfold equal
  rw [settled, List.length_map, beq_self_eq_true, ← List.map_prod_right_eq_zip, List.all_map]
  simp [Query.settled_equal]

theorem proper_of_ofDocument {d : Document} {s : QuerySet} (h : ofDocument d = .ok s) : s.Proper := by
  cases d with
  | array items =>
    obtain ⟨qs, hqs, rfl⟩ := map_eq_ok.1 h
    intro q hq
    obtain ⟨item, -, hitem⟩ := mem_of_mapM hqs hq
    exact Query.proper_of_ofDocument hitem
  | _ => cases h

/-- A proper query set is read back from its document with its numbers settled. -/
theorem stable_of_proper {s : QuerySet} (hs : s.Proper) : Stable ofDocument toDocument settled s := by
  intro w hw
  obtain ⟨docs, hdocs, rfl⟩ := map_eq_ok.1 hw
  obtain ⟨hdocs1, hdocs2⟩ := mapM_of_stable (fun q hq => Query.stable_of_proper (hs q hq)) hdocs
  constructor
  · rw [ofDocument, hdocs1]; rfl
  · rw [toDocument, settled, hdocs2]; rfl

end QuerySet

/-! ## Trees of any level -/

/-- A tree that was read is written as a document that holds an equal tree, and this one is written as
that very document. -/
theorem Node.write_read_write {level : Level} {doc w : Document} {n : Node}
    (hread : Node.ofDocument level doc = .ok n) (hwrite : n.toDocument = .ok w) :
    ∃ n', Node.ofDocument level w = .ok n' ∧ n'.equal n = true ∧ n'.toDocument = .ok w := by
  cases level with
  | term =>
    obtain ⟨t, ht, rfl⟩ := map_eq_ok.1 hread
    obtain ⟨h1, h2⟩ := Term.stable_of_proper (Term.proper_of_ofDocument ht) w hwrite
    exact ⟨.term t.settled, map_eq_ok.2 ⟨_, h1, rfl⟩, t.settled_equal, h2⟩
  | expression =>
    obtain ⟨e, he, rfl⟩ := map_eq_ok.1 hread
    obtain ⟨h1, h2⟩ := Expression.stable_of_proper (Expression.proper_of_ofDocument he) w hwrite
    exact ⟨.expression e.settled, map_eq_ok.2 ⟨_, h1, rfl⟩, e.settled_equal, h2⟩
  | query =>
    obtain ⟨q, hq, rfl⟩ := map_eq_ok.1 hread
    obtain ⟨h1, h2⟩ := Query.stable_of_proper (Query.proper_of_ofDocument hq) w hwrite
    exact ⟨.query q.settled, map_eq_ok.2 ⟨_, h1, rfl⟩, q.settled_equal, h2⟩
  | querySet =>
    obtain ⟨s, hs, rfl⟩ := map_eq_ok.1 hread
    obtain ⟨h1, h2⟩ := QuerySet.stable_of_proper (QuerySet.proper_of_ofDocument hs) w hwrite
    exact ⟨.querySet s.settled, map_eq_ok.2 ⟨_, h1, rfl⟩, s.settled_equal, h2⟩

/-- The document of a number. -/
def numberDoc (whole : List Digit) (fraction : Option (List Digit)) (exponent : Option (Bool × List Digit))
    (h1 : whole ≠ [] := by decide) (h2 : whole.head? = some .zero → whole.length = 1 := by decide)
    (h3 : fraction ≠ some [] := by decide) (h4 : ∀ e ∈ exponent, e.2 ≠ [] := by decide) : Document :=
  Term.tagged "number" (.number ⟨false, whole, fraction, exponent, h1, h2, h3, h4⟩)

/-- The query set of one expression, whose terms are a set of numbers alone. -/
def numbersDoc (terms : Document → Document) (numbers : List Document) : Document :=
  .array [.array [.object
    [("index", .ofNat 3), ("terms", terms (Term.tagged "set" (.array numbers)))]]]

/-- The numbers `1e2`, `100` and `1.50` are a set of two, which is written as `100` and `1.50`. -/
theorem write_read_write_numbers :
    ∃ n w, Node.ofDocument .querySet (numbersDoc id [numberDoc [1] none (some (false, [2])),
        numberDoc [1, 0, 0] none none, numberDoc [1] (some [5, 0]) none]) = .ok n ∧
      n.toDocument = .ok w ∧
      w = numbersDoc (fun d => .array [d])
        [numberDoc [1, 0, 0] none none, numberDoc [1] (some [5, 0]) none] ∧
      ∃ n', Node.ofDocument .querySet w = .ok n' ∧ n'.equal n = true ∧ n'.toDocument = .ok w := by
  have hread : Node.ofDocument .querySet (numbersDoc id [numberDoc [1] none (some (false, [2])),
      numberDoc [1, 0, 0] none none, numberDoc [1] (some [5, 0]) none]) =
      .ok (.querySet ⟨[⟨[⟨3, [.set [.numeric ⟨1, -2, by decide, by decide⟩,
        .numeric ⟨150, 2, by decide, by decide⟩]]⟩]⟩]⟩) := by cbv
  have hwrite : Node.toDocument (.querySet ⟨[⟨[⟨3, [.set [.numeric ⟨1, -2, by decide, by decide⟩,
        .numeric ⟨150, 2, by decide, by decide⟩]]⟩]⟩]⟩) = .ok (numbersDoc (fun d => .array [d])
        [numberDoc [1, 0, 0] none none, numberDoc [1] (some [5, 0]) none]) := by cbv
  exact ⟨_, _, hread, hwrite, rfl, Node.write_read_write hread hwrite⟩

end PolicyClient
