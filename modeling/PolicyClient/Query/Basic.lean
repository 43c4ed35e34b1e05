/-
Residual queries. An expression is one clause, a query is the conjunction of its expressions, and a
query set is the disjunction of its queries.
-/
import PolicyClient.Term.Render
import PolicyClient.Term.Variables

namespace PolicyClient

/-- One clause of a query: a single term, or an operator and its operands. -/
structure Expression where
  index : UInt64
  terms : List Term

/-- A conjunction of expressions. -/
structure Query where
  expressions : List Expression

/-- A disjunction of queries. -/
structure QuerySet where
  queries : List Query

/-! ## Expressions -/

namespace Expression

instance : Inhabited Expression := ⟨⟨0, []⟩⟩

/-- The first of several terms. -/
def operator? (e : Expression) : Option Term :=
  match e.terms with
  | operator :: _ :: _ => some operator
  | _ => none

/-- The terms behind the operator, or all terms if there is none. -/
def operands (e : Expression) : List Term :=
  match e.terms with
  | _ :: t :: ts => t :: ts
  | terms => terms

/-- Equality of the indices and of the terms. -/
def equal (a b : Expression) : Bool :=
  a.index == b.index && Term.equalAll a.terms b.terms

/-- An expression in the notation for readers. -/
def render (e : Expression) : String :=
  match e.operator? with
  | some operator =>
    operator.render ++ "(" ++ String.intercalate ", " (Term.renderAll e.operands) ++ ")"
  | none => String.intercalate " " (Term.renderAll e.terms)

/-- The variables of an expression in order of occurrence; its operator is passed over. -/
def occurrences (e : Expression) : List String :=
  Term.occurrencesAll e.operands

end Expression

/-! ## Queries -/

namespace Query

/-- Equality expression by expression. -/
def equal (a b : Query) : Bool :=
  a.expressions.length == b.expressions.length &&
    (a.expressions.zip b.expressions).all fun (e, f) => e.equal f

/-- A query in the notation for readers; without expressions it is true. -/
def render (q : Query) : String :=
  match q.expressions with
  | [] => "TRUE"
  | expressions => String.intercalate " AND " (expressions.map Expression.render)

/-- The variables of a query in order of occurrence. -/
def occurrences (q : Query) : List String :=
  q.expressions.flatMap Expression.occurrences

end Query

/-! ## Query sets -/

namespace QuerySet

/-- Equality query by query. -/
def equal (a b : QuerySet) : Bool :=
  a.queries.length == b.queries.length && (a.queries.zip b.queries).all fun (p, q) => p.equal q

/-- A query set in the notation for readers; without queries it is false. -/
def render (s : QuerySet) : String :=
  match s.queries with
  | [] => "FALSE"
  | queries => String.intercalate " OR " (queries.map fun q => "(" ++ q.render ++ ")")

/-- The variables of a query set in order of occurrence. -/
def occurrences (s : QuerySet) : List String :=
  s.queries.flatMap Query.occurrences

end QuerySet

/-! ## Nodes -/

/-- A tree at any of its levels. -/
inductive Node
  | term (t : Term)
  | expression (e : Expression)
  | query (q : Query)
  | querySet (s : QuerySet)

namespace Node

/-- The variables of a tree in order of occurrence. -/
def occurrences : Node → List String
  | .term t => t.occurrences
  | .expression e => e.occurrences
  | .query q => q.occurrences
  | .querySet s => s.occurrences

/-- The names of the variables of a tree. -/
def names (n : Node) : NameSet :=
  NameSet.ofList n.occurrences

/-- The names gathered so far and those of one more tree. -/
def gather (names : NameSet) (n : Node) : NameSet :=
  names.insertAll n.occurrences

/-- A tree in the notation for readers. -/
def render : Node → String
  | .term t => t.render
  | .expression e => e.render
  | .query q => q.render
  | .querySet s => s.render

end Node
end PolicyClient
