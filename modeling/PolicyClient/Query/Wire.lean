/-
Queries as documents. An expression is an object with an `index` and its `terms`, which may be one
term alone; a query is an array of expressions and a query set an array of queries.
-/
import PolicyClient.Query.Basic
import PolicyClient.Term.Wire

namespace PolicyClient

/-! ## Expressions -/

namespace Expression

/-- The index of an expression: zero unless there is a number under `index`. -/
def indexOf (members : Members) : Except DecodeError UInt64 :=
  match members.get? "index" with
  | none => .ok 0
  | some .null => .ok 0
  | some (.number n) =>
    match n.word? with
    | some index => .ok index
    | none => .error (.badIndex n.text)
  | some other => .error (.indexNotNumber other.kind)

/-- The terms of an expression: an array of them, or one alone. -/
def termsOf (members : Members) : Except DecodeError (List Term) :=
  match members.get? "terms" with
  | none => .error .termsMissing
  | some (.array items) => Term.ofDocuments items
  | some (.object members) => (Term.ofDocument (.object members)).map fun t => [t]
  | some other => .error (.badTerms other.kind)

/-- The expression that a document holds; its index is looked at before its terms. -/
def ofDocument : Document → Except DecodeError Expression
  | .object members => do
    let index ← indexOf members
    let terms ← termsOf members
    return ⟨index, terms⟩
  | other => .error (.notObject "expression" other.kind)

/-- The document of an expression. -/
def toDocument (e : Expression) : Except Document.ReadError Document :=
  (Term.toDocuments e.terms).map fun terms =>
    .object [("index", .ofNat e.index.toNat), ("terms", .array terms)]

end Expression

/-! ## Queries and query sets -/

namespace Query

/-- The query that a document holds. -/
def ofDocument : Document → Except DecodeError Query
  | .array items => (items.mapM Expression.ofDocument).map Query.mk
  | other => .error (.notArray "query" "expressions" other.kind)

/-- The document of a query. -/
def toDocument (q : Query) : Except Document.ReadError Document :=
  (q.expressions.mapM Expression.toDocument).map .array

end Query

namespace QuerySet

/-- The query set that a document holds. -/
def ofDocument : Document → Except DecodeError QuerySet
  | .array items => (items.mapM Query.ofDocument).map QuerySet.mk
  | other => .error (.notArray "query set" "queries" other.kind)

/-- The document of a query set. -/
def toDocument (s : QuerySet) : Except Document.ReadError Document :=
  (s.queries.mapM Query.toDocument).map .array

end QuerySet

/-! ## Trees of any level -/

/-- The levels of a tree. -/
inductive Level
  | term
  | expression
  | query
  | querySet
  deriving DecidableEq, Repr

namespace Node

/-- The tree of a level that a document holds. -/
def ofDocument (level : Level) (d : Document) : Except DecodeError Node :=
  match level with
  | .term => (Term.ofDocument d).map .term
  | .expression => (Expression.ofDocument d).map .expression
  | .query => (Query.ofDocument d).map .query
  | .querySet => (QuerySet.ofDocument d).map .querySet

/-- The document of a tree. -/
def toDocument : Node → Except Document.ReadError Document
  | .term t => t.toDocument
  | .expression e => e.toDocument
  | .query q => q.toDocument
  | .querySet s => s.toDocument

/-- The level of a tree. -/
def level : Node → Level
  | .term _ => .term
  | .expression _ => .expression
  | .query _ => .query
  | .querySet _ => .querySet

/-- Equality of two trees of one level. -/
def equal : Node → Node → Bool
  | .term a, .term b => a.equal b
  | .expression a, .expression b => a.equal b
  | .query a, .query b => a.equal b
  | .querySet a, .querySet b => a.equal b
  | _, _ => false

end Node

/-! ## Trees straight from text -/

/-- Why a text holds no tree: it is no document, or the document is no tree. -/
inductive TreeError
  | text (error : Document.ReadError)
  | tree (error : DecodeError)
  deriving DecidableEq, Repr

/-- The wording of an error. -/
def TreeError.message : TreeError → String
  | .text e => e.message
  | .tree e => Document.settlePlace e.message

/-- Reads a document and what it holds. An error of the tree comes before one of the characters
behind the document. -/
def readTree {α : Type} (decode : Document → Except DecodeError α) (text : String) :
    Except TreeError α := do
  let bytes := Utf8.encode text
  let (d, rest) ← (Document.readFront bytes).mapError .text
  let tree ← (decode d).mapError .tree
  (Document.checkEnd bytes rest).mapError .text
  return tree

end PolicyClient
