/-
Comparing documents. Numbers are compared by value, arrays item by item and objects key by key;
only two numbers, two strings or two truth values have an order. Each builtin operator takes two
documents and answers with a truth value.
-/
import PolicyClient.Document.Basic

namespace PolicyClient

/-! ## Errors -/

/-- Why a query has no answer. -/
inductive EvalError
  | unbound (name : String)
  | unsupported (operator : String)
  | incomparable (left right : String)
  | arity (operator : String) (actual : Nat)
  | badNumber (shown : String)
  deriving DecidableEq, Repr

/-- The wording of an error. -/
def EvalError.message : EvalError → String
  | .unbound name => s!"Variable '{name}' is not bound"
  | .unsupported operator => s!"Unsupported operator '{operator}'"
  | .incomparable left right => s!"Cannot compare {left} with {right}"
  | .arity operator actual => s!"Operator '{operator}' expects 2 argument(s), got {actual}"
  | .badNumber shown => s!"Number '{shown}' cannot be converted to a JSON value"

/-! ## Equality and order -/

/-- The order of two numerals by value, unless one of them spells no decimal. -/
def Numeral.compare? (a b : Numeral) : Option Ordering := do
  let x ← a.decimal?
  let y ← b.decimal?
  return x.compare y

namespace Document

mutual

/-- Equality of documents, numbers by value. -/
def same : Document → Document → Bool
  | .null, .null => true
  | .bool a, .bool b => a == b
  | .number a, .number b => a.compare? b == some .eq
  | .text a, .text b => a == b
  | .array a, .array b => sameItems a b
  | .object a, .object b => a.length == b.length && sameMembers a b
  | _, _ => false

/-- Equality item by item. -/
def sameItems : List Document → List Document → Bool
  | [], [] => true
  | a :: as, b :: bs => same a b && sameItems as bs
  | _, _ => false

/-- Every member of the first list has an equal under its key among the second. -/
def sameMembers : List (String × Document) → List (String × Document) → Bool
  | [], _ => true
  | (key, a) :: as, bs =>
    (match Members.get? bs key with
      | some b => same a b
      | none => false) && sameMembers as bs

end

/-- The error of two documents that have no order. -/
def incomparable (a b : Document) : EvalError :=
  .incomparable a.kind b.kind

/-- The order of two documents. -/
def order (a b : Document) : Except EvalError Ordering :=
  match a, b with
  | .number x, .number y =>
    match x.compare? y with
    | some o => .ok o
    | none => .error (incomparable a b)
  | .text x, .text y => .ok (Ord.compare x y)
  | .bool x, .bool y => .ok (Ord.compare x y)
  | _, _ => .error (incomparable a b)

/-- Whether a collection has an element equal to a document. -/
def isMember (item collection : Document) : Except EvalError Bool :=
  match collection with
  | .array items => .ok (items.any (same item ·))
  | .object members => .ok (members.any fun member => same item member.2)
  | other => .error (incomparable item other)

end Document

/-! ## Operators -/

/-- The builtin operators. -/
inductive Operator
  | equal
  | notEqual
  | less
  | lessOrEqual
  | greater
  | greaterOrEqual
  | member
  deriving DecidableEq, Repr

namespace Operator

/-- The operator of a name. -/
def ofName? (name : String) : Option Operator :=
  if name = "eq" ∨ name = "equal" then some .equal
  else if name = "neq" then some .notEqual
  else if name = "lt" then some .less
  else if name = "lte" then some .lessOrEqual
  else if name = "gt" then some .greater
  else if name = "gte" then some .greaterOrEqual
  else if name = "internal.member_2" then some .member
  else none

/-- The answer of an operator on two documents. -/
def apply : Operator → Document → Document → Except EvalError Bool
  | .equal, a, b => .ok (a.same b)
  | .notEqual, a, b => .ok (!a.same b)
  | .less, a, b => (a.order b).map (·.isLT)
  | .lessOrEqual, a, b => (a.order b).map (·.isLE)
  | .greater, a, b => (a.order b).map (·.isGT)
  | .greaterOrEqual, a, b => (a.order b).map (·.isGE)
  | .member, a, b => a.isMember b

end Operator
end PolicyClient
