/-
The decision that a residual query set amounts to before the unknowns are bound: without queries
nothing satisfies it, and one query without conditions satisfies it for good.
-/
import PolicyClient.Evaluation.Search

namespace PolicyClient

/-- The outcome of a partial evaluation. -/
inductive Decision
  | unsatisfiable
  | unconditional
  | conditional (queries : QuerySet)

namespace Decision

/-- The decision of a query set, which may be absent. -/
def of : Option QuerySet → Decision
  | none => .unsatisfiable
  | some set =>
    if set.queries.isEmpty then .unsatisfiable
    else if set.queries.any (·.expressions.isEmpty) then .unconditional
    else .conditional set

/-- The queries that decide once the unknowns are bound. -/
def conditions? : Decision → Option QuerySet
  | .conditional set => some set
  | _ => none

/-- The name of a decision. -/
def name : Decision → String
  | .unsatisfiable => "unsatisfiable"
  | .unconditional => "unconditional"
  | .conditional _ => "conditional"

/-- The answer of a decision under bindings. -/
def evaluate (d : Decision) (b : Bindings) : Except EvalError Bool :=
  match d with
  | .unsatisfiable => .ok false
  | .unconditional => .ok true
  | .conditional set => set.evaluate b

end Decision
end PolicyClient
