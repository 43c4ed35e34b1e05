/-
Terms of residual queries: references into documents, calls of builtin operators, variables and
literals. A reference has a root and keys, a call has a function and arguments. `equal` compares
numbers by value and sets without regard to order; `distinct` drops the repetitions of a set.
-/
import PolicyClient.Decimal

namespace PolicyClient

/-- A term of a residual query. No reference and no call is without terms: reading refuses an empty
list, and the type keeps the first term apart, as the root or the function. -/
inductive Term
  | ref (root : Term) (keys : List Term)
  | call (function : Term) (args : List Term)
  | var (name : String)
  | numeric (value : Decimal)
  | text (value : String)
  | bool (value : Bool)
  | null
  | array (items : List Term)
  | set (items : List Term)

namespace Term

instance : Inhabited Term := ⟨.null⟩

/-- Induction over terms, with the hypothesis for every term of a list. -/
@[elab_as_elim]
theorem induct {motive : Term → Prop}
    (ref : ∀ root keys, motive root → (∀ k ∈ keys, motive k) → motive (.ref root keys))
    (call : ∀ function args, motive function → (∀ a ∈ args, motive a) →
      motive (.call function args))
    (var : ∀ name, motive (.var name)) (numeric : ∀ value, motive (.numeric value))
    (text : ∀ value, motive (.text value)) (bool : ∀ value, motive (.bool value))
    (null : motive .null) (array : ∀ items, (∀ t ∈ items, motive t) → motive (.array items))
    (set : ∀ items, (∀ t ∈ items, motive t) → motive (.set items)) (t : Term) : motive t := by
  refine @Term.rec motive (fun ts => ∀ t ∈ ts, motive t) ref call var numeric text bool null array
    set ?_ ?_ t
  · intro t h; cases h
  · intro t ts ht hts u hu
    rcases List.mem_cons.1 hu with rfl | hu
    · exact ht
    · exact hts u hu

/-- The name of the kind of a term. -/
def typeName : Term → String
  | .ref .. => "ref"
  | .call .. => "call"
  | .var _ => "var"
  | .numeric _ => "number"
  | .text _ => "string"
  | .bool _ => "boolean"
  | .null => "null"
  | .array _ => "array"
  | .set _ => "set"

/-- The reference to `root` by text keys. -/
def path (root : String) (keys : List String) : Term :=
  .ref (.var root) (keys.map .text)

/-! ## Operators -/

/-- The part that a key adds to the dotted name of an operator. -/
def operatorPart? : Term → Option String
  | .text part => some part
  | .var part => some part
  | _ => none

/-- The dotted name of a term in the place of an operator: `internal.member_2` is the reference to
`internal` by the key `member_2`. -/
def operatorName? : Term → Option String
  | .var name => some name
  | .ref (.var root) keys =>
    (keys.mapM operatorPart?).map fun parts => String.intercalate "." (root :: parts)
  | _ => none

/-! ## Equality -/

mutual

/-- Equality of terms: decimals by value, sets by their elements. -/
def equal : Term → Term → Bool
  | .ref r ks, .ref r' ks' => equal r r' && equalAll ks ks'
  | .call f as, .call f' as' => equal f f' && equalAll as as'
  | .var a, .var b => a == b
  | .numeric a, .numeric b => a.same b
  | .text a, .text b => a == b
  | .bool a, .bool b => a == b
  | .null, .null => true
  | .array as, .array bs => equalAll as bs
  | .set as, .set bs => as.length == bs.length && within as bs
  | _, _ => false
termination_by t u => sizeOf t + sizeOf u

/-- Equality place by place. -/
def equalAll : List Term → List Term → Bool
  | [], [] => true
  | a :: as, b :: bs => equal a b && equalAll as bs
  | _, _ => false
termination_by ts us => sizeOf ts + sizeOf us

/-- Every term of the first list is listed in the second. -/
def within : List Term → List Term → Bool
  | [], _ => true
  | a :: as, bs => isListed a bs && within as bs
termination_by ts us => sizeOf ts + sizeOf us

/-- A term is listed, up to equality. The listed term is the one on the left, so that within sets
the sides change at each level. -/
def isListed (t : Term) : List Term → Bool
  | [] => false
  | u :: us => equal u t || isListed t us
termination_by us => sizeOf t + sizeOf us

end

/-! ## Sets -/

/-- The first of each run of equal terms, in order. -/
def distinct (items : List Term) : List Term :=
  items.foldl (fun kept t => if t.isListed kept then kept else kept ++ [t]) []

/-- The set of some terms. -/
def setOf (items : List Term) : Term :=
  .set (distinct items)

end Term
end PolicyClient
