/-
The document that a term stands for under bindings. A reference that walks off its document is
undefined, and so is all that is built from it; only an unbound variable, an operator that cannot
be applied or documents without order are errors.
-/
import PolicyClient.Evaluation.Comparison
import PolicyClient.Query.Bindings
import PolicyClient.Term.Render
import PolicyClient.Term.Wire

namespace PolicyClient

/-- A document, or nothing where it is undefined. -/
abbrev Resolution := Except EvalError (Option Document)

namespace Document

/-- One step down a document: the member of a key or the item of an index. -/
def step (current key : Document) : Option Document :=
  match current, key with
  | .object members, .text name => Members.get? members name
  | .array items, .number index =>
    match index.word? with
    | some i => items[i.toNat]?
    | none => none
  | _, _ => none

/-- The keys of a collection: those of its members, or the indices of its items. -/
def keys : Document → List Document
  | .object members => members.map fun member => .text member.1
  | .array items => (List.range items.length).map ofNat
  | _ => []

end Document

namespace Term

/-- The operator that a term names. -/
def operator (t : Term) : Except EvalError (String × Operator) :=
  match t.operatorName? with
  | none => .error (.unsupported t.render)
  | some name =>
    match Operator.ofName? name with
    | none => .error (.unsupported name)
    | some op => .ok (name, op)

mutual

/-- The document of a term, `none` where it is undefined. -/
def resolve (b : Bindings) : Term → Resolution
  | .null => .ok (some .null)
  | .bool value => .ok (some (.bool value))
  | .text value => .ok (some (.text value))
  | .numeric d =>
    match d.numeral with
    | .ok n => .ok (some (.number n))
    | .error _ => .error (.badNumber d.label)
  | .var name =>
    match b.get? name with
    | some value => .ok (some value)
    | none => .error (.unbound name)
  | .ref root keys => do
    match ← resolve b root with
    | none => return none
    | some start => walk b start keys
  | .array items => return (← resolveAll b items).map .array
  | .set items => return (← resolveAll b items).map .array
  | .call function args => applyTo b function args

/-- Goes down a document by the keys, one after the other. -/
def walk (b : Bindings) (current : Document) : List Term → Resolution
  | [] => .ok (some current)
  | key :: keys => do
    match ← resolve b key with
    | none => return none
    | some k =>
      match current.step k with
      | none => return none
      | some next => walk b next keys

/-- The documents of all terms, or nothing if one of them is undefined. -/
def resolveAll (b : Bindings) : List Term → Except EvalError (Option (List Document))
  | [] => .ok (some [])
  | t :: ts => do
    match ← resolve b t with
    | none => return none
    | some d => return (← resolveAll b ts).map (d :: ·)

/-- The answer of an operator on its operands, of which there have to be two. -/
def applyTo (b : Bindings) (function : Term) : List Term → Resolution
  | [left, right] => do
    let (_, op) ← function.operator
    let l ← resolve b left
    let r ← resolve b right
    match l, r with
    | some l, some r => return some (.bool (← op.apply l r))
    | _, _ => return none
  | operands => do
    let (name, _) ← function.operator
    .error (.arity name operands.length)

end

/-! ## Resolving step by step -/

theorem resolve_ref (b : Bindings) (root : Term) (keys : List Term) :
    resolve b (.ref root keys) = match resolve b root with
      | .error e => .error e
      | .ok none => .ok none
      | .ok (some start) => walk b start keys := by
  rw [resolve]
  rcases resolve b root with e | (_ | start) <;> rfl

theorem resolve_array (b : Bindings) (items : List Term) :
    resolve b (.array items) = (resolveAll b items).map fun found => found.map .array := by
  rw [resolve]
  rcases resolveAll b items with e | found <;> rfl

theorem resolve_set (b : Bindings) (items : List Term) :
    resolve b (.set items) = (resolveAll b items).map fun found => found.map .array := by
  rw [resolve]
  rcases resolveAll b items with e | found <;> rfl

theorem walk_cons (b : Bindings) (current : Document) (key : Term) (keys : List Term) :
    walk b current (key :: keys) = match resolve b key with
      | .error e => .error e
      | .ok none => .ok none
      | .ok (some k) =>
        match current.step k with
        | none => .ok none
        | some next => walk b next keys := by
  rw [walk]
  rcases resolve b key with e | (_ | k)
  · rfl
  · rfl
  · cases current.step k <;> rfl

theorem resolveAll_cons (b : Bindings) (t : Term) (ts : List Term) :
    resolveAll b (t :: ts) = match resolve b t with
      | .error e => .error e
      | .ok none => .ok none
      | .ok (some d) => (resolveAll b ts).map fun found => found.map (d :: ·) := by
  rw [resolveAll]
  rcases resolve b t with e | (_ | d)
  · rfl
  · rfl
  · rcases resolveAll b ts with e | found <;> rfl

theorem applyTo_pair (b : Bindings) (function left right : Term) :
    applyTo b function [left, right] = match function.operator with
      | .error e => .error e
      | .ok (_, op) =>
        match resolve b left, resolve b right with
        | .error e, _ => .error e
        | .ok _, .error e => .error e
        | .ok (some l), .ok (some r) => (op.apply l r).map fun answer => some (.bool answer)
        | .ok _, .ok _ => .ok none := by
  rw [applyTo]
  rcases function.operator with e | ⟨name, op⟩
  · rfl
  · rcases resolve b left with e | (_ | l) <;> rcases resolve b right with e' | (_ | r) <;> rfl

theorem applyTo_of_length_ne (b : Bindings) (function : Term) {operands : List Term}
    (h : operands.length ≠ 2) :
    applyTo b function operands = match function.operator with
      | .error e => .error e
      | .ok (name, _) => .error (.arity name operands.length) := by
  rw [applyTo.eq_def]
  split
  · simp at h
  · rcases function.operator with e | ⟨name, op⟩ <;> rfl

end Term
end PolicyClient
