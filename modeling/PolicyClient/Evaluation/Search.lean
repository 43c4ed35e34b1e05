/-
The search for iteration variables. A variable that is unbound and stands as a key of a reference
ranges over the keys of the collection at its position. The search binds one such variable at a time
and ends because each step leaves fewer of them unbound.
-/
import PolicyClient.Evaluation.Resolve
import PolicyClient.Query.Basic

namespace PolicyClient

/-- A variable and the documents that it ranges over. -/
abbrev Range := String × List Document

/-! ## The next iteration variable -/

namespace Term

mutual

/-- The first unbound iteration variable of a term. Keys are followed down the document as far as
they lead; the root is looked up, not searched. -/
def nextRange (b : Bindings) : Term → Except EvalError (Option Range)
  | .ref root keys => do
    match ← resolve b root with
    | none => return none
    | some start => nextKeyRange b start keys
  | .call _ args => nextRangeAll b args
  | .array items => nextRangeAll b items
  | .set items => nextRangeAll b items
  | .var _ | .numeric _ | .text _ | .bool _ | .null => .ok none

/-- The first unbound iteration variable among the keys from a document down. -/
def nextKeyRange (b : Bindings) (current : Document) :
    List Term → Except EvalError (Option Range)
  | [] => .ok none
  | key :: keys =>
    let descend : Except EvalError (Option Range) := do
      match ← nextRange b key with
      | some range => return some range
      | none =>
        match ← resolve b key with
        | none => return none
        | some k =>
          match current.step k with
          | none => return none
          | some next => nextKeyRange b next keys
    match key with
    | .var name =>
      match b.get? name with
      | none => .ok (some (name, current.keys))
      | some _ => descend
    | _ => descend

/-- The first unbound iteration variable of the terms. -/
def nextRangeAll (b : Bindings) : List Term → Except EvalError (Option Range)
  | [] => .ok none
  | t :: ts => do
    match ← nextRange b t with
    | some range => return some range
    | none => nextRangeAll b ts

end

/-! ## Where the variable is found -/

theorem nextRange_ref (b : Bindings) (root : Term) (keys : List Term) :
    nextRange b (.ref root keys) = match resolve b root with
      | .error e => .error e
      | .ok none => .ok none
      | .ok (some start) => nextKeyRange b start keys := by
  rw [nextRange]
  rcases resolve b root with e | (_ | start) <;> rfl

theorem nextKeyRange_open {b : Bindings} {name : String} (h : b.get? name = none)
    (current : Document) (keys : List Term) :
    nextKeyRange b current (.var name :: keys) = .ok (some (name, current.keys)) := by
  rw [nextKeyRange, h]

theorem nextKeyRange_cons {b : Bindings} {key : Term}
    (h : ∀ name, key = .var name → b.get? name ≠ none) (current : Document) (keys : List Term) :
    nextKeyRange b current (key :: keys) = match nextRange b key with
      | .error e => .error e
      | .ok (some range) => .ok (some range)
      | .ok none =>
        match resolve b key with
        | .error e => .error e
        | .ok none => .ok none
        | .ok (some k) =>
          match current.step k with
          | none => .ok none
          | some next => nextKeyRange b next keys := by
  have descend : (do
      match ← nextRange b key with
      | some range => return some range
      | none =>
        match ← resolve b key with
        | none => return none
        | some k =>
          match current.step k with
          | none => return none
          | some next => nextKeyRange b next keys) = match nextRange b key with
      | .error e => .error e
      | .ok (some range) => .ok (some range)
      | .ok none =>
        match resolve b key with
        | .error e => .error e
        | .ok none => .ok none
        | .ok (some k) =>
          match current.step k with
          | none => .ok none
          | some next => nextKeyRange b next keys := by
    rcases nextRange b key with e | (_ | range)
    · rfl
    · rcases resolve b key with e | (_ | k)
      · rfl
      · rfl
      · cases hs : current.step k with
        | none => simp only [bind, Except.bind, hs]; rfl
        | some next => simp only [bind, Except.bind, hs]
    · rfl
  cases key with
  | var name =>
    rw [nextKeyRange]
    cases hv : b.get? name with
    | none => exact absurd hv (h name rfl)
    | some d => exact descend
  | _ => exact descend

theorem nextRangeAll_cons (b : Bindings) (t : Term) (ts : List Term) :
    nextRangeAll b (t :: ts) = match nextRange b t with
      | .error e => .error e
      | .ok (some range) => .ok (some range)
      | .ok none => nextRangeAll b ts := by
  rw [nextRangeAll]
  rcases nextRange b t with e | (_ | range) <;> rfl

/-- A key that has a range, or gives one to a key behind it, is searched before it is resolved;
only an unbound variable has its range from the document itself. -/
theorem nextKeyRange_cons_eq_some {b : Bindings} {current : Document} {key : Term}
    {keys : List Term} {range : Range} (h : nextKeyRange b current (key :: keys) = .ok (some range)) :
    (∃ name, key = .var name ∧ b.get? name = none ∧ range = (name, current.keys)) ∨
      nextRange b key = .ok (some range) ∨
      ∃ k next, resolve b key = .ok (some k) ∧ current.step k = some next ∧
        nextKeyRange b next keys = .ok (some range) := by
  by_cases hkey : ∀ name, key = .var name → b.get? name ≠ none
  · rw [nextKeyRange_cons hkey] at h
    split at h
    · cases h
    · next hn => cases h; exact .inr (.inl hn)
    · split at h
      · cases h
      · cases h
      · next k hk =>
        split at h
        · cases h
        · next next hs => exact .inr (.inr ⟨k, next, hk, hs, h⟩)
  · obtain ⟨name, hkey⟩ := Classical.not_forall.1 hkey
    obtain ⟨rfl, hb⟩ := Classical.not_imp.1 hkey
    have hb := Classical.not_not.1 hb
    rw [nextKeyRange_open hb] at h
    cases h
    exact .inl ⟨name, rfl, hb, rfl⟩

theorem nextRange_ref_eq_some {b : Bindings} {root : Term} {keys : List Term} {range : Range}
    (h : nextRange b (.ref root keys) = .ok (some range)) :
    ∃ start, resolve b root = .ok (some start) ∧ nextKeyRange b start keys = .ok (some range) := by
  rw [nextRange_ref] at h
  split at h
  · cases h
  · cases h
  · next start hr => exact ⟨start, hr, h⟩

theorem nextRangeAll_eq_some {b : Bindings} {ts : List Term} {range : Range}
    (h : nextRangeAll b ts = .ok (some range)) : ∃ t ∈ ts, nextRange b t = .ok (some range) := by
  induction ts with
  | nil => simp [nextRangeAll] at h
  | cons t ts ih =>
    rw [nextRangeAll_cons] at h
    split at h
    · cases h
    · next hn => cases h; exact ⟨t, List.mem_cons_self, hn⟩
    · obtain ⟨u, hu, hn⟩ := ih h
      exact ⟨u, List.mem_cons_of_mem _ hu, hn⟩

/-! ## Names of iteration variables -/

mutual

/-- The variables that stand as keys of references, and those inside keys and arguments. -/
def keyNames : Term → List String
  | .ref _ keys => keyNamesOf keys
  | .call _ args => keyNamesAll args
  | .array items => keyNamesAll items
  | .set items => keyNamesAll items
  | .var _ | .numeric _ | .text _ | .bool _ | .null => []

/-- The variables among the keys of a reference. -/
def keyNamesOf : List Term → List String
  | [] => []
  | .var name :: keys => name :: keyNamesOf keys
  | key :: keys => keyNames key ++ keyNamesOf keys

/-- The iteration variables of the terms. -/
def keyNamesAll : List Term → List String
  | [] => []
  | t :: ts => keyNames t ++ keyNamesAll ts

end

/-! ## The variable found is unbound and stands as a key -/

theorem mem_keyNamesAll {ts : List Term} {name : String} :
    name ∈ keyNamesAll ts ↔ ∃ t ∈ ts, name ∈ keyNames t := by
  induction ts with
  | nil => simp [keyNamesAll]
  | cons t ts ih => simp [keyNamesAll, ih]

theorem mem_keyNamesOf_cons (key : Term) (keys : List Term) (name : String) :
    name ∈ keyNamesOf (key :: keys) ↔
      key = .var name ∨ name ∈ keyNames key ∨ name ∈ keyNamesOf keys := by
  cases key with
  | var v => simp [keyNamesOf, keyNames, eq_comm]
  | _ => simp [keyNamesOf]

theorem keyNamesOf_of_nextKeyRange {b : Bindings} {range : Range} {keys : List Term}
    (ih : ∀ k ∈ keys, nextRange b k = .ok (some range) →
      range.1 ∈ keyNames k ∧ b.get? range.1 = none)
    {current : Document} (h : nextKeyRange b current keys = .ok (some range)) :
    range.1 ∈ keyNamesOf keys ∧ b.get? range.1 = none := by
  induction keys generalizing current with
  | nil => simp [nextKeyRange] at h
  | cons key keys ihk =>
    rw [mem_keyNamesOf_cons]
    rcases nextKeyRange_cons_eq_some h with ⟨name, rfl, hb, rfl⟩ | hn | ⟨k, next, -, -, hn⟩
    · exact ⟨.inl rfl, hb⟩
    · obtain ⟨hm, hb⟩ := ih key List.mem_cons_self hn
      exact ⟨.inr (.inl hm), hb⟩
    · obtain ⟨hm, hb⟩ := ihk (fun k hk => ih k (List.mem_cons_of_mem _ hk)) hn
      exact ⟨.inr (.inr hm), hb⟩

theorem keyNamesAll_of_nextRangeAll {b : Bindings} {range : Range} {ts : List Term}
    (ih : ∀ t ∈ ts, nextRange b t = .ok (some range) → range.1 ∈ keyNames t ∧ b.get? range.1 = none)
    (h : nextRangeAll b ts = .ok (some range)) :
    range.1 ∈ keyNamesAll ts ∧ b.get? range.1 = none := by
  obtain ⟨t, ht, hn⟩ := nextRangeAll_eq_some h
  obtain ⟨hm, hb⟩ := ih t ht hn
  exact ⟨mem_keyNamesAll.2 ⟨t, ht, hm⟩, hb⟩

theorem keyNames_of_nextRange {b : Bindings} {t : Term} {range : Range}
    (h : nextRange b t = .ok (some range)) : range.1 ∈ keyNames t ∧ b.get? range.1 = none := by
  induction t using Term.induct with
  | ref root keys _ ih =>
    obtain ⟨start, -, h⟩ := nextRange_ref_eq_some h
    rw [keyNames]
    exact keyNamesOf_of_nextKeyRange ih h
  | call function args _ ih => exact keyNamesAll_of_nextRangeAll ih h
  | array items ih => exact keyNamesAll_of_nextRangeAll ih h
  | set items ih => exact keyNamesAll_of_nextRangeAll ih h
  | _ => simp [nextRange] at h

end Term

/-! ## Expressions -/

/-- Defined and not false. -/
def Document.isTruthy : Option Document → Bool
  | none => false
  | some (.bool false) => false
  | some _ => true

namespace Expression

/-- Whether an expression holds under bindings that cover its variables. -/
def holds (b : Bindings) (e : Expression) : Except EvalError Bool :=
  match e.terms with
  | [] => .ok true
  | [t] => (t.resolve b).map Document.isTruthy
  | operator :: operands => (Term.applyTo b operator operands).map Document.isTruthy

/-- The iteration variables of an expression. -/
def keyNames (e : Expression) : List String :=
  Term.keyNamesAll e.operands

/-- The first unbound iteration variable of the expressions. -/
def nextRange (b : Bindings) : List Expression → Except EvalError (Option Range)
  | [] => .ok none
  | e :: es => do
    match ← Term.nextRangeAll b e.operands with
    | some range => return some range
    | none => nextRange b es

theorem nextRange_cons (b : Bindings) (e : Expression) (es : List Expression) :
    nextRange b (e :: es) = match Term.nextRangeAll b e.operands with
      | .error err => .error err
      | .ok (some range) => .ok (some range)
      | .ok none => nextRange b es := by
  rw [nextRange]
  rcases Term.nextRangeAll b e.operands with err | (_ | range) <;> rfl

theorem nextRange_eq_some {b : Bindings} {es : List Expression} {range : Range}
    (h : nextRange b es = .ok (some range)) :
    ∃ e ∈ es, ∃ t ∈ e.operands, Term.nextRange b t = .ok (some range) := by
  induction es with
  | nil => simp [nextRange] at h
  | cons e es ih =>
    rw [nextRange_cons] at h
    split at h
    · cases h
    · next hn => cases h; exact ⟨e, List.mem_cons_self, Term.nextRangeAll_eq_some hn⟩
    · obtain ⟨e', he, hn⟩ := ih h
      exact ⟨e', List.mem_cons_of_mem _ he, hn⟩

theorem keyNames_of_nextRange {b : Bindings} {es : List Expression} {range : Range}
    (h : nextRange b es = .ok (some range)) :
    range.1 ∈ es.flatMap keyNames ∧ b.get? range.1 = none := by
  obtain ⟨e, he, t, ht, hn⟩ := nextRange_eq_some h
  obtain ⟨hm, hb⟩ := Term.keyNames_of_nextRange hn
  exact ⟨List.mem_flatMap.2 ⟨e, he, Term.mem_keyNamesAll.2 ⟨t, ht, hm⟩⟩, hb⟩

/-- The iteration variables that are still unbound. -/
def openNames (b : Bindings) (es : List Expression) : List String :=
  (es.flatMap keyNames).filter fun name => (b.get? name).isNone

/-- Binding the variable found leaves fewer unbound. -/
theorem openNames_bind_lt (b : Bindings) (es : List Expression) {name : String}
    {keys : List Document} (h : nextRange b es = .ok (some (name, keys))) (value : Document) :
    (openNames (b.bind name value) es).length < (openNames b es).length := by
  obtain ⟨hmem, hfree⟩ := keyNames_of_nextRange h
  have hsub : openNames (b.bind name value) es =
      (openNames b es).filter fun other => other ≠ name := by
    unfold openNames
    rw [List.filter_filter]
    apply List.filter_congr
    intro other _
    by_cases ho : other = name
    · subst ho; simp [Bindings.get?_bind_self]
    · simp [Bindings.get?_bind_of_ne value (Ne.symm ho), ho]
  have hin : name ∈ openNames b es := by
    simp only [openNames, List.mem_filter]
    exact ⟨hmem, by simp [hfree]⟩
  rw [hsub]
  apply List.length_filter_lt_length_iff_exists.2
  exact ⟨name, hin, by simp⟩

/-! ## The search -/

/-- Whether some assignment of the unbound iteration variables makes all expressions hold. The
variables are bound one at a time, in the order in which they are found, and their keys are tried
in order. -/
def search (es : List Expression) (b : Bindings) : Except EvalError Bool :=
  match _h : nextRange b es with
  | .error e => .error e
  | .ok (some (name, keys)) => keys.anyM fun key => search es (b.bind name key)
  | .ok none => es.allM (holds b)
termination_by (openNames b es).length
decreasing_by exact openNames_bind_lt b es _h key

theorem search_of_error {es : List Expression} {b : Bindings} {err : EvalError}
    (h : nextRange b es = .error err) : search es b = .error err := by
  rw [search]
  split
  · next h' => rw [h] at h'; cases h'; rfl
  · next h' => rw [h] at h'; cases h'
  · next h' => rw [h] at h'; cases h'

theorem search_of_range {es : List Expression} {b : Bindings} {name : String}
    {keys : List Document} (h : nextRange b es = .ok (some (name, keys))) :
    search es b = keys.anyM fun key => search es (b.bind name key) := by
  rw [search]
  split
  · next h' => rw [h] at h'; cases h'
  · next h' => rw [h] at h'; cases h'; rfl
  · next h' => rw [h] at h'; cases h'

theorem search_of_none {es : List Expression} {b : Bindings} (h : nextRange b es = .ok none) :
    search es b = es.allM (holds b) := by
  rw [search]
  split
  · next h' => rw [h] at h'; cases h'
  · next h' => rw [h] at h'; cases h'
  · rfl

/-- Induction along the search: what holds of bindings if it holds once the variable found is
bound, holds of all bindings. -/
theorem search_induct (es : List Expression) {motive : Bindings → Prop}
    (step : ∀ b, (∀ name keys, nextRange b es = .ok (some (name, keys)) →
      ∀ key, motive (b.bind name key)) → motive b) (b : Bindings) : motive b := by
  induction hn : (openNames b es).length using Nat.strongRecOn generalizing b with
  | ind n ih =>
    apply step
    intro name keys h key
    exact ih _ (hn ▸ openNames_bind_lt b es h key) (b.bind name key) rfl

/-- Whether an expression holds for some assignment of its iteration variables. -/
def evaluate (e : Expression) (b : Bindings) : Except EvalError Bool :=
  search [e] b

end Expression

/-! ## Queries -/

/-- Whether all expressions hold for some assignment of the iteration variables that they share. -/
def Query.evaluate (q : Query) (b : Bindings) : Except EvalError Bool :=
  Expression.search q.expressions b

/-- Whether some query holds. -/
def QuerySet.evaluate (s : QuerySet) (b : Bindings) : Except EvalError Bool :=
  s.queries.anyM fun q => q.evaluate b

end PolicyClient
