/-
The names that are gathered from trees. What is gathered is said by positions: a variable counts where
it stands at some depth of a tree, unless it lies in a part that names an operator, the first of several
terms of an expression or the function of a call. Gathering from one tree after the other gives the
names of all of them, whatever their order and repetitions (`gathered_names`), since a set of names
lists its names in order, each once.
-/
import Mathlib
import PolicyClient.Proofs.Evaluation.Agreement

namespace PolicyClient

/-! ## Sets of names -/

namespace NameSet

variable {names : NameSet}

theorem sorted_insert (h : names.Pairwise (· < ·)) (name : String) :
    (names.insert name).Pairwise (· < ·) := by
  induction names with
  | nil => exact List.pairwise_singleton _ _
  | cons n rest ih =>
    obtain ⟨hn, hrest⟩ := List.pairwise_cons.1 h
    unfold insert
    split_ifs with heq hlt
    · exact h
    · refine List.pairwise_cons.2 ⟨fun other ho => ?_, h⟩
      rcases List.mem_cons.1 ho with rfl | ho
      · exact hlt
      · exact hlt.trans (hn other ho)
    · refine List.pairwise_cons.2 ⟨fun other ho => ?_, ih hrest⟩
      rcases mem_insert.1 ho with rfl | ho
      · exact lt_of_le_of_ne (not_lt.1 hlt) heq
      · exact hn other ho

theorem sorted_insertAll (h : names.Pairwise (· < ·)) (added : List String) :
    (names.insertAll added).Pairwise (· < ·) := by
  unfold insertAll
  induction added generalizing names with
  | nil => exact h
  | cons name added ih => exact ih (sorted_insert h name)

end NameSet

/-! ## Positions -/

namespace Node

/-- The trees directly below a tree, in order. -/
def parts : Node → List Node
  | .querySet s => s.queries.map .query
  | .query q => q.expressions.map .expression
  | .expression e => e.terms.map .term
  | .term (.ref root keys) => (root :: keys).map .term
  | .term (.call function args) => (function :: args).map .term
  | .term (.array items) => items.map .term
  | .term (.set items) => items.map .term
  | .term _ => []

/-- The tree at a position, which lists the places on the way down. -/
def at? (n : Node) : List Nat → Option Node
  | [] => some n
  | i :: position => n.parts[i]?.bind fun part => part.at? position

/-- The first part names an operator: the tree is an expression of several terms or a call. -/
def HasOperator : Node → Prop
  | .expression e => 1 < e.terms.length
  | .term (.call _ _) => True
  | _ => False

/-- A position lies in a part that names an operator. -/
def InOperator (n : Node) (position : List Nat) : Prop :=
  ∃ before behind inner, position = before ++ 0 :: behind ∧ n.at? before = some inner ∧
    inner.HasOperator

/-- The variable stands somewhere in the tree outside the parts that name operators. -/
def Refers (n : Node) (name : String) : Prop :=
  ∃ position, n.at? position = some (.term (.var name)) ∧ ¬ n.InOperator position

variable {n part : Node} {name : String} {rest : List Node}

theorem not_inOperator_nil : ¬ n.InOperator [] := by
  rintro ⟨before, behind, inner, hposition, -⟩
  simp at hposition

theorem inOperator_cons {i : Nat} {position : List Nat} (hpart : n.parts[i]? = some part) :
    n.InOperator (i :: position) ↔ (i = 0 ∧ n.HasOperator) ∨ part.InOperator position := by
  constructor
  · rintro ⟨_ | ⟨j, before⟩, behind, inner, hposition, hinner, hoperator⟩
    · obtain ⟨rfl, -⟩ := List.cons.inj hposition
      cases hinner
      exact .inl ⟨rfl, hoperator⟩
    · obtain ⟨rfl, rfl⟩ := List.cons.inj hposition
      rw [at?, hpart] at hinner
      exact .inr ⟨before, behind, inner, rfl, hinner, hoperator⟩
  · rintro (⟨rfl, hoperator⟩ | ⟨before, behind, inner, rfl, hinner, hoperator⟩)
    · exact ⟨[], position, n, rfl, rfl, hoperator⟩
    · exact ⟨i :: before, behind, inner, rfl, by rw [at?, hpart]; exact hinner, hoperator⟩

/-- A tree refers to what the parts that are no operator refer to. -/
theorem refers_iff : n.Refers name ↔ n = .term (.var name) ∨
    ∃ i part, n.parts[i]? = some part ∧ ¬ (i = 0 ∧ n.HasOperator) ∧ part.Refers name := by
  constructor
  · rintro ⟨_ | ⟨i, position⟩, hvar, hoperator⟩
    · cases hvar; exact .inl rfl
    · obtain ⟨part, hpart, hvar⟩ := Option.bind_eq_some_iff.1 hvar
      rw [inOperator_cons hpart, not_or] at hoperator
      exact .inr ⟨i, part, hpart, hoperator.1, position, hvar, hoperator.2⟩
  · rintro (rfl | ⟨i, part, hpart, hfirst, position, hvar, hoperator⟩)
    · exact ⟨[], rfl, not_inOperator_nil⟩
    · refine ⟨i :: position, by rw [at?, hpart]; exact hvar, ?_⟩
      rw [inOperator_cons hpart, not_or]
      exact ⟨hfirst, hoperator⟩

theorem refers_of_no_operator (hvar : n ≠ .term (.var name)) (h : ¬ n.HasOperator) :
    n.Refers name ↔ ∃ part ∈ n.parts, part.Refers name := by
  rw [refers_iff]
  constructor
  · rintro (hn | ⟨i, part, hpart, -, hrefers⟩)
    · exact absurd hn hvar
    · exact ⟨part, List.mem_of_getElem? hpart, hrefers⟩
  · rintro ⟨part, hpart, hrefers⟩
    obtain ⟨i, hi⟩ := List.getElem?_of_mem hpart
    exact .inr ⟨i, part, hi, fun hfirst => h hfirst.2, hrefers⟩

theorem refers_of_operator (h : n.HasOperator) (hparts : n.parts = part :: rest) :
    n.Refers name ↔ ∃ part ∈ rest, part.Refers name := by
  rw [refers_iff]
  constructor
  · rintro (rfl | ⟨_ | i, part, hpart, hfirst, hrefers⟩)
    · cases h
    · exact absurd ⟨rfl, h⟩ hfirst
    · rw [hparts] at hpart
      exact ⟨part, List.mem_of_getElem? hpart, hrefers⟩
  · rintro ⟨part, hpart, hrefers⟩
    obtain ⟨i, hi⟩ := List.getElem?_of_mem hpart
    exact .inr ⟨i + 1, part, by rw [hparts]; exact hi, by simp, hrefers⟩

/-! ## Occurrences -/

theorem exists_refers_map {α : Type} {as : List α} {f : α → Node} {names : α → List String}
    (h : ∀ a ∈ as, (f a).Refers name ↔ name ∈ names a) :
    (∃ part ∈ as.map f, part.Refers name) ↔ name ∈ as.flatMap names := by
  rw [List.mem_flatMap]
  simp only [List.mem_map, exists_exists_and_eq_and]
  exact exists_congr fun a => and_congr_right (h a)

theorem exists_refers_terms {ts : List Term}
    (h : ∀ t ∈ ts, (term t).Refers name ↔ name ∈ t.occurrences) :
    (∃ part ∈ ts.map term, part.Refers name) ↔ name ∈ Term.occurrencesAll ts := by
  rw [exists_refers_map h, List.mem_flatMap, Term.mem_occurrencesAll]

theorem term_refers_iff {t : Term} : (term t).Refers name ↔ name ∈ t.occurrences := by
  induction t using Term.induct with
  | ref root keys hroot hkeys =>
    refine (refers_of_no_operator (by rintro ⟨⟩) id).trans ?_
    exact exists_refers_terms (List.forall_mem_cons.2 ⟨hroot, hkeys⟩)
  | call function args _ hargs =>
    refine (refers_of_operator (by trivial) rfl).trans ?_
    exact exists_refers_terms hargs
  | array items hitems =>
    refine (refers_of_no_operator (by rintro ⟨⟩) id).trans ?_
    exact exists_refers_terms hitems
  | set items hitems =>
    refine (refers_of_no_operator (by rintro ⟨⟩) id).trans ?_
    exact exists_refers_terms hitems
  | var other =>
    rw [refers_iff]
    simp [parts, Term.occurrences, eq_comm]
  | _ =>
    refine (refers_of_no_operator (by rintro ⟨⟩) id).trans ?_
    simp [parts, Term.occurrences]

theorem expression_refers_iff {e : Expression} :
    (expression e).Refers name ↔ name ∈ e.occurrences := by
  obtain ⟨index, terms⟩ := e
  match terms with
  | [] =>
    refine (refers_of_no_operator (by nofun) (by simp [HasOperator])).trans ?_
    exact exists_refers_terms nofun
  | [t] =>
    refine (refers_of_no_operator (by nofun) (by simp [HasOperator])).trans ?_
    exact exists_refers_terms fun _ _ => term_refers_iff
  | operator :: t :: ts =>
    refine (refers_of_operator (by simp [HasOperator]) rfl).trans ?_
    exact exists_refers_terms fun _ _ => term_refers_iff

/-- The variables that are listed are those that the tree refers to. -/
theorem refers_iff_mem_occurrences : n.Refers name ↔ name ∈ n.occurrences := by
  have hquery : ∀ q : Query, (query q).Refers name ↔ name ∈ q.occurrences := fun q =>
    (refers_of_no_operator (by nofun) id).trans (exists_refers_map fun _ _ => expression_refers_iff)
  cases n with
  | term t => exact term_refers_iff
  | expression e => exact expression_refers_iff
  | query q => exact hquery q
  | querySet s =>
    exact (refers_of_no_operator (by nofun) id).trans (exists_refers_map fun q _ => hquery q)

/-! ## Trees one after the other -/

theorem mem_foldl_gather {names : NameSet} {ns : List Node} :
    name ∈ ns.foldl gather names ↔ name ∈ names ∨ ∃ n ∈ ns, name ∈ n.occurrences := by
  induction ns generalizing names with
  | nil => simp
  | cons n ns ih =>
    rw [List.foldl_cons, ih, gather, NameSet.mem_insertAll, or_assoc]
    simp

theorem sorted_foldl_gather {names : NameSet} (h : names.Pairwise (· < ·)) (ns : List Node) :
    (ns.foldl gather names).Pairwise (· < ·) := by
  induction ns generalizing names with
  | nil => exact h
  | cons n ns ih => exact ih (NameSet.sorted_insertAll h n.occurrences)

end Node

/-- Gathering from trees one after the other gives the names of all of them, and gives the same set for
the same trees in any order, however often each comes. A name is gathered exactly if some tree refers to
it outside the parts that name operators. -/
theorem gathered_names (ns : List Node) :
    (∀ name, name ∈ ns.foldl Node.gather [] ↔ ∃ n ∈ ns, name ∈ n.names) ∧
    (∀ ms : List Node, (∀ n, n ∈ ms ↔ n ∈ ns) → ms.foldl Node.gather [] = ns.foldl Node.gather []) ∧
    (∀ name, name ∈ ns.foldl Node.gather [] ↔ ∃ n ∈ ns, n.Refers name) := by
  have hmem : ∀ (ms : List Node) name,
      name ∈ ms.foldl Node.gather [] ↔ ∃ n ∈ ms, name ∈ n.occurrences := by
    intro ms name
    rw [Node.mem_foldl_gather]
    simp
  refine ⟨fun name => ?_, fun ms hms => ?_, fun name => ?_⟩
  · simp only [hmem, Node.names, NameSet.mem_ofList]
  · refine (Node.sorted_foldl_gather .nil ms).eq_of_mem_iff (Node.sorted_foldl_gather .nil ns) ?_
    simp only [hmem, hms, implies_true]
  · simp only [hmem, Node.refers_iff_mem_occurrences]

/-- The expression `eq(input["owner"], user)`. -/
def ownerIsUser : Node :=
  .expression ⟨0, [.path "eq" [], .path "input" ["owner"], .var "user"]⟩

/-- The call `count(data["users"], eq)`, where `eq` is an argument. -/
def countOfUsers : Node :=
  .term (.call (.var "count") [.path "data" ["users"], .var "eq"])

/-- The trees in another order and one of them twice: `eq` is gathered from the argument only. -/
theorem gathered_names_twice :
    (∀ n, n ∈ [countOfUsers, ownerIsUser, countOfUsers] ↔ n ∈ [ownerIsUser, countOfUsers]) ∧
      [countOfUsers, ownerIsUser, countOfUsers].foldl Node.gather [] =
        [ownerIsUser, countOfUsers].foldl Node.gather [] ∧
      [ownerIsUser, countOfUsers].foldl Node.gather [] = ["data", "eq", "input", "user"] ∧
      ¬ ownerIsUser.Refers "eq" ∧ countOfUsers.Refers "eq" := by
  have hmem : ∀ n, n ∈ [countOfUsers, ownerIsUser, countOfUsers] ↔ n ∈ [ownerIsUser, countOfUsers] := by
    intro n
    simp only [List.mem_cons, List.not_mem_nil, or_false]
    tauto
  refine ⟨hmem, (gathered_names _).2.1 _ hmem, by cbv, ?_, ?_⟩
  · rw [Node.refers_iff_mem_occurrences]
    decide
  · rw [Node.refers_iff_mem_occurrences]
    decide

end PolicyClient
