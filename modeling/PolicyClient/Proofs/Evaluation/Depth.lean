/-
How deep the search goes. Each call of it within a call binds one more variable, which was unbound
and stands as a key of a reference, and none is bound a second time. So the calls are nested at most
as deep as there are such variables, and a search cut off below that depth is the search itself
(`search_depth`).
-/
import Mathlib
import PolicyClient.Proofs.Evaluation.Range

namespace PolicyClient

/-! ## Variables that stand as keys -/

namespace Term

/-- The variable `name` stands as a key of a reference in a term. -/
def HasKey (name : String) (t : Term) : Prop :=
  ∃ root before behind, Refers root (before ++ .var name :: behind) t

theorem HasKey.of_refers {name : String} {t u : Term} (h : HasKey name u)
    (hut : ∀ root keys, Refers root keys u → Refers root keys t) : HasKey name t := by
  obtain ⟨root, before, behind, hr⟩ := h
  exact ⟨root, before, behind, hut _ _ hr⟩

theorem mem_keyNamesOf {keys : List Term} {name : String} :
    name ∈ keyNamesOf keys ↔ .var name ∈ keys ∨ ∃ k ∈ keys, name ∈ keyNames k := by
  induction keys with
  | nil => simp [keyNamesOf]
  | cons key keys ih => rw [mem_keyNamesOf_cons, ih]; simp; grind

theorem mem_keyNames_of_refers {root : Term} {keys : List Term} {t : Term} {name : String}
    (h : Refers root keys t) (hname : .var name ∈ keys) : name ∈ keyNames t := by
  induction h with
  | here => rw [keyNames]; exact mem_keyNamesOf.2 (.inl hname)
  | key hk _ ih => rw [keyNames]; exact mem_keyNamesOf.2 (.inr ⟨_, hk, ih⟩)
  | arg ha _ ih => rw [keyNames]; exact mem_keyNamesAll.2 ⟨_, ha, ih⟩
  | item hu _ ih => rw [keyNames]; exact mem_keyNamesAll.2 ⟨_, hu, ih⟩
  | element hu _ ih => rw [keyNames]; exact mem_keyNamesAll.2 ⟨_, hu, ih⟩

theorem hasKey_of_mem_keyNames (t : Term) {name : String} (h : name ∈ keyNames t) : HasKey name t := by
  induction t using Term.induct with
  | ref root keys _ ih =>
    rw [keyNames] at h
    rcases mem_keyNamesOf.1 h with hvar | ⟨k, hk, hn⟩
    · obtain ⟨before, behind, rfl⟩ := List.append_of_mem hvar
      exact ⟨root, before, behind, .here⟩
    · exact (ih k hk hn).of_refers fun _ _ => .key hk
  | call function args _ ih =>
    obtain ⟨a, ha, hn⟩ := mem_keyNamesAll.1 h
    exact (ih a ha hn).of_refers fun _ _ => .arg ha
  | array items ih =>
    obtain ⟨u, hu, hn⟩ := mem_keyNamesAll.1 h
    exact (ih u hu hn).of_refers fun _ _ => .item hu
  | set items ih =>
    obtain ⟨u, hu, hn⟩ := mem_keyNamesAll.1 h
    exact (ih u hu hn).of_refers fun _ _ => .element hu
  | _ => simp [keyNames] at h

theorem mem_keyNames_iff {t : Term} {name : String} : name ∈ keyNames t ↔ HasKey name t :=
  ⟨hasKey_of_mem_keyNames t, fun ⟨_, _, _, hr⟩ => mem_keyNames_of_refers hr (by simp)⟩

end Term

namespace Expression

variable {es : List Expression} {b σ : Bindings}

/-- The variable `name` stands as a key of a reference in an operand of the expressions. -/
def HasKey (es : List Expression) (name : String) : Prop :=
  ∃ e ∈ es, ∃ t ∈ e.operands, t.HasKey name

theorem mem_openNames_iff {name : String} :
    name ∈ openNames b es ↔ b.get? name = none ∧ HasKey es name := by
  simp only [openNames, keyNames, List.mem_filter, List.mem_flatMap, Term.mem_keyNamesAll,
    Term.mem_keyNames_iff, Option.isNone_iff_eq_none, HasKey]
  exact and_comm

/-! ## Calls within calls -/

/-- The search from the first bindings calls itself down to the last ones; the trail lists the
variables bound on the way, each with the key tried. -/
inductive Nested (es : List Expression) : Bindings → List (String × Document) → Bindings → Prop
  | here (b : Bindings) : Nested es b [] b
  | call {b σ : Bindings} {name : String} {keys : List Document} {key : Document}
      {trail : List (String × Document)} : nextRange b es = .ok (some (name, keys)) → key ∈ keys →
      Nested es (b.bind name key) trail σ → Nested es b ((name, key) :: trail) σ

/-- A call within a call binds a variable that was unbound and stands as a key. -/
theorem mem_openNames_of_nextRange {range : Range} (h : nextRange b es = .ok (some range)) :
    range.1 ∈ openNames b es := by
  obtain ⟨hmem, hfree⟩ := keyNames_of_nextRange h
  exact List.mem_filter.2 ⟨hmem, by rw [hfree]; rfl⟩

theorem mem_openNames_bind {name other : String} {value : Document}
    (h : other ∈ openNames (b.bind name value) es) : other ≠ name ∧ other ∈ openNames b es := by
  obtain ⟨hfree, hkey⟩ := mem_openNames_iff.1 h
  have hne : other ≠ name := by
    rintro rfl; rw [Bindings.get?_bind_self] at hfree; cases hfree
  rw [Bindings.get?_bind_of_ne value hne.symm] at hfree
  exact ⟨hne, mem_openNames_iff.2 ⟨hfree, hkey⟩⟩

theorem Nested.keeps {trail : List (String × Document)} (h : Nested es b trail σ) : σ.Extends b := by
  induction h with
  | here b => exact .refl b
  | call hn _ _ ih => exact ih.trans (Bindings.bind_extends (keyNames_of_nextRange hn).2 _)

/-- What is bound on the way stays bound. -/
theorem Nested.bound {trail : List (String × Document)} (h : Nested es b trail σ) :
    ∀ entry ∈ trail, σ.get? entry.1 = some entry.2 := by
  induction h with
  | here b => exact List.forall_mem_nil _
  | call _ _ hnested ih =>
    exact List.forall_mem_cons.2 ⟨hnested.keeps _ _ (Bindings.get?_bind_self _ _ _), ih⟩

/-- The variables bound on the way are distinct, and were all unbound before. -/
theorem Nested.distinct {trail : List (String × Document)} (h : Nested es b trail σ) :
    (trail.map Prod.fst).Nodup ∧ ∀ name ∈ trail.map Prod.fst, name ∈ openNames b es := by
  induction h with
  | here b => simp
  | call hn _ _ ih =>
    obtain ⟨hnodup, hopen⟩ := ih
    rw [List.map_cons]
    refine ⟨List.nodup_cons.2 ⟨fun hmem => ?_, hnodup⟩, List.forall_mem_cons.2 ⟨?_, fun other ho => ?_⟩⟩
    · exact (mem_openNames_bind (hopen _ hmem)).1 rfl
    · exact mem_openNames_of_nextRange hn
    · exact (mem_openNames_bind (hopen other ho)).2

theorem Nested.length_le {trail : List (String × Document)} (h : Nested es b trail σ) :
    trail.length ≤ (openNames b es).toFinset.card := by
  obtain ⟨hnodup, hopen⟩ := h.distinct
  calc trail.length = (trail.map Prod.fst).toFinset.card := by
        rw [List.toFinset_card_of_nodup hnodup, List.length_map]
    _ ≤ (openNames b es).toFinset.card :=
        Finset.card_le_card fun name hname =>
          List.mem_toFinset.2 (hopen name (List.mem_toFinset.1 hname))

/-! ## Cut off at a depth -/

/-- The search with at most so many calls one within another; without a result where it would take
one more. -/
def searchWithin (es : List Expression) : Nat → Bindings → ExceptT EvalError Option Bool
  | 0, _ => ExceptT.mk none
  | limit + 1, b =>
    match nextRange b es with
    | .error e => throw e
    | .ok (some (name, keys)) => keys.anyM fun key => searchWithin es limit (b.bind name key)
    | .ok none => ExceptT.mk (some (es.allM (holds b)))

/-- Binding the variable found leaves fewer that are still unbound. -/
theorem card_openNames_bind_lt {name : String} {keys : List Document}
    (h : nextRange b es = .ok (some (name, keys))) (value : Document) :
    (openNames (b.bind name value) es).toFinset.card < (openNames b es).toFinset.card := by
  refine Finset.card_lt_card (Finset.ssubset_iff_of_subset ?_ |>.2 ⟨name, ?_, ?_⟩)
  · exact fun other ho =>
      List.mem_toFinset.2 (mem_openNames_bind (List.mem_toFinset.1 ho)).2
  · exact List.mem_toFinset.2 (mem_openNames_of_nextRange h)
  · exact fun hmem => (mem_openNames_bind (List.mem_toFinset.1 hmem)).1 rfl

/-- Where every attempt has a result, so has trying one after the other. -/
theorem anyM_of_results {ε α : Type} {f : α → ExceptT ε Option Bool} {g : α → Except ε Bool}
    {as : List α} (h : ∀ a ∈ as, f a = ExceptT.mk (some (g a))) :
    as.anyM f = ExceptT.mk (some (as.anyM g)) := by
  induction as with
  | nil => rfl
  | cons a as ih =>
    obtain ⟨ha, has⟩ := List.forall_mem_cons.1 h
    rw [List.anyM, ha, List.anyM, ih has]
    rcases g a with e | (_ | _) <;> rfl

/-- Deep enough, the search is not cut off. -/
theorem searchWithin_eq (limit : Nat) :
    ∀ b : Bindings, (openNames b es).toFinset.card < limit →
      searchWithin es limit b = ExceptT.mk (some (search es b)) := by
  induction limit with
  | zero => intro b h; omega
  | succ limit ih =>
    intro b h
    rw [searchWithin]
    rcases hn : nextRange b es with err | (_ | ⟨name, keys⟩)
    · rw [search_of_error hn]; rfl
    · rw [search_of_none hn]
    · rw [search_of_range hn]
      refine anyM_of_results fun key _ => ih _ ?_
      have := card_openNames_bind_lt hn key
      omega

/-- What holds wherever the search from `b` has called itself down to: of the variables `names`, those
on the trail are bound, each to the key tried, and a further call binds another one. -/
structure Descends (es : List Expression) (names : Finset String) (b : Bindings)
    (trail : List (String × Document)) (σ : Bindings) : Prop where
  next : ∀ name keys, nextRange σ es = .ok (some (name, keys)) →
    σ.get? name = none ∧ name ∈ names ∧ name ∉ trail.map Prod.fst
  distinct : (trail.map Prod.fst).Nodup
  within : ∀ name ∈ trail.map Prod.fst, name ∈ names
  bound : ∀ entry ∈ trail, σ.get? entry.1 = some entry.2
  keeps : σ.Extends b
  depth : trail.length ≤ names.card

theorem Nested.descends {trail : List (String × Document)} (h : Nested es b trail σ) :
    Descends es (openNames b es).toFinset b trail σ := by
  obtain ⟨hnodup, hopen⟩ := h.distinct
  refine ⟨fun name keys hn => ?_, hnodup, fun name hname => List.mem_toFinset.2 (hopen name hname),
    h.bound, h.keeps, h.length_le⟩
  obtain ⟨hfree, hkey⟩ := mem_openNames_iff.1 (mem_openNames_of_nextRange hn)
  -- what was bound at first, or on the way, is bound now
  have hfirst : b.get? name = none := Option.eq_none_iff_forall_ne_some.2 fun d hd => by
    rw [h.keeps name d hd] at hfree; cases hfree
  refine ⟨hfree, List.mem_toFinset.2 (mem_openNames_iff.2 ⟨hfirst, hkey⟩), fun hmem => ?_⟩
  obtain ⟨entry, hentry, rfl⟩ := List.mem_map.1 hmem
  rw [h.bound entry hentry] at hfree; cases hfree

/-- The unbound variables that stand as keys in the expressions are finitely many. Each call of the
search within a call binds one of them that is still unbound and none twice, so that at most as many
calls are nested as there are such variables; and with one call more than that the search always has
its result. -/
theorem search_depth (es : List Expression) (b : Bindings) :
    ∃ names : Finset String, (∀ name, name ∈ names ↔ b.get? name = none ∧ HasKey es name) ∧
      (∀ trail σ, Nested es b trail σ → Descends es names b trail σ) ∧
      ∀ limit, names.card < limit → searchWithin es limit b = ExceptT.mk (some (search es b)) :=
  ⟨(openNames b es).toFinset, fun _ => List.mem_toFinset.trans mem_openNames_iff,
    fun _ _ h => h.descends, fun limit => searchWithin_eq limit b⟩

/-- Some entry of the row that comes first in the order is 3. -/
def threeInOrder : Expression :=
  ⟨0, [.path "eq" [], .ref (.var "input") [.text "rows",
    .ref (.var "input") [.text "order", .var "i"], .var "j"], .numeric (.ofInt 3)]⟩

/-- Two rows, the second before the first. -/
def orderedRows : Bindings :=
  .bind .empty "input" (.object [("order", .array [.ofNat 1, .ofNat 0]),
    ("rows", .array [.array [.ofNat 1], .array [.ofNat 2, .ofNat 3]])])

/-- The key of one reference is another reference; two calls are nested, and three levels suffice. -/
theorem search_depth_threeInOrder :
    ∃ names : Finset String, names = {"i", "j"} ∧
      (∃ σ, Nested [threeInOrder] orderedRows [("i", .ofNat 0), ("j", .ofNat 1)] σ ∧
        Descends [threeInOrder] names orderedRows [("i", .ofNat 0), ("j", .ofNat 1)] σ) ∧
      searchWithin [threeInOrder] 3 orderedRows = ExceptT.mk (some (.ok true)) := by
  obtain ⟨names, hmem, hnested, hlimit⟩ := search_depth [threeInOrder] orderedRows
  have hopen : openNames orderedRows [threeInOrder] = ["i", "j"] := by cbv
  have hnames : names = {"i", "j"} := by
    ext name
    rw [hmem, ← mem_openNames_iff, hopen]
    simp
  have hcalls : Nested [threeInOrder] orderedRows [("i", .ofNat 0), ("j", .ofNat 1)]
      ((orderedRows.bind "i" (.ofNat 0)).bind "j" (.ofNat 1)) := by
    have hi : nextRange orderedRows [threeInOrder] = .ok (some ("i", [.ofNat 0, .ofNat 1])) := by cbv
    have hj : nextRange (orderedRows.bind "i" (.ofNat 0)) [threeInOrder] =
        .ok (some ("j", [.ofNat 0, .ofNat 1])) := by cbv
    exact .call hi (by simp) (.call hj (by simp) (.here _))
  refine ⟨names, hnames, ⟨_, hcalls, hnested _ _ hcalls⟩, ?_⟩
  rw [hlimit 3 (by rw [hnames]; decide)]
  have htrue : search [threeInOrder] orderedRows = .ok true := by cbv
  rw [htrue]

end Expression
end PolicyClient
