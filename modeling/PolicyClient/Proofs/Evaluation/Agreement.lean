/-
What evaluation reads of the bindings: nothing but the variables of the tree. Bindings that agree on
those give the same result, errors included, and an unbound variable that is reported is one of them
(`evaluate_reads_names`). Operators and functions are names of their own and read nothing.

Agreement is kept by binding one more variable, so it is carried along the search.
-/
import Mathlib
import PolicyClient.Proofs.Evaluation.Unbound

namespace PolicyClient

/-! ## Sets of names -/

namespace NameSet

theorem mem_insert {names : NameSet} {name other : String} :
    other ∈ names.insert name ↔ other = name ∨ other ∈ names := by
  induction names with
  | nil => simp [insert]
  | cons n rest ih =>
    unfold insert
    split
    · next h => subst h; simp
    · split
      · simp
      · rw [List.mem_cons, ih, List.mem_cons]; tauto

theorem mem_insertAll {names : NameSet} {more : List String} {name : String} :
    name ∈ names.insertAll more ↔ name ∈ names ∨ name ∈ more := by
  unfold insertAll
  induction more generalizing names with
  | nil => simp
  | cons n more ih => rw [List.foldl_cons, ih, mem_insert, List.mem_cons]; tauto

theorem mem_ofList {more : List String} {name : String} : name ∈ ofList more ↔ name ∈ more := by
  unfold ofList; rw [mem_insertAll]; simp

end NameSet

/-! ## Agreement -/

namespace Bindings

/-- Each of the names stands for the same document under both bindings, or is unbound under both. -/
def Agree (names : List String) (b c : Bindings) : Prop :=
  ∀ name ∈ names, b.get? name = c.get? name

variable {names : List String} {b c : Bindings}

theorem Agree.of_subset {fewer : List String} (h : Agree names b c) (hsub : fewer ⊆ names) :
    Agree fewer b c :=
  fun name hname => h name (hsub hname)

theorem agree_append {more : List String} :
    Agree (names ++ more) b c ↔ Agree names b c ∧ Agree more b c :=
  List.forall_mem_append

theorem Agree.bind (h : Agree names b c) (name : String) (d : Document) :
    Agree names (b.bind name d) (c.bind name d) := by
  intro other ho
  by_cases hn : name = other
  · subst hn; rw [get?_bind_self, get?_bind_self]
  · rw [get?_bind_of_ne d hn, get?_bind_of_ne d hn]; exact h other ho

end Bindings

open Bindings (Agree)

/-! ## Terms -/

namespace Term

variable {b c : Bindings}

theorem agree_of_occurrencesAll {ts : List Term} {t : Term} (h : Agree (occurrencesAll ts) b c)
    (ht : t ∈ ts) : Agree t.occurrences b c :=
  h.of_subset fun _ hn => mem_occurrencesAll.2 ⟨t, ht, hn⟩

theorem walk_congr {keys : List Term} (h : ∀ k ∈ keys, resolve b k = resolve c k)
    (current : Document) : walk b current keys = walk c current keys := by
  induction keys generalizing current with
  | nil => rw [walk, walk]
  | cons key keys ih =>
    obtain ⟨hkey, hkeys⟩ := List.forall_mem_cons.1 h
    simp only [walk_cons, hkey, ih hkeys]

theorem resolveAll_congr {ts : List Term} (h : ∀ t ∈ ts, resolve b t = resolve c t) :
    resolveAll b ts = resolveAll c ts := by
  induction ts with
  | nil => rw [resolveAll, resolveAll]
  | cons t ts ih =>
    obtain ⟨ht, hts⟩ := List.forall_mem_cons.1 h
    simp only [resolveAll_cons, ht, ih hts]

theorem applyTo_congr {function : Term} {operands : List Term}
    (h : ∀ t ∈ operands, resolve b t = resolve c t) :
    applyTo b function operands = applyTo c function operands := by
  by_cases hlen : operands.length = 2
  · obtain ⟨left, right, rfl⟩ := List.length_eq_two.1 hlen
    rw [applyTo_pair, applyTo_pair, h left (by simp), h right (by simp)]
  · rw [applyTo_of_length_ne b function hlen, applyTo_of_length_ne c function hlen]

/-- A term is looked up alike under bindings that agree on its variables. -/
theorem resolve_congr {t : Term} (h : Agree t.occurrences b c) : resolve b t = resolve c t := by
  induction t using Term.induct with
  | ref root keys ihr ihk =>
    rw [occurrences, Bindings.agree_append] at h
    have hkeys := walk_congr fun k hk => ihk k hk (agree_of_occurrencesAll h.2 hk)
    simp only [resolve_ref, ihr h.1, hkeys]
  | call function args _ ih =>
    rw [occurrences] at h
    rw [resolve, resolve]
    exact applyTo_congr fun a ha => ih a ha (agree_of_occurrencesAll h ha)
  | var name => rw [resolve, resolve, h name (by simp [occurrences])]
  | array items ih =>
    rw [occurrences] at h
    rw [resolve_array, resolve_array,
      resolveAll_congr fun t ht => ih t ht (agree_of_occurrencesAll h ht)]
  | set items ih =>
    rw [occurrences] at h
    rw [resolve_set, resolve_set,
      resolveAll_congr fun t ht => ih t ht (agree_of_occurrencesAll h ht)]
  | _ => rw [resolve, resolve]

theorem nextRangeAll_congr {ts : List Term} (h : ∀ t ∈ ts, nextRange b t = nextRange c t) :
    nextRangeAll b ts = nextRangeAll c ts := by
  induction ts with
  | nil => rw [nextRangeAll, nextRangeAll]
  | cons t ts ih =>
    obtain ⟨ht, hts⟩ := List.forall_mem_cons.1 h
    rw [nextRangeAll_cons, nextRangeAll_cons, ht, ih hts]

/-- An unbound key is found under both bindings, and any other is passed alike. -/
theorem nextKeyRange_congr {keys : List Term} (h : Agree (occurrencesAll keys) b c)
    (hn : ∀ k ∈ keys, nextRange b k = nextRange c k) (current : Document) :
    nextKeyRange b current keys = nextKeyRange c current keys := by
  induction keys generalizing current with
  | nil => rw [nextKeyRange, nextKeyRange]
  | cons key keys ih =>
    obtain ⟨hkey, hkeys⟩ := List.forall_mem_cons.1 hn
    obtain ⟨hagree, hagrees⟩ := Bindings.agree_append.1 h
    have hrest := ih hagrees hkeys
    by_cases hopen : ∃ name, key = .var name ∧ b.get? name = none
    · obtain ⟨name, rfl, hb⟩ := hopen
      have hc : c.get? name = none := by rw [← hagree name (by simp [occurrences])]; exact hb
      rw [nextKeyRange_open hb, nextKeyRange_open hc]
    · have hb : ∀ name, key = .var name → b.get? name ≠ none :=
        fun name hname hfree => hopen ⟨name, hname, hfree⟩
      have hc : ∀ name, key = .var name → c.get? name ≠ none := by
        rintro name rfl
        rw [← hagree name (by simp [occurrences])]
        exact hb name rfl
      simp only [nextKeyRange_cons hb, nextKeyRange_cons hc, hkey, resolve_congr hagree, hrest]

theorem nextRange_congr {t : Term} (h : Agree t.occurrences b c) : nextRange b t = nextRange c t := by
  induction t using Term.induct with
  | ref root keys _ ihk =>
    rw [occurrences, Bindings.agree_append] at h
    have hkeys := nextKeyRange_congr h.2 fun k hk => ihk k hk (agree_of_occurrencesAll h.2 hk)
    simp only [nextRange_ref, resolve_congr h.1, hkeys]
  | call function args _ ih =>
    rw [occurrences] at h
    rw [nextRange, nextRange]
    exact nextRangeAll_congr fun a ha => ih a ha (agree_of_occurrencesAll h ha)
  | array items ih =>
    rw [occurrences] at h
    rw [nextRange, nextRange]
    exact nextRangeAll_congr fun t ht => ih t ht (agree_of_occurrencesAll h ht)
  | set items ih =>
    rw [occurrences] at h
    rw [nextRange, nextRange]
    exact nextRangeAll_congr fun t ht => ih t ht (agree_of_occurrencesAll h ht)
  | _ => rw [nextRange, nextRange]

end Term

/-! ## Expressions -/

namespace Expression

variable {b c : Bindings} {es : List Expression}

theorem holds_congr {e : Expression} (h : Agree e.occurrences b c) : e.holds b = e.holds c := by
  have hall : ∀ t ∈ e.operands, t.resolve b = t.resolve c := fun t ht =>
    Term.resolve_congr (Term.agree_of_occurrencesAll h ht)
  obtain ⟨index, terms⟩ := e
  unfold holds
  match terms, hall with
  | [], _ => rfl
  | [t], hall => exact congrArg (Except.map _) (hall t (by simp [operands]))
  | operator :: t :: ts, hall => exact congrArg (Except.map _) (Term.applyTo_congr hall)

theorem nextRange_congr (h : Agree (es.flatMap occurrences) b c) : nextRange b es = nextRange c es := by
  induction es with
  | nil => rw [nextRange, nextRange]
  | cons e es ih =>
    rw [List.flatMap_cons, Bindings.agree_append] at h
    rw [nextRange_cons, nextRange_cons, ih h.2,
      Term.nextRangeAll_congr fun t ht => Term.nextRange_congr (Term.agree_of_occurrencesAll h.1 ht)]

/-- Both searches find the same variables, try the same keys and come to the same result. -/
theorem search_congr (b : Bindings) :
    ∀ c, Agree (es.flatMap occurrences) b c → search es b = search es c := by
  induction b using search_induct es with
  | step b ih =>
    intro c h
    have hnext := nextRange_congr h
    rcases hn : nextRange b es with err | (_ | ⟨name, keys⟩)
    · rw [search_of_error hn, search_of_error (hnext ▸ hn)]
    · rw [search_of_none hn, search_of_none (hnext ▸ hn)]
      exact Fallible.allM_congr fun e he => holds_congr fun name hname =>
        h name (List.mem_flatMap.2 ⟨e, he, hname⟩)
    · rw [search_of_range hn, search_of_range (hnext ▸ hn)]
      exact Fallible.anyM_congr fun key _ => ih name keys hn key _ (h.bind name key)

/-- A variable that the search reports as unbound occurs in the expressions, and it was unbound before
the search bound any other. -/
theorem unbound_of_search {name : String} (h : search es b = .error (.unbound name)) :
    name ∈ es.flatMap occurrences ∧ b.get? name = none := by
  have hoccurs : ∀ {t : Term} {e : Expression}, e ∈ es → t ∈ e.operands → name ∈ t.occurrences →
      name ∈ es.flatMap occurrences := fun {t e} he ht hm =>
    List.mem_flatMap.2 ⟨e, he, Term.mem_occurrencesAll.2 ⟨t, ht, hm⟩⟩
  induction b using search_induct es with
  | step b ih =>
    rcases hn : nextRange b es with err | (_ | ⟨other, keys⟩)
    · rw [search_of_error hn] at h
      cases h
      obtain ⟨e, he, t, ht, hfail⟩ := nextRange_eq_error hn
      obtain ⟨hp, hb⟩ := Term.passed_of_nextRange hfail
      exact ⟨hoccurs he ht hp.mem_occurrences, hb⟩
    · rw [search_of_none hn] at h
      obtain ⟨e, he, hfail⟩ := Fallible.allM_eq_error h
      obtain ⟨t, ht, hr⟩ := unbound_of_holds hfail
      obtain ⟨hm, hb⟩ := Term.unbound_of_resolve hr
      exact ⟨hoccurs he ht hm, hb⟩
    · rw [search_of_range hn] at h
      obtain ⟨pre, key, post, -, -, hfail⟩ := (Fallible.anyM_eq_iff (by simp)).1 h
      obtain ⟨hm, hb⟩ := ih other keys hn key hfail
      refine ⟨hm, ?_⟩
      -- the variable bound on the way is another one
      by_cases ho : other = name
      · subst ho; rw [Bindings.get?_bind_self] at hb; cases hb
      · rw [← Bindings.get?_bind_of_ne key ho]; exact hb

end Expression

/-! ## Queries and query sets -/

/-- The result depends on the bindings of the given names only, and a variable that it reports as
unbound is one of these and is unbound. -/
structure ReadsOnly (names : NameSet) (result : Bindings → Except EvalError Bool) : Prop where
  congr : ∀ b c, Agree names b c → result b = result c
  unbound : ∀ b name, result b = .error (.unbound name) → name ∈ names ∧ b.get? name = none

theorem readsOnly_search (es : List Expression) :
    ReadsOnly (.ofList (es.flatMap Expression.occurrences)) (Expression.search es) where
  congr b c h := Expression.search_congr b c fun name hname => h name (NameSet.mem_ofList.2 hname)
  unbound b name h := by
    rw [NameSet.mem_ofList]; exact Expression.unbound_of_search h

/-- A disjunction reads what its parts read. -/
theorem ReadsOnly.anyM {α : Type} {names : α → List String} {result : α → Bindings → Except EvalError Bool}
    {as : List α} (h : ∀ a ∈ as, ReadsOnly (.ofList (names a)) (result a)) :
    ReadsOnly (.ofList (as.flatMap names)) fun b => as.anyM fun a => result a b where
  congr b c hagree := Fallible.anyM_congr fun a ha =>
    (h a ha).congr b c fun name hname =>
      hagree name (NameSet.mem_ofList.2 (List.mem_flatMap.2 ⟨a, ha, NameSet.mem_ofList.1 hname⟩))
  unbound b name herr := by
    obtain ⟨pre, a, post, rfl, -, ha⟩ := (Fallible.anyM_eq_iff (by simp)).1 herr
    obtain ⟨hm, hb⟩ := (h a (by simp)).unbound b name ha
    exact ⟨NameSet.mem_ofList.2 (List.mem_flatMap.2 ⟨a, by simp, NameSet.mem_ofList.1 hm⟩), hb⟩

/-- Expressions, queries and query sets read their own variables only. -/
theorem evaluate_reads_names :
    (∀ e : Expression, ReadsOnly (Node.expression e).names e.evaluate) ∧
    (∀ q : Query, ReadsOnly (Node.query q).names q.evaluate) ∧
    (∀ s : QuerySet, ReadsOnly (Node.querySet s).names s.evaluate) := by
  refine ⟨fun e => ?_, fun q => readsOnly_search q.expressions,
    fun s => .anyM fun q _ => readsOnly_search q.expressions⟩
  have h := readsOnly_search [e]
  rwa [List.flatMap_singleton] at h

/-- A document bound to the name of an operator is not read. -/
theorem evaluate_reads_names_firstDraft :
    Agree (Node.query firstDraft).names (inputOf []) ((inputOf []).bind "eq" .null) ∧
      firstDraft.evaluate (inputOf []) = firstDraft.evaluate ((inputOf []).bind "eq" .null) ∧
      "$01" ∈ (Node.query firstDraft).names ∧ (inputOf []).get? "$01" = none := by
  have hnames : (Node.query firstDraft).names = ["$01", "input"] := by cbv
  have hagree : Agree (Node.query firstDraft).names (inputOf []) ((inputOf []).bind "eq" .null) := by
    rw [hnames]
    intro name hname
    fin_cases hname <;> rfl
  have hreads := evaluate_reads_names.2.1 firstDraft
  exact ⟨hagree, hreads.congr _ _ hagree, hreads.unbound (inputOf []) "$01" (by cbv)⟩

end PolicyClient
