/-
Equality of literals. A literal stands for one document under all bindings, where a set has become
the array of its elements; so two literals are equal for the evaluator when they are equal place by
place (`evaluate_eq_literals`). A set and the same set in another order are one term, but not one
document (`evaluate_eq_reordered_set`).
-/
import Mathlib
import PolicyClient.Proofs.Evaluation.Trial
import PolicyClient.Proofs.Term.Number
import PolicyClient.Proofs.Term.Settled

namespace PolicyClient

namespace Term

/-! ## Literals -/

/-- A term of literals only, at any nesting. -/
inductive Literal : Term → Prop
  | numeric (d : Decimal) : Literal (.numeric d)
  | text (value : String) : Literal (.text value)
  | bool (value : Bool) : Literal (.bool value)
  | null : Literal .null
  | array {items : List Term} (hitems : ∀ t ∈ items, Literal t) : Literal (.array items)
  | set {items : List Term} (hitems : ∀ t ∈ items, Literal t) : Literal (.set items)

/-- A padded zero stands among the numbers of a literal. -/
inductive HasPaddedZero : Term → Prop
  | numeric {d : Decimal} : d.IsPaddedZero → HasPaddedZero (.numeric d)
  | item {t : Term} {items : List Term} : t ∈ items → HasPaddedZero t → HasPaddedZero (.array items)
  | element {t : Term} {items : List Term} : t ∈ items → HasPaddedZero t → HasPaddedZero (.set items)

/-- No set stands in a literal. -/
inductive Setless : Term → Prop
  | numeric (d : Decimal) : Setless (.numeric d)
  | text (value : String) : Setless (.text value)
  | bool (value : Bool) : Setless (.bool value)
  | null : Setless .null
  | array {items : List Term} (hitems : ∀ t ∈ items, Setless t) : Setless (.array items)

mutual

/-- A literal with every set turned into the array of its elements. -/
def listed : Term → Term
  | .array items => .array (listedAll items)
  | .set items => .array (listedAll items)
  | t => t

/-- The literals with every set turned into an array. -/
def listedAll : List Term → List Term
  | [] => []
  | t :: ts => t.listed :: listedAll ts

end

theorem listedAll_eq_map (ts : List Term) : listedAll ts = ts.map listed := by
  induction ts with
  | nil => rfl
  | cons t ts ih => rw [listedAll, ih, List.map_cons]

theorem listed_of_setless {t : Term} (h : Setless t) : t.listed = t := by
  induction h with
  | array hitems ih =>
    rw [listed, listedAll_eq_map, List.map_congr_left ih, List.map_id']
  | _ => rfl

variable {b : Bindings}

/-! ## Documents of literals -/

/-- The search finds no variable in a literal. -/
theorem nextRange_of_literal {t : Term} (ht : Literal t) : nextRange b t = .ok none := by
  induction ht with
  | array hitems ih => exact nextRangeAll_of_defined ih
  | set hitems ih => exact nextRangeAll_of_defined ih
  | _ => rfl

theorem resolveAll_eq_some_iff {ts : List Term} {ds : List Document} :
    resolveAll b ts = .ok (some ds) ↔ List.Forall₂ (fun t d => resolve b t = .ok (some d)) ts ds := by
  induction ts generalizing ds with
  | nil =>
    rw [List.forall₂_nil_left_iff, resolveAll]
    exact ⟨fun h => by cases h; rfl, fun h => by rw [h]⟩
  | cons t ts ih =>
    rw [resolveAll_cons, List.forall₂_cons_left_iff]
    constructor
    · intro h
      split at h
      · cases h
      · cases h
      · next d hd =>
        obtain ⟨found, hf, hmap⟩ := Fallible.map_eq_ok.1 h
        obtain ⟨rest, rfl, rfl⟩ := Option.map_eq_some_iff.1 hmap
        exact ⟨d, rest, hd, ih.1 hf, rfl⟩
    · rintro ⟨d, rest, hd, hrest, rfl⟩
      rw [hd, ih.2 hrest]; rfl

theorem resolveAll_of_defined {ts : List Term} (h : ∀ t ∈ ts, ∃ d, resolve b t = .ok (some d)) :
    ∃ ds, resolveAll b ts = .ok (some ds) := by
  induction ts with
  | nil => exact ⟨[], by rw [resolveAll]⟩
  | cons t ts ih =>
    obtain ⟨⟨d, hd⟩, hts⟩ := List.forall_mem_cons.1 h
    obtain ⟨ds, hds⟩ := ih hts
    exact ⟨d :: ds, by rw [resolveAll_cons, hd, hds]; rfl⟩

/-- A literal without padded zeros stands for a document. -/
theorem defined_of_literal {t : Term} (ht : Literal t) (hz : ¬ HasPaddedZero t) :
    ∃ d, resolve b t = .ok (some d) := by
  induction ht with
  | numeric d =>
    obtain ⟨n, hn⟩ := (Decimal.numeral_eq_ok_iff d).2 fun h => hz (.numeric h)
    exact ⟨.number n, resolve_numeric hn b⟩
  | array hitems ih =>
    obtain ⟨ds, hds⟩ := resolveAll_of_defined fun t ht => ih t ht fun h => hz (.item ht h)
    exact ⟨.array ds, by rw [resolve_array, hds]; rfl⟩
  | set hitems ih =>
    obtain ⟨ds, hds⟩ := resolveAll_of_defined fun t ht => ih t ht fun h => hz (.element ht h)
    exact ⟨.array ds, by rw [resolve_set, hds]; rfl⟩
  | text value => exact ⟨.text value, by rw [resolve]⟩
  | bool value => exact ⟨.bool value, by rw [resolve]⟩
  | null => exact ⟨.null, by rw [resolve]⟩

/-- Among literals that fail with one error or are defined, one that fails is the result. -/
theorem resolveAll_of_hasPaddedZero {ts : List Term} (hts : ∀ t ∈ ts, Literal t)
    (herr : ∀ t ∈ ts, HasPaddedZero t → resolve b t = .error (.badNumber "0"))
    (hz : ∃ t ∈ ts, HasPaddedZero t) : resolveAll b ts = .error (.badNumber "0") := by
  induction ts with
  | nil => simp at hz
  | cons t ts ih =>
    obtain ⟨ht, hts⟩ := List.forall_mem_cons.1 hts
    obtain ⟨hfail, hfails⟩ := List.forall_mem_cons.1 herr
    rw [resolveAll_cons]
    by_cases h : HasPaddedZero t
    · rw [hfail h]
    · obtain ⟨d, hd⟩ := defined_of_literal (b := b) ht h
      obtain ⟨u, hu, hzu⟩ := hz
      rcases List.mem_cons.1 hu with rfl | hu
      · exact absurd hzu h
      · rw [hd, ih hts hfails ⟨u, hu, hzu⟩]; rfl

/-- A literal with a padded zero has no document. -/
theorem resolve_of_hasPaddedZero {t : Term} (ht : Literal t) (hz : HasPaddedZero t) :
    resolve b t = .error (.badNumber "0") := by
  induction ht with
  | numeric d => cases hz with | numeric h => exact resolve_of_isPaddedZero h b
  | array hitems ih =>
    cases hz with
    | item hu hz => rw [resolve_array, resolveAll_of_hasPaddedZero hitems ih ⟨_, hu, hz⟩]; rfl
  | set hitems ih =>
    cases hz with
    | element hu hz => rw [resolve_set, resolveAll_of_hasPaddedZero hitems ih ⟨_, hu, hz⟩]; rfl
  | _ => cases hz

/-! ## Equality of documents -/

/-- Two numbers are equal as documents exactly if they are equal as decimals. -/
theorem same_number {x y : Decimal} {m n : Numeral} (hm : x.numeral = .ok m) (hn : y.numeral = .ok n) :
    (Document.number m).same (.number n) = x.same y := by
  unfold Document.same Numeral.compare?
  rw [Decimal.decimal?_of_numeral hm, Decimal.decimal?_of_numeral hn, ← Decimal.same_settled x y]
  show (some (x.settled.compare y.settled) == some Ordering.eq) = x.settled.same y.settled
  unfold Decimal.same
  cases x.settled.compare y.settled <;> rfl

/-- What the document of a literal is: its value, or the array of the documents of its items. -/
inductive HasDocument (b : Bindings) : Term → Document → Prop
  | number {x : Decimal} {n : Numeral} : x.numeral = .ok n → HasDocument b (.numeric x) (.number n)
  | text (value : String) : HasDocument b (.text value) (.text value)
  | bool (value : Bool) : HasDocument b (.bool value) (.bool value)
  | null : HasDocument b .null .null
  | items {t : Term} {items : List Term} {ds : List Document} :
      t.listed = .array (listedAll items) → (∀ t ∈ items, Literal t) →
      resolveAll b items = .ok (some ds) → HasDocument b t (.array ds)

/-- An array or a set stands for the array of what its items stand for. -/
theorem resolve_items_eq_some {items : List Term} {d : Document}
    (h : ((resolveAll b items).map fun found => found.map Document.array) = .ok (some d)) :
    ∃ ds, resolveAll b items = .ok (some ds) ∧ d = .array ds := by
  obtain ⟨found, hf, hmap⟩ := Fallible.map_eq_ok.1 h
  obtain ⟨ds, rfl, rfl⟩ := Option.map_eq_some_iff.1 hmap
  exact ⟨ds, hf, rfl⟩

theorem hasDocument_of_resolve {t : Term} {d : Document} (ht : Literal t)
    (h : resolve b t = .ok (some d)) : HasDocument b t d := by
  cases ht with
  | numeric x =>
    rw [resolve] at h
    split at h
    · next n hn => cases h; exact .number hn
    · cases h
  | text value => rw [resolve] at h; cases h; exact .text value
  | bool value => rw [resolve] at h; cases h; exact .bool value
  | null => rw [resolve] at h; cases h; exact .null
  | array hitems =>
    rw [resolve_array] at h
    obtain ⟨ds, hds, rfl⟩ := resolve_items_eq_some h
    exact .items rfl hitems hds
  | set hitems =>
    rw [resolve_set] at h
    obtain ⟨ds, hds, rfl⟩ := resolve_items_eq_some h
    exact .items rfl hitems hds

section

variable {ts : List Term} {ds : List Document}
  (ih : ∀ t ∈ ts, ∀ {u d e}, HasDocument b u e → resolve b t = .ok (some d) →
    d.same e = t.listed.equal u.listed)
include ih

/-- The documents of items are equal one by one exactly if the items are. -/
theorem sameItems_of_literals {us : List Term} {es : List Document} (hus : ∀ u ∈ us, Literal u)
    (hds : resolveAll b ts = .ok (some ds)) (hes : resolveAll b us = .ok (some es)) :
    Document.sameItems ds es = equalAll (listedAll ts) (listedAll us) := by
  rw [resolveAll_eq_some_iff] at hds hes
  induction hds generalizing us es with
  | nil => cases hes <;> simp only [Document.sameItems, listedAll, equalAll]
  | cons hd _ ihds =>
    cases hes with
    | nil => simp only [Document.sameItems, listedAll, equalAll]
    | cons he hes =>
      obtain ⟨hu, hus⟩ := List.forall_mem_cons.1 hus
      rw [Document.sameItems, listedAll, listedAll, equalAll,
        ih _ (by simp) (hasDocument_of_resolve hu he) hd, ihds (fun t ht => ih t (by simp [ht])) hus hes]

/-- A collection is compared with any literal as the array of its items. -/
theorem same_collection {u : Term} {e : Document} (hds : resolveAll b ts = .ok (some ds))
    (he : HasDocument b u e) :
    (Document.array ds).same e = (Term.array (listedAll ts)).equal u.listed := by
  cases he with
  | items hlisted hus hes =>
    rw [hlisted, equal, Document.same, sameItems_of_literals ih hus hds hes]
  | _ => simp only [Document.same, listed, equal]

end

/-- The documents of two literals are equal exactly if the literals are, once listed. -/
theorem same_of_literals {t u : Term} {d e : Document} (ht : Literal t) (he : HasDocument b u e)
    (hd : resolve b t = .ok (some d)) : d.same e = t.listed.equal u.listed := by
  induction ht generalizing u d e with
  | array _ ih =>
    rw [resolve_array] at hd
    obtain ⟨ds, hds, rfl⟩ := resolve_items_eq_some hd
    exact same_collection ih hds he
  | set _ ih =>
    rw [resolve_set] at hd
    obtain ⟨ds, hds, rfl⟩ := resolve_items_eq_some hd
    exact same_collection ih hds he
  -- a value is equal to no value of another kind, and to no array
  | numeric x =>
    cases hasDocument_of_resolve (.numeric x) hd with
    | number hm =>
      cases he with
      | number hn => simp only [same_number hm hn, listed, equal]
      | items hlisted => simp only [Document.same, hlisted, listed, equal]
      | _ => simp only [Document.same, listed, equal]
    | items hlisted => cases hlisted
  | text value =>
    rw [resolve] at hd; cases hd
    cases he with
    | items hlisted => simp only [Document.same, hlisted, listed, equal]
    | _ => simp only [Document.same, listed, equal]
  | bool value =>
    rw [resolve] at hd; cases hd
    cases he with
    | items hlisted => simp only [Document.same, hlisted, listed, equal]
    | _ => simp only [Document.same, listed, equal]
  | null =>
    rw [resolve] at hd; cases hd
    cases he with
    | items hlisted => simp only [Document.same, hlisted, listed, equal]
    | _ => simp only [Document.same, listed, equal]

end Term

open Term (Literal HasPaddedZero Setless)

/-! ## The operator -/

/-- An expression of literals has no variable to search for. -/
theorem Expression.evaluate_literals {f s t : Term} (hs : s.Literal) (ht : t.Literal) (index : UInt64)
    (b : Bindings) :
    evaluate ⟨index, [f, s, t]⟩ b = (Term.applyTo b f [s, t]).map Document.isTruthy := by
  have hn : nextRange b [⟨index, [f, s, t]⟩] = .ok none :=
    nextRange_of_operands (by
      simpa [operands] using ⟨Term.nextRange_of_literal hs, Term.nextRange_of_literal ht⟩)
  rw [evaluate_of_closed hn]; rfl

/-- Two literals are equal for the evaluator exactly if they are equal place by place, with a set read
as the array of its elements; a padded zero is an error. -/
theorem evaluate_eq_literals {f s t : Term} (hf : f.operatorName? = some "eq") (hs : s.Literal)
    (ht : t.Literal) (index : UInt64) (b : Bindings) :
    (¬ s.HasPaddedZero ∧ ¬ t.HasPaddedZero →
      Expression.evaluate ⟨index, [f, s, t]⟩ b = .ok (s.listed.equal t.listed)) ∧
    (s.HasPaddedZero ∨ t.HasPaddedZero →
      Expression.evaluate ⟨index, [f, s, t]⟩ b = .error (.badNumber "0")) ∧
    (Expression.evaluate ⟨index, [f, s, t]⟩ b = .ok (s.equal t) ↔
      (¬ s.HasPaddedZero ∧ ¬ t.HasPaddedZero) ∧ s.listed.equal t.listed = s.equal t) ∧
    (s.Setless → t.Setless → s.listed.equal t.listed = s.equal t) := by
  have hop : f.operator = .ok ("eq", .equal) := by unfold Term.operator; rw [hf]; rfl
  have hdefined : ¬ s.HasPaddedZero ∧ ¬ t.HasPaddedZero →
      Expression.evaluate ⟨index, [f, s, t]⟩ b = .ok (s.listed.equal t.listed) := by
    rintro ⟨hzs, hzt⟩
    obtain ⟨d, hd⟩ := Term.defined_of_literal (b := b) hs hzs
    obtain ⟨e, he⟩ := Term.defined_of_literal (b := b) ht hzt
    rw [Expression.evaluate_literals hs ht, Term.applyTo_pair, hop, hd, he,
      ← Term.same_of_literals hs (Term.hasDocument_of_resolve ht he) hd]
    show Except.ok (Document.isTruthy (some (.bool (d.same e)))) = _
    cases d.same e <;> rfl
  have hpadded : s.HasPaddedZero ∨ t.HasPaddedZero →
      Expression.evaluate ⟨index, [f, s, t]⟩ b = .error (.badNumber "0") := by
    intro hz
    rw [Expression.evaluate_literals hs ht, Term.applyTo_pair, hop]
    by_cases hzs : s.HasPaddedZero
    · rw [Term.resolve_of_hasPaddedZero hs hzs]; rfl
    · obtain ⟨d, hd⟩ := Term.defined_of_literal (b := b) hs hzs
      rw [hd, Term.resolve_of_hasPaddedZero ht (hz.resolve_left hzs)]; rfl
  refine ⟨hdefined, hpadded, ⟨fun h => ?_, fun ⟨hz, heq⟩ => by rw [hdefined hz, heq]⟩, fun ho ho' => ?_⟩
  · by_cases hz : s.HasPaddedZero ∨ t.HasPaddedZero
    · rw [hpadded hz] at h; cases h
    · rw [not_or] at hz
      refine ⟨hz, ?_⟩
      rw [hdefined hz] at h
      exact Except.ok.inj h
  · rw [Term.listed_of_setless ho, Term.listed_of_setless ho']

/-- A set of whole numbers. -/
def wholeSet (numbers : List Int) : Term :=
  .set (numbers.map fun n => .numeric (.ofInt n))

theorem literal_wholeSet (numbers : List Int) : (wholeSet numbers).Literal := by
  refine .set fun t ht => ?_
  obtain ⟨n, -, rfl⟩ := List.mem_map.1 ht
  exact .numeric _

theorem not_hasPaddedZero_wholeSet (numbers : List Int) : ¬ (wholeSet numbers).HasPaddedZero := by
  intro hz
  cases hz with
  | element hn hz =>
    obtain ⟨n, -, rfl⟩ := List.mem_map.1 hn
    cases hz with
    | numeric h => exact absurd h.2.2 (lt_irrefl (0 : Int))

/-- A set is equal to itself for the evaluator, and not to the same set in another order. -/
theorem evaluate_eq_whole_sets :
    Expression.evaluate ⟨0, [.path "eq" [], wholeSet [1, 2], wholeSet [1, 2]]⟩ .empty = .ok true ∧
      Expression.evaluate ⟨0, [.path "eq" [], wholeSet [1, 2], wholeSet [2, 1]]⟩ .empty = .ok false := by
  have hz := not_hasPaddedZero_wholeSet
  constructor
  · rw [(evaluate_eq_literals rfl (literal_wholeSet _) (literal_wholeSet _) 0 .empty).1 ⟨hz _, hz _⟩]
    cbv
  · rw [(evaluate_eq_literals rfl (literal_wholeSet _) (literal_wholeSet _) 0 .empty).1 ⟨hz _, hz _⟩]
    cbv

/-- One set in two orders is one term, but two arrays for the evaluator; and an array is no set, but
equal to one for the evaluator. -/
theorem evaluate_eq_reordered_set :
    (wholeSet [1, 2]).Literal ∧ (wholeSet [2, 1]).Literal ∧
      (wholeSet [1, 2]).equal (wholeSet [2, 1]) = true ∧
      Expression.evaluate ⟨0, [.path "eq" [], wholeSet [1, 2], wholeSet [2, 1]]⟩ .empty = .ok false ∧
      (wholeSet [1]).equal (.array [.numeric (.ofInt 1)]) = false ∧
      Expression.evaluate ⟨0, [.path "eq" [], wholeSet [1], .array [.numeric (.ofInt 1)]]⟩ .empty =
        .ok true := by
  exact ⟨literal_wholeSet _, literal_wholeSet _, by cbv, by cbv, by cbv, by cbv⟩

end PolicyClient
