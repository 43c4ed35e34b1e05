/-
Operators on operands that have documents. There is no variable left to search for, so an expression
answers what its operator answers on the two documents (`evaluate_of_defined`). On numbers all
comparisons agree with the order of the rational numbers that are spelled, however they are spelled
(`evaluate_numbers`).
-/
import Mathlib
import PolicyClient.Proofs.Decimal.Value
import PolicyClient.Proofs.Evaluation.Trial
import PolicyClient.Proofs.Query.Grammar

namespace PolicyClient

/-! ## Operands with documents -/

theorem Term.operator_of_name {f : Term} {name : String} {op : Operator}
    (hf : f.operatorName? = some name) (hop : Operator.ofName? name = some op) :
    f.operator = .ok (name, op) := by
  unfold operator
  rw [hf]
  dsimp only
  rw [hop]

namespace Expression

variable {b : Bindings} {f left right : Term} {l r : Document}

theorem nextRange_of_defined (hl : left.resolve b = .ok (some l))
    (hr : right.resolve b = .ok (some r)) (index : UInt64) :
    nextRange b [⟨index, [f, left, right]⟩] = .ok none :=
  nextRange_of_operands (by
    simpa [operands] using ⟨Term.nextRange_of_defined left l hl, Term.nextRange_of_defined right r hr⟩)

/-- An expression answers what its operator answers on the documents of its operands. -/
theorem evaluate_of_defined {name : String} {op : Operator} (hf : f.operator = .ok (name, op))
    (hl : left.resolve b = .ok (some l)) (hr : right.resolve b = .ok (some r)) (index : UInt64) :
    evaluate ⟨index, [f, left, right]⟩ b = op.apply l r := by
  rw [evaluate_of_closed (nextRange_of_defined hl hr index)]
  show (Term.applyTo b f [left, right]).map Document.isTruthy = _
  rw [Term.applyTo_pair, hf, hl, hr]
  dsimp only
  rcases op.apply l r with e | (_ | _) <;> rfl

end Expression

/-- Every expression that applies the operator `name` to two operands has this answer. -/
def Gives (b : Bindings) (name : String) (left right : Term) (answer : Bool) : Prop :=
  ∀ (index : UInt64) (f : Term), f.operatorName? = some name →
    Expression.evaluate ⟨index, [f, left, right]⟩ b = .ok answer

section

variable {b : Bindings} {name : String} {left right : Term} {answer other : Bool}

theorem gives_of_defined {op : Operator} {l r : Document} (hop : Operator.ofName? name = some op)
    (hl : left.resolve b = .ok (some l)) (hr : right.resolve b = .ok (some r))
    (happly : op.apply l r = .ok answer) : Gives b name left right answer := by
  intro index f hf
  rw [Expression.evaluate_of_defined (Term.operator_of_name hf hop) hl hr, happly]

theorem Gives.inj (h : Gives b name left right answer) (h' : Gives b name left right other) :
    answer = other := by
  have hname : (Term.var name).operatorName? = some name := rfl
  have heq := (h 0 (.var name) hname).symm.trans (h' 0 (.var name) hname)
  exact Except.ok.inj heq

end

/-! ## Numbers -/

namespace Numeral

/-- The number that is spelled: all digits as one integer, scaled by the places behind the point and
the exponent. -/
def value (n : Numeral) : ℚ :=
  Decimal.signed n.negative (valueOf (n.whole ++ n.fraction.getD [])) * (10 : ℚ) ^ (-n.scale)

theorem value_of_decimal? {n : Numeral} {d : Decimal} (h : n.decimal? = some d) :
    d.value = n.value := by
  obtain ⟨hunscaled, hscale⟩ := parts_of_decimal? h
  unfold Decimal.value value
  rw [hunscaled, hscale]

/-- Numbers that spell decimals are ordered by value. -/
theorem compare?_compares {m n : Numeral} (hm : ∃ d, m.decimal? = some d)
    (hn : ∃ d, n.decimal? = some d) : ∃ o, m.compare? n = some o ∧ o.Compares m.value n.value := by
  obtain ⟨x, hx⟩ := hm
  obtain ⟨y, hy⟩ := hn
  refine ⟨x.compare y, ?_, ?_⟩
  · unfold compare?
    rw [hx, hy]; rfl
  · rw [← value_of_decimal? hx, ← value_of_decimal? hy]
    exact Decimal.compare_compares x y

end Numeral

namespace Operator

/-- The relation of two numbers that a comparison stands for. Membership is none. -/
def Relates : Operator → ℚ → ℚ → Prop
  | .equal, x, y => x = y
  | .notEqual, x, y => x ≠ y
  | .less, x, y => x < y
  | .lessOrEqual, x, y => x ≤ y
  | .greater, x, y => y < x
  | .greaterOrEqual, x, y => y ≤ x
  | .member, _, _ => False

/-- A comparison of two numbers succeeds, and answers whether they are related by it. -/
theorem apply_numbers {op : Operator} (hop : op ≠ .member) {m n : Numeral}
    (hm : ∃ d, m.decimal? = some d) (hn : ∃ d, n.decimal? = some d) :
    ∃ answer, op.apply (.number m) (.number n) = .ok answer ∧
      (answer = true ↔ op.Relates m.value n.value) := by
  obtain ⟨o, ho, hcompares⟩ := Numeral.compare?_compares hm hn
  have hsame : Document.same (.number m) (.number n) = (o == .eq) := by
    rw [Document.same, ho]; rfl
  have horder : Document.order (.number m) (.number n) = .ok o := by
    simp only [Document.order, ho]
  cases op with
  | member => exact absurd rfl hop
  | equal =>
    refine ⟨o == .eq, by rw [apply, hsame], ?_⟩
    rw [beq_iff_eq]; exact hcompares.eq_eq
  | notEqual =>
    refine ⟨!(o == .eq), by rw [apply, hsame], ?_⟩
    rw [Bool.not_eq_true', beq_eq_false_iff_ne]; exact not_congr hcompares.eq_eq
  | less =>
    refine ⟨o.isLT, by rw [apply, horder]; rfl, ?_⟩
    rw [Ordering.isLT_iff_eq_lt]; exact hcompares.eq_lt
  | lessOrEqual =>
    refine ⟨o.isLE, by rw [apply, horder]; rfl, ?_⟩
    rw [Ordering.isLE_iff_ne_gt]; exact (not_congr hcompares.eq_gt).trans not_lt
  | greater =>
    refine ⟨o.isGT, by rw [apply, horder]; rfl, ?_⟩
    rw [Ordering.isGT_iff_eq_gt]; exact hcompares.eq_gt
  | greaterOrEqual =>
    refine ⟨o.isGE, by rw [apply, horder]; rfl, ?_⟩
    rw [Ordering.isGE_iff_ne_lt]; exact (not_congr hcompares.eq_lt).trans not_lt

end Operator

/-- All comparisons of two operands, told by whether the first is less than, equal to or greater than
the second. -/
structure Compared (b : Bindings) (left right : Term) (less same greater : Bool) : Prop where
  lt : Gives b "lt" left right less
  eq : Gives b "eq" left right same
  equal : Gives b "equal" left right same
  gt : Gives b "gt" left right greater
  lte : Gives b "lte" left right (less || same)
  gte : Gives b "gte" left right (greater || same)
  neq : Gives b "neq" left right (!same)

/-- A term stands for a number that spells a decimal. -/
structure Term.IsNumber (b : Bindings) (t : Term) (n : Numeral) : Prop where
  resolves : t.resolve b = .ok (some (.number n))
  accepted : ∃ d, n.decimal? = some d

section

variable {b : Bindings} {left right : Term} {m n : Numeral}

theorem gives_of_relates (op : Operator) {name : String} (hop : Operator.ofName? name = some op)
    (hne : op ≠ .member) (hm : left.IsNumber b m) (hn : right.IsNumber b n) {answer : Bool}
    (hanswer : answer = true ↔ op.Relates m.value n.value) : Gives b name left right answer := by
  obtain ⟨found, happly, hfound⟩ := Operator.apply_numbers hne hm.accepted hn.accepted
  obtain rfl : found = answer := Bool.eq_iff_iff.2 (hfound.trans hanswer.symm)
  exact gives_of_defined hop hm.resolves hn.resolves happly

theorem compared_numbers (hm : left.IsNumber b m) (hn : right.IsNumber b n) :
    Compared b left right (decide (m.value < n.value)) (decide (m.value = n.value))
      (decide (n.value < m.value)) where
  lt := gives_of_relates .less rfl nofun hm hn decide_eq_true_iff
  eq := gives_of_relates .equal rfl nofun hm hn decide_eq_true_iff
  equal := gives_of_relates .equal rfl nofun hm hn decide_eq_true_iff
  gt := gives_of_relates .greater rfl nofun hm hn decide_eq_true_iff
  lte := gives_of_relates .lessOrEqual rfl nofun hm hn (by
    rw [Bool.or_eq_true, decide_eq_true_iff, decide_eq_true_iff]; exact le_iff_lt_or_eq.symm)
  gte := gives_of_relates .greaterOrEqual rfl nofun hm hn (by
    rw [Bool.or_eq_true, decide_eq_true_iff, decide_eq_true_iff]; exact le_iff_lt_or_eq'.symm)
  neq := gives_of_relates .notEqual rfl nofun hm hn (by
    rw [Bool.not_eq_true', decide_eq_false_iff_not]; exact Iff.rfl)

end

/-- Two operands that stand for numbers are compared as these numbers, without an error: exactly one of
`lt`, `eq` and `gt` holds, and `lt` is transitive. -/
theorem evaluate_numbers {b : Bindings} {left right : Term} {m n : Numeral}
    (hm : left.IsNumber b m) (hn : right.IsNumber b n) :
    Compared b left right (decide (m.value < n.value)) (decide (m.value = n.value))
      (decide (n.value < m.value)) ∧
    [decide (m.value < n.value), decide (m.value = n.value), decide (n.value < m.value)].count true = 1 ∧
    ∀ third k, Term.IsNumber b third k → Gives b "lt" left right true → Gives b "lt" right third true →
      Gives b "lt" left third true := by
  refine ⟨compared_numbers hm hn, ?_, fun third k hk hlt hlt' => ?_⟩
  · rcases lt_trichotomy m.value n.value with h | h | h
    · simp [h, h.ne, h.le]
    · simp [h]
    · simp [h, h.ne', h.le]
  · have hleft := of_decide_eq_true ((compared_numbers hm hn).lt.inj hlt)
    have hright := of_decide_eq_true ((compared_numbers hn hk).lt.inj hlt')
    have h := (compared_numbers hm hk).lt
    rwa [decide_eq_true (hleft.trans hright)] at h

/-- The number `1e30`. -/
def nonillion : Numeral :=
  { Numeral.ofNat 1 with exponent := some (false, [3, 0]), exponent_ne := by decide }

/-- The number `1000000000000000000000000000000.5`. -/
def nonillionAndHalf : Numeral :=
  { Numeral.ofNat (10 ^ 30) with fraction := some [5], fraction_ne := by decide }

/-- The number `2E+30`. -/
def twoNonillions : Numeral :=
  { Numeral.ofNat 2 with exponent := some (false, [3, 0]), exponent_ne := by decide }

/-- An input with three numbers, one of them written out. -/
def threeNumbers : Bindings :=
  .bind .empty "input" (.object [("a", .number nonillion), ("b", .number nonillionAndHalf),
    ("c", .number twoNonillions)])

/-- `1e30` is less than the same number and a half, and so less than `2e30`. -/
theorem evaluate_numbers_nonillions :
    (Term.path "input" ["a"]).IsNumber threeNumbers nonillion ∧
      (Term.path "input" ["b"]).IsNumber threeNumbers nonillionAndHalf ∧
      (Term.path "input" ["c"]).IsNumber threeNumbers twoNonillions ∧
      Compared threeNumbers (.path "input" ["a"]) (.path "input" ["b"]) true false false ∧
      Gives threeNumbers "lt" (.path "input" ["b"]) (.path "input" ["c"]) true ∧
      Gives threeNumbers "lt" (.path "input" ["a"]) (.path "input" ["c"]) true := by
  have da : nonillion.decimal? = some { unscaled := 1, scale := -30 } := by cbv
  have db : nonillionAndHalf.decimal? =
      some { unscaled := 10000000000000000000000000000005, scale := 1 } := by cbv
  have dc : twoNonillions.decimal? = some { unscaled := 2, scale := -30 } := by cbv
  have ha : (Term.path "input" ["a"]).IsNumber threeNumbers nonillion := ⟨by cbv, _, da⟩
  have hb : (Term.path "input" ["b"]).IsNumber threeNumbers nonillionAndHalf := ⟨by cbv, _, db⟩
  have hc : (Term.path "input" ["c"]).IsNumber threeNumbers twoNonillions := ⟨by cbv, _, dc⟩
  have hab : nonillion.value < nonillionAndHalf.value := by
    rw [← Numeral.value_of_decimal? da, ← Numeral.value_of_decimal? db]
    norm_num [Decimal.value]
  have hbc : nonillionAndHalf.value < twoNonillions.value := by
    rw [← Numeral.value_of_decimal? db, ← Numeral.value_of_decimal? dc]
    norm_num [Decimal.value]
  have hless := (evaluate_numbers ha hb).1
  have hless' := (evaluate_numbers hb hc).1.lt
  rw [decide_eq_true hab, decide_eq_false hab.ne, decide_eq_false hab.asymm] at hless
  rw [decide_eq_true hbc] at hless'
  exact ⟨ha, hb, hc, hless, hless', (evaluate_numbers ha hb).2.2 _ _ hc hless.lt hless'⟩

end PolicyClient
