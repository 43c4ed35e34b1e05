/-
The documents that hold query sets, said without the reader. The grammar has one predicate for each
level of a tree (`IsTerm`, `IsExpression`, `IsQuery`, `IsQuerySet`); members that it does not name may
be anything. Two numbers are restricted in it: the scale of a number and the index of an expression.
-/
import PolicyClient.Proofs.Decimal.Reading
import PolicyClient.Query.Wire

namespace PolicyClient

/-! ## Numbers -/

namespace Numeral

/-- The scale that a numeral spells: the digits behind the point less the exponent. -/
def scale (n : Numeral) : Int :=
  (n.fraction.getD []).length - Decimal.power n.exponent

/-- The scale is a signed 64-bit number. -/
def ScaleFits (n : Numeral) : Prop :=
  -0x8000000000000000 ≤ n.scale ∧ n.scale < 0x8000000000000000

instance (n : Numeral) : Decidable n.ScaleFits :=
  inferInstanceAs (Decidable (_ ∧ _))

/-- A 64-bit word is spelled, without sign, fraction and exponent. -/
def IsWord (n : Numeral) : Prop :=
  (n.negative = false ∧ n.fraction = none ∧ n.exponent = none) ∧ valueOf n.whole < UInt64.size

instance (n : Numeral) : Decidable n.IsWord :=
  inferInstanceAs (Decidable (_ ∧ _))

theorem decimal?_eq_ofScaled? (n : Numeral) :
    n.decimal? = Decimal.ofScaled?
      (Decimal.signed n.negative (valueOf (n.whole ++ n.fraction.getD []))) n.scale := by
  unfold decimal? text
  rw [chars_eq_spelling]
  exact Decimal.ofText?_spell _ _ _ n.whole_ne n.exponent_ne

theorem parts_of_decimal? {n : Numeral} {d : Decimal} (h : n.decimal? = some d) :
    d.unscaled = Decimal.signed n.negative (valueOf (n.whole ++ n.fraction.getD [])) ∧
      d.scale = n.scale := by
  rw [decimal?_eq_ofScaled?] at h
  unfold Decimal.ofScaled? at h
  split at h
  · cases h; exact ⟨rfl, rfl⟩
  · cases h

theorem exists_decimal_iff (n : Numeral) : (∃ d, n.decimal? = some d) ↔ n.ScaleFits := by
  rw [decimal?_eq_ofScaled?]
  unfold Decimal.ofScaled?
  constructor
  · rintro ⟨d, h⟩
    split at h
    · next hfits => exact hfits
    · cases h
  · intro h
    exact ⟨_, dif_pos h⟩

theorem exists_word_iff (n : Numeral) : (∃ w, n.word? = some w) ↔ n.IsWord := by
  unfold word? nat? IsWord
  split
  · next h =>
    rw [Option.bind_some]
    split
    · next hlt => simp [h, hlt]
    · next hlt => simp [hlt]
  · next h => simp [h]

/-- The text of a numeral determines it. -/
theorem text_injective {m n : Numeral} (h : m.text = n.text) : m = n := by
  have hread : ∀ k : Numeral, Document.numeralOfBytes (Utf8.encode k.text) = .ok k := by
    intro k
    unfold text
    rw [chars_eq_spelling, Utf8.encode_ofList, Document.numeralOfBytes_spelling]
  have := hread m
  rw [h, hread n] at this
  exact (Except.ok.inj this).symm

theorem text_ofNat (k : Nat) : (ofNat k).text = toString k := by
  show String.ofList (ofNat k).chars = String.ofList (Decimal.digitsOf k)
  rw [Decimal.digitsOf_eq_map]
  unfold chars ofNat
  simp

/-- A word is spelled exactly if the text is that of a natural number below `2 ^ 64`. -/
theorem isWord_iff_text (n : Numeral) : n.IsWord ↔ ∃ k < UInt64.size, n.text = toString k := by
  rw [← exists_word_iff]
  constructor
  · rintro ⟨w, hw⟩
    refine ⟨w.toNat, w.toNat_lt, ?_⟩
    rw [← text_ofNat, ← eq_ofNat_of_word? hw]
  · rintro ⟨k, hk, htext⟩
    rw [← text_ofNat] at htext
    obtain rfl := text_injective htext
    have := word?_ofNat (UInt64.ofNat k)
    rw [UInt64.toNat_ofNat_of_lt' hk] at this
    exact ⟨_, this⟩

end Numeral

/-! ## The grammar -/

/-- The documents that hold a term. -/
inductive IsTerm : Document → Prop
  | path {members : Members} {type : String} {items : List Document} :
      type = "ref" ∨ type = "call" → members.get? "type" = some (.text type) →
      members.get? "value" = some (.array items) → items ≠ [] → (∀ d ∈ items, IsTerm d) →
      IsTerm (.object members)
  | collection {members : Members} {type : String} {items : List Document} :
      type = "array" ∨ type = "set" → members.get? "type" = some (.text type) →
      members.get? "value" = some (.array items) → (∀ d ∈ items, IsTerm d) → IsTerm (.object members)
  | text {members : Members} {type value : String} :
      type = "var" ∨ type = "string" → members.get? "type" = some (.text type) →
      members.get? "value" = some (.text value) → IsTerm (.object members)
  | bool {members : Members} {value : Bool} :
      members.get? "type" = some (.text "boolean") → members.get? "value" = some (.bool value) →
      IsTerm (.object members)
  | number {members : Members} {n : Numeral} :
      members.get? "type" = some (.text "number") → members.get? "value" = some (.number n) →
      n.ScaleFits → IsTerm (.object members)
  | null {members : Members} :
      members.get? "type" = some (.text "null") → IsTerm (.object members)

/-- There is no index, or it is null or a word. -/
def IsIndex (members : Members) : Prop :=
  members.get? "index" = none ∨ members.get? "index" = some .null ∨
    ∃ n k, members.get? "index" = some (.number n) ∧ k < UInt64.size ∧ n.text = toString k

/-- The documents that hold an expression. -/
def IsExpression (d : Document) : Prop :=
  ∃ members : Members, d = .object members ∧ IsIndex members ∧
    ((∃ items, members.get? "terms" = some (.array items) ∧ ∀ t ∈ items, IsTerm t) ∨
      ∃ term, members.get? "terms" = some (.object term) ∧ IsTerm (.object term))

/-- The documents that hold a query. -/
def IsQuery (d : Document) : Prop :=
  ∃ items, d = .array items ∧ ∀ e ∈ items, IsExpression e

/-- The documents that hold a query set. -/
def IsQuerySet (d : Document) : Prop :=
  ∃ items, d = .array items ∧ ∀ q ∈ items, IsQuery q

end PolicyClient
