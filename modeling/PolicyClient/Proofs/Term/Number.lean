/-
The numbers of terms. Every decimal is read back from its text, and its term has a document and a
value of that number; only a zero with one to thirty-two zeros behind it is written as a text that
is no number, so that its term has neither.
-/
import PolicyClient.Evaluation.Resolve
import PolicyClient.Proofs.Decimal.Text

namespace PolicyClient

/-! ## Number texts -/

/-- Some spelling of a number. -/
def IsNumberText (s : String) : Prop :=
  ∃ (style : Numeral.Style) (n : Numeral), s = String.ofList (n.spelling style)

/-- A spelling of a number is read as a number. -/
theorem numeralOfBytes_of_isNumberText {s : String} (h : IsNumberText s) :
    ∃ n, Document.numeralOfBytes (Utf8.encode s) = .ok n := by
  obtain ⟨style, n, rfl⟩ := h
  exact ⟨n, by rw [Utf8.encode_ofList, Document.numeralOfBytes_spelling]⟩

/-- The text of a decimal is a number exactly if the decimal is no padded zero. -/
theorem isNumberText_text_iff (d : Decimal) : IsNumberText d.text ↔ ¬ d.IsPaddedZero := by
  constructor
  · intro htext
    exact (Decimal.numeral_eq_ok_iff d).1 (numeralOfBytes_of_isNumberText htext)
  · intro h
    obtain ⟨n, hn⟩ := Decimal.exists_numeral_of_not_isPaddedZero h
    exact ⟨_, n, hn⟩

/-! ## Terms of numbers -/

namespace Term

variable {d : Decimal}

theorem toDocument_numeric {n : Numeral} (h : d.numeral = .ok n) :
    (Term.numeric d).toDocument = .ok (tagged "number" (.number n)) := by
  rw [toDocument, h]; rfl

theorem resolve_numeric {n : Numeral} (h : d.numeral = .ok n) (b : Bindings) :
    (Term.numeric d).resolve b = .ok (some (.number n)) := by
  rw [resolve, h]

theorem toDocument_of_isPaddedZero (h : d.IsPaddedZero) :
    ∃ e, (Term.numeric d).toDocument = .error e := by
  obtain ⟨e, he⟩ := Decimal.numeral_of_isPaddedZero h
  exact ⟨e, by rw [toDocument, he]; rfl⟩

theorem resolve_of_isPaddedZero (h : d.IsPaddedZero) (b : Bindings) :
    (Term.numeric d).resolve b = .error (.badNumber "0") := by
  obtain ⟨e, he⟩ := Decimal.numeral_of_isPaddedZero h
  rw [resolve, he, Decimal.label, if_pos h.1]

end Term

/-- The text of a decimal is read back as a decimal of the same value. It spells a number, which the
term of the decimal has as its document and as its value, exactly if the decimal is no padded zero. -/
theorem decimal_text_faithful (d : Decimal) :
    (∃ r, Decimal.ofText? d.text = some r ∧ r.value = d.value ∧ r.same d = true) ∧
    (¬ d.IsPaddedZero → IsNumberText d.text ∧ ∃ n : Numeral,
      (∃ r, n.decimal? = some r ∧ r.value = d.value) ∧
      (Term.numeric d).toDocument = .ok (Term.tagged "number" (.number n)) ∧
      ∀ b, (Term.numeric d).resolve b = .ok (some (.number n))) ∧
    (d.IsPaddedZero → ¬ IsNumberText d.text ∧ (∃ e, (Term.numeric d).toDocument = .error e) ∧
      ∀ b, (Term.numeric d).resolve b = .error (.badNumber "0")) := by
  refine ⟨⟨d.settled, d.ofText?_text, d.value_settled, ?_⟩, fun h => ?_, fun h => ?_⟩
  · rw [Decimal.same_iff, d.value_settled]
  · obtain ⟨n, hn, hd⟩ := Decimal.numeral_of_not_isPaddedZero h
    exact ⟨(isNumberText_text_iff d).2 h, n, ⟨_, hd, d.value_settled⟩, Term.toDocument_numeric hn,
      Term.resolve_numeric hn⟩
  · exact ⟨fun htext => (isNumberText_text_iff d).1 htext h, Term.toDocument_of_isPaddedZero h,
      Term.resolve_of_isPaddedZero h⟩

/-- A zero with an exponent is read, but written as its zeros: the term of `0e5` has no document. -/
theorem zero_with_exponent_unwritable :
    ∃ n d, Document.numeralOfBytes (Utf8.encode "0e5") = .ok n ∧ n.decimal? = some d ∧
      d.text = "000000" ∧ ¬ IsNumberText d.text ∧ (∃ e, (Term.numeric d).toDocument = .error e) ∧
      (Term.numeric d).resolve .empty = .error (.badNumber "0") := by
  let n : Numeral := ⟨false, [.zero], none, some (false, [.last 5]), by decide, by decide, by decide, by decide⟩
  have hread : Document.numeralOfBytes (Utf8.encode "0e5") = .ok n := by
    rw [show "0e5" = String.ofList (n.spelling Decimal.style) from rfl, Utf8.encode_ofList,
      Document.numeralOfBytes_spelling]
  have hdecimal : n.decimal? = some ⟨0, -5, by decide, by decide⟩ := by
    rw [Decimal.decimal?_spelling Decimal.style]
    exact Decimal.ofText?_spell Decimal.style false none n.whole_ne n.exponent_ne
  have hzero : Decimal.IsPaddedZero ⟨0, -5, by decide, by decide⟩ := by decide
  exact ⟨n, _, hread, hdecimal, Decimal.text_of_isPaddedZero hzero,
    fun htext => (isNumberText_text_iff _).1 htext hzero, Term.toDocument_of_isPaddedZero hzero,
    Term.resolve_of_isPaddedZero hzero .empty⟩

end PolicyClient
