/-
Texts cut at their first separator and trimmed at their ends: a text that ends before the separator
is the part in front of it, and one that neither begins nor ends with white space is not trimmed.
-/
import PolicyClient.Text.Blank
import Mathlib.Data.List.DropRight
import Mathlib.Data.List.TakeDrop

namespace PolicyClient

theorem span_of_stop {α : Type} {p : α → Bool} {as bs : List α} (ha : ∀ a ∈ as, p a = true)
    (hb : ∀ b ∈ bs.head?, p b = false) : (as ++ bs).span p = (as, bs) := by
  rw [List.span_eq_takeWhile_dropWhile, List.takeWhile_append_of_pos ha,
    List.dropWhile_append_of_pos ha]
  cases bs with
  | nil => simp
  | cons b bs => simp [hb b rfl]

namespace Text

/-! ## Cutting -/

theorem splitFirst?_append {c : Char} {before : List Char} (h : c ∉ before) (behind : List Char) :
    splitFirst? c (before ++ c :: behind) = some (before, behind) := by
  have hstop : ∀ a ∈ before, (a != c) = true := fun a ha => by
    simp [show a ≠ c from fun e => h (e ▸ ha)]
  unfold splitFirst?
  rw [span_of_stop hstop (by simp)]

theorem splitFirst?_of_not_mem {c : Char} {s : List Char} (h : c ∉ s) : splitFirst? c s = none := by
  have hstop : ∀ a ∈ s, (a != c) = true := fun a ha => by
    simp [show a ≠ c from fun e => h (e ▸ ha)]
  have hspan : s.span (· != c) = (s, []) := by
    simpa using span_of_stop hstop (show ∀ b ∈ ([] : List Char).head?, (b != c) = false by simp)
  unfold splitFirst?
  rw [hspan]

theorem splitFirst?_eq_some_iff {c : Char} {s before behind : List Char} :
    splitFirst? c s = some (before, behind) ↔ c ∉ before ∧ s = before ++ c :: behind := by
  constructor
  · intro h
    by_cases hs : c ∈ s
    · obtain ⟨front, rest, rfl, hfront⟩ := List.eq_append_cons_of_mem hs
      rw [splitFirst?_append hfront] at h
      cases h
      exact ⟨hfront, rfl⟩
    · rw [splitFirst?_of_not_mem hs] at h
      cases h
  · rintro ⟨h, rfl⟩
    exact splitFirst?_append h behind

/-- What has no separator in it goes with the part before the first one. -/
theorem splitFirst?_append_of_not_mem {c : Char} {front : List Char} (h : c ∉ front)
    (s : List Char) : splitFirst? c (front ++ s) =
      (splitFirst? c s).map fun (before, behind) => (front ++ before, behind) := by
  by_cases hs : c ∈ s
  · obtain ⟨before, behind, rfl, hbefore⟩ := List.eq_append_cons_of_mem hs
    have hnot : c ∉ front ++ before := by
      rw [List.mem_append]
      rintro (hc | hc)
      · exact h hc
      · exact hbefore hc
    rw [← List.append_assoc, splitFirst?_append hnot, splitFirst?_append hbefore, Option.map_some]
  · have hnot : c ∉ front ++ s := by
      rw [List.mem_append]
      rintro (hc | hc)
      · exact h hc
      · exact hs hc
    rw [splitFirst?_of_not_mem hnot, splitFirst?_of_not_mem hs, Option.map_none]

/-! ## Trimming -/

theorem dropWhile_of_head {α : Type} {p : α → Bool} {s : List α} (h : ∀ a ∈ s.head?, p a = false) :
    s.dropWhile p = s := by
  cases s with
  | nil => rfl
  | cons a s => rw [List.dropWhile_cons, if_neg (by simp [h a rfl])]

theorem dropEndWhile_of_last {α : Type} {p : α → Bool} {s : List α}
    (h : ∀ a ∈ s.getLast?, p a = false) : dropEndWhile p s = s := by
  unfold dropEndWhile
  rw [dropWhile_of_head (by rwa [List.head?_reverse]), List.reverse_reverse]

theorem dropEndWhile_append {α : Type} {p : α → Bool} {front : List α}
    (h : ∀ a ∈ front.getLast?, p a = false) (rest : List α) :
    dropEndWhile p (front ++ rest) = front ++ dropEndWhile p rest := by
  have hfront : front.reverse.dropWhile p = front.reverse :=
    dropWhile_of_head (by rwa [List.head?_reverse])
  unfold dropEndWhile
  rw [List.reverse_append, List.dropWhile_append, hfront]
  split_ifs with hnil
  · rw [List.isEmpty_iff.1 hnil]
    simp
  · rw [List.reverse_append, List.reverse_reverse]

theorem dropEndWhile_concat {α : Type} (p : α → Bool) (s : List α) (a : α) :
    dropEndWhile p (s ++ [a]) = if p a then dropEndWhile p s else s ++ [a] :=
  List.rdropWhile_concat p s a

theorem mem_dropWhile {α : Type} {p : α → Bool} {s : List α} {a : α} (ha : p a = false) :
    a ∈ s.dropWhile p ↔ a ∈ s := by
  constructor
  · exact fun h => (List.dropWhile_sublist p).subset h
  · intro h
    rw [← @List.takeWhile_append_dropWhile _ p s, List.mem_append] at h
    rcases h with h | h
    · rw [List.mem_takeWhile_imp h] at ha
      cases ha
    · exact h

theorem mem_dropEndWhile {α : Type} {p : α → Bool} {s : List α} {a : α} (ha : p a = false) :
    a ∈ dropEndWhile p s ↔ a ∈ s := by
  unfold dropEndWhile
  rw [List.mem_reverse, mem_dropWhile ha, List.mem_reverse]

/-- What is dropped at the end leaves the beginning. -/
theorem head?_dropEndWhile {α : Type} {p : α → Bool} {s : List α} {a : α}
    (h : a ∈ (dropEndWhile p s).head?) : a ∈ s.head? := by
  have hprefix : dropEndWhile p s <+: s := by
    have := (List.dropWhile_suffix (l := s.reverse) p).reverse
    rwa [List.reverse_reverse] at this
  obtain ⟨rest, hrest⟩ := hprefix
  rw [← hrest]
  cases hs : dropEndWhile p s with
  | nil => rw [hs] at h; cases h
  | cons b s' => rw [hs] at h; exact h

theorem mem_trim {s : List Char} {c : Char} (hc : isBlank c = false) : c ∈ trim s ↔ c ∈ s := by
  unfold trim
  rw [mem_dropEndWhile hc, mem_dropWhile hc]

theorem trim_eq_self {s : List Char} (hhead : ∀ c ∈ s.head?, isBlank c = false)
    (hlast : ∀ c ∈ s.getLast?, isBlank c = false) : trim s = s := by
  unfold trim
  rw [dropWhile_of_head hhead, dropEndWhile_of_last hlast]

/-- A text without white space is not trimmed. -/
theorem trim_of_no_blank {s : List Char} (h : ∀ c ∈ s, isBlank c = false) : trim s = s :=
  trim_eq_self (fun c hc => h c (List.mem_of_mem_head? hc))
    fun c hc => h c (List.mem_of_getLast? hc)

end Text
end PolicyClient
