/-
The characters of the compact form: none is a control character, since strings escape these, and the
first one is of ASCII.
-/
import PolicyClient.Document.Printer
import Mathlib.Tactic.SplitIfs

namespace PolicyClient.Document

theorem le_of_mem_quoted {s : String} {c : Char} (h : c ∈ quoted s) : 0x20 ≤ c.toNat := by
  have hhex : ∀ n < 16, 0x20 ≤ (hexDigit n).toNat := by decide
  have hescape : ∀ a, ∀ b ∈ escapeChar a, 0x20 ≤ b.toNat := by
    intro a b hb
    have hhigh : a.toNat < 0x20 → 0x20 ≤ (hexDigit (a.toNat / 16)).toNat :=
      fun ha => hhex _ (by omega)
    have hlow := hhex (a.toNat % 16) (Nat.mod_lt _ (by decide))
    unfold escapeChar at hb
    split_ifs at hb <;> simp only [List.mem_cons, List.not_mem_nil, or_false] at hb
    -- a letter behind a backslash, the number of the character, or the character itself
    all_goals first
      | (rcases hb with rfl | rfl <;> decide)
      | (rcases hb with rfl | rfl | rfl | rfl | rfl | rfl <;> first | decide | omega)
  unfold quoted at h
  rw [List.cons_append, List.mem_cons, List.mem_append, List.mem_singleton, List.mem_flatMap] at h
  rcases h with rfl | ⟨a, -, ha⟩ | rfl
  · decide
  · exact hescape a c ha
  · decide

theorem le_of_mem_numeral {n : Numeral} {c : Char} (h : c ∈ n.chars) : 0x20 ≤ c.toNat := by
  have hdigit : ∀ d : Digit, 0x20 ≤ (Numeral.digitChar d).toNat := by decide
  have hdigits : ∀ ds : List Digit, ∀ c ∈ ds.map Numeral.digitChar, 0x20 ≤ c.toNat := by
    intro ds c hc
    obtain ⟨d, -, rfl⟩ := List.mem_map.1 hc
    exact hdigit d
  unfold Numeral.chars at h
  simp only [List.mem_append] at h
  rcases h with ((h | h) | h) | h
  · split_ifs at h
    · cases List.mem_singleton.1 h; decide
    · cases h
  · exact hdigits _ c h
  · split at h
    · cases h
    · rcases List.mem_cons.1 h with rfl | h
      · decide
      · exact hdigits _ c h
  · split at h
    · cases h
    · rcases List.mem_cons.1 h with rfl | h
      · decide
      · rcases List.mem_cons.1 h with rfl | h
        · split_ifs <;> decide
        · exact hdigits _ c h

theorem mem_itemChars {items : List Document} {c : Char} (h : c ∈ itemChars items) :
    c = ',' ∨ ∃ d ∈ items, c ∈ d.chars := by
  induction items with
  | nil => cases h
  | cons d items ih =>
    rw [itemChars, List.cons_append, List.mem_cons, List.mem_append] at h
    rcases h with rfl | h | h
    · exact .inl rfl
    · exact .inr ⟨d, List.mem_cons_self, h⟩
    · rcases ih h with rfl | ⟨e, he, hc⟩
      · exact .inl rfl
      · exact .inr ⟨e, List.mem_cons_of_mem d he, hc⟩

theorem mem_memberChars {members : Members} {c : Char} (h : c ∈ memberChars members) :
    c = ',' ∨ c = ':' ∨ ∃ m ∈ members, c ∈ quoted m.1 ∨ c ∈ m.2.chars := by
  induction members with
  | nil => cases h
  | cons m members ih =>
    obtain ⟨key, value⟩ := m
    simp only [memberChars, List.cons_append, List.mem_cons, List.mem_append] at h
    rcases h with rfl | (h | rfl | h) | h
    · exact .inl rfl
    · exact .inr (.inr ⟨_, List.mem_cons_self, .inl h⟩)
    · exact .inr (.inl rfl)
    · exact .inr (.inr ⟨_, List.mem_cons_self, .inr h⟩)
    · rcases ih h with rfl | rfl | ⟨m, hm, hc⟩
      · exact .inl rfl
      · exact .inr (.inl rfl)
      · exact .inr (.inr ⟨m, List.mem_cons_of_mem _ hm, hc⟩)

/-- What is printed in the compact form has no control character. -/
theorem le_of_mem_chars {d : Document} {c : Char} (h : c ∈ d.chars) : 0x20 ≤ c.toNat := by
  have hword : ∀ word ∈ ["null", "true", "false"], ∀ c ∈ word.toList, 0x20 ≤ c.toNat := by simp
  induction d using Document.induct with
  | null => exact hword "null" (by simp) c h
  | bool value => cases value <;> exact hword _ (by simp) c h
  | number n => exact le_of_mem_numeral h
  | text s => exact le_of_mem_quoted h
  | array items ih =>
    cases items with
    | nil =>
      simp only [chars, List.mem_cons, List.not_mem_nil, or_false] at h
      rcases h with rfl | rfl <;> decide
    | cons item items =>
      simp only [chars, List.cons_append, List.mem_cons, List.mem_append, List.not_mem_nil,
        or_false] at h
      rcases h with rfl | (h | h) | rfl
      · decide
      · exact ih _ List.mem_cons_self h
      · rcases mem_itemChars h with rfl | ⟨d, hd, hc⟩
        · decide
        · exact ih d (List.mem_cons_of_mem _ hd) hc
      · decide
  | object members ih =>
    cases members with
    | nil =>
      simp only [chars, List.mem_cons, List.not_mem_nil, or_false] at h
      rcases h with rfl | rfl <;> decide
    | cons m members =>
      obtain ⟨key, value⟩ := m
      -- the first member differs from the others by the comma only
      obtain ⟨body, hmembers, hchars⟩ : ∃ body,
          memberChars ((key, value) :: members) = ',' :: body ∧
          (object ((key, value) :: members)).chars = '\x7b' :: (body ++ ['\x7d']) :=
        ⟨quoted key ++ ':' :: (value.chars ++ memberChars members), by simp [memberChars],
          by simp [chars]⟩
      rw [hchars, List.mem_cons, List.mem_append, List.mem_singleton] at h
      rcases h with rfl | h | rfl
      · decide
      · have hmem : c ∈ memberChars ((key, value) :: members) :=
          hmembers ▸ List.mem_cons_of_mem ',' h
        rcases mem_memberChars hmem with rfl | rfl | ⟨m, hm, hc | hc⟩
        · decide
        · decide
        · exact le_of_mem_quoted hc
        · exact ih m hm hc
      · decide

theorem exists_chars_eq_cons (d : Document) : ∃ c cs, d.chars = c :: cs ∧ c.toNat < 0x80 := by
  have hdigit : ∀ digit : Digit, (Numeral.digitChar digit).toNat < 0x80 := by decide
  cases d with
  | null => exact ⟨'n', _, rfl, by decide⟩
  | bool value =>
    cases value
    · exact ⟨'f', _, rfl, by decide⟩
    · exact ⟨'t', _, rfl, by decide⟩
  | number n =>
    obtain ⟨negative, whole, fraction, exponent, hwhole, -, -, -⟩ := n
    cases negative
    · obtain ⟨digit, digits, rfl⟩ := List.exists_cons_of_ne_nil hwhole
      exact ⟨Numeral.digitChar digit, _, rfl, hdigit digit⟩
    · exact ⟨'-', _, rfl, by decide⟩
  | text s => exact ⟨'"', _, rfl, by decide⟩
  | array items => cases items <;> exact ⟨'[', _, rfl, by decide⟩
  | object members => cases members <;> exact ⟨'\x7b', _, rfl, by decide⟩

end PolicyClient.Document
