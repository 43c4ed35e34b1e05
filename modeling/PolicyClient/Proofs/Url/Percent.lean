/-
Percent encoding leaves none of the characters that it encodes, so it changes nothing the second
time, and it writes no dot that was not there; and decoding is UTF-8 where no `%` stands.
-/
import PolicyClient.Url.Percent
import PolicyClient.Proofs.Text.Utf8

namespace PolicyClient.Url

variable {inSet : Char → Bool} {s : List Char}

/-- A set of characters that holds neither `%` nor a digit, so that encoding stays out of it. -/
structure Escapable (inSet : Char → Bool) : Prop where
  percent : inSet '%' = false
  digit : ∀ n < 16, inSet (upperHex n) = false

theorem escapable_inUserSet : Escapable inUserSet :=
  ⟨by decide, by decide⟩

theorem escapable_inPathSet : Escapable inPathSet :=
  ⟨by decide, by decide⟩

theorem escapable_inQuerySet : Escapable inQuerySet :=
  ⟨by decide, by decide⟩

theorem escapable_inFragmentSet : Escapable inFragmentSet :=
  ⟨by decide, by decide⟩

theorem encode_cons (inSet : Char → Bool) (c : Char) (s : List Char) : encode inSet (c :: s) =
    (if inSet c then (String.utf8EncodeChar c).flatMap percentByte else [c]) ++ encode inSet s := rfl

theorem encode_append (inSet : Char → Bool) (s t : List Char) :
    encode inSet (s ++ t) = encode inSet s ++ encode inSet t := List.flatMap_append

theorem encode_of_forall (h : ∀ c ∈ s, inSet c = false) : encode inSet s = s := by
  induction s with
  | nil => rfl
  | cons c s ih =>
    have hc := h c List.mem_cons_self
    have hs := ih fun a ha => h a (List.mem_cons_of_mem c ha)
    show (if inSet c then _ else [c]) ++ encode inSet s = _
    rw [hc, hs]
    rfl

theorem encode_ne_nil (h : s ≠ []) : encode inSet s ≠ [] := by
  obtain ⟨c, s, rfl⟩ := List.exists_cons_of_ne_nil h
  intro hnil
  have hc : (if inSet c then (String.utf8EncodeChar c).flatMap percentByte else [c]) = [] :=
    (List.append_eq_nil_iff.1 hnil).1
  split_ifs at hc
  obtain ⟨b, bs, hbytes⟩ : ∃ b bs, String.utf8EncodeChar c = b :: bs :=
    List.exists_cons_of_length_pos (by
      rw [String.length_utf8EncodeChar]
      exact c.utf8Size_pos)
  rw [hbytes] at hc
  cases hc

theorem not_inSet_of_mem_encode (hset : Escapable inSet) {c : Char} (hc : c ∈ encode inSet s) :
    inSet c = false := by
  obtain ⟨a, -, hc⟩ := List.mem_flatMap.1 hc
  split_ifs at hc with ha
  · obtain ⟨b, -, hc⟩ := List.mem_flatMap.1 hc
    have hb := b.toNat_lt
    simp only [percentByte, List.mem_cons, List.not_mem_nil, or_false] at hc
    rcases hc with rfl | rfl | rfl
    · exact hset.percent
    · exact hset.digit _ (by omega)
    · exact hset.digit _ (by omega)
  · rw [List.mem_singleton.1 hc]
    exact Bool.not_eq_true _ ▸ ha

/-- Encoding brings in `%` and digits only. -/
theorem mem_of_mem_encode {c : Char} (hc : c ∈ encode inSet s) :
    c ∈ s ∨ c = '%' ∨ ∃ n < 16, c = upperHex n := by
  obtain ⟨a, ha, hc⟩ := List.mem_flatMap.1 hc
  split_ifs at hc
  · obtain ⟨b, -, hc⟩ := List.mem_flatMap.1 hc
    have hb := b.toNat_lt
    simp only [percentByte, List.mem_cons, List.not_mem_nil, or_false] at hc
    rcases hc with rfl | rfl | rfl
    · exact .inr (.inl rfl)
    · exact .inr (.inr ⟨_, by omega, rfl⟩)
    · exact .inr (.inr ⟨_, by omega, rfl⟩)
  · rw [List.mem_singleton.1 hc]
    exact .inl ha

theorem mem_encode_of_mem {c : Char} (hc : c ∈ s) (hset : inSet c = false) : c ∈ encode inSet s :=
  List.mem_flatMap.2 ⟨c, hc, by rw [hset]; exact List.mem_singleton_self c⟩

/-- What is left out shows in the length. -/
theorem length_encode_of_sublist {t : List Char} (h : t.Sublist s) :
    (encode inSet t).length + (s.length - t.length) ≤ (encode inSet s).length := by
  induction h with
  | slnil => exact Nat.le_refl 0
  | @cons t s c h ih =>
    have hc : 0 < (encode inSet [c]).length :=
      List.length_pos_iff.2 (encode_ne_nil (List.cons_ne_nil c []))
    rw [← List.singleton_append, encode_append, List.length_append, List.length_append,
      List.length_singleton]
    omega
  | @cons_cons t s c h ih =>
    rw [← List.singleton_append, ← @List.singleton_append _ c s, encode_append, encode_append]
    simp only [List.length_append, List.length_singleton]
    omega

/-- A character that is encoded leaves a `%` with two digits of its first byte behind it. -/
theorem exists_percent_of_inSet {c : Char} (hc : c ∈ s) (hset : inSet c = true) :
    ∃ b ∈ String.utf8EncodeChar c, ∃ rest,
      ('%' :: upperHex (b.toNat / 16) :: upperHex (b.toNat % 16) :: rest) <:+ encode inSet s := by
  obtain ⟨before, behind, rfl⟩ := List.append_of_mem hc
  obtain ⟨b, bytes, hbytes⟩ : ∃ b bytes, String.utf8EncodeChar c = b :: bytes :=
    List.exists_cons_of_length_pos (by
      rw [String.length_utf8EncodeChar]
      exact c.utf8Size_pos)
  refine ⟨b, by rw [hbytes]; exact List.mem_cons_self,
    bytes.flatMap percentByte ++ encode inSet behind, encode inSet before, ?_⟩
  rw [encode_append, encode_cons, if_pos hset, hbytes]
  simp [percentByte]

/-- Where control characters and spaces are encoded, what is left is visible. -/
theorem visible_of_not_inSet (hcontrol : ∀ c, isControl c = true → inSet c = true)
    (hspace : inSet ' ' = true) {c : Char} (h : inSet c = false) : 0x20 < c.toNat := by
  have hne : c.toNat ≠ 0x20 := by
    intro hc
    rw [show c = ' ' from Char.toNat_inj.1 hc, hspace] at h
    cases h
  have hlow : ¬ c.toNat < 0x20 := by
    intro hc
    rw [hcontrol c (by simp [isControl, hc])] at h
    cases h
  omega

theorem decode_of_not_mem (h : '%' ∉ s) : decode s = Utf8.encodeChars s := by
  induction s with
  | nil => rfl
  | cons c s ih =>
    have hc : c ≠ '%' := fun hc => h (hc ▸ List.mem_cons_self)
    have hs := ih fun hmem => h (List.mem_cons_of_mem c hmem)
    rw [decode, hs, Utf8.encodeChars_cons]
    exact fun _ _ _ heq _ => hc heq

end PolicyClient.Url
