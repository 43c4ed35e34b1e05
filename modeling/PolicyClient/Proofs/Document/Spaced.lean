/-
White space between the tokens of an object. It is skipped in front of whatever comes next, so an object
with one member is read as if it stood there without (`ofBytes_of_isMember`), whatever the value.
-/
import Mathlib
import PolicyClient.Proofs.Document.RoundTrip

namespace PolicyClient.Document

open Utf8

/-- Nothing but white space. -/
def Blank (w : Bytes) : Prop :=
  ∀ b ∈ w, isBlankByte b = true

instance (w : Bytes) : Decidable (Blank w) :=
  inferInstanceAs (Decidable (∀ b ∈ w, isBlankByte b = true))

section

variable {depth : Nat} {s s' s'' t rest w : Bytes} {b : UInt8} {d : Document} {key : String}

theorem skipBlank_append (hw : Blank w) (s : Bytes) : skipBlank (w ++ s) = skipBlank s :=
  List.dropWhile_append_of_pos hw

theorem isBlankByte_of_skipBlank (h : skipBlank s = b :: rest) : isBlankByte b = false := by
  have hhead := List.head?_dropWhile_not isBlankByte s
  unfold skipBlank at h
  rw [h] at hhead
  exact hhead

/-- White space in front of a value is skipped. -/
theorem readValue_skipBlank (s : Bytes) :
    parts (readValue depth (skipBlank s)) = parts (readValue depth s) := by
  rcases hs : skipBlank s with _ | ⟨b, rest⟩
  · rw [readValue, readValue]
    split
    · split
      · rfl
      · next heq => rw [hs] at heq; cases heq
    · next heq => cases heq
  · rw [readValue_cons (isBlankByte_of_skipBlank hs), readValue]
    symm
    split
    · next heq => rw [hs] at heq; cases heq
    · next heq =>
      rw [hs] at heq
      cases heq
      dsimp only
      -- as in `readValue_cons`: in each branch only the bound on what is left differs
      split_ifs
      · exact parts_map_value (fun _ => null) _ _
      · exact parts_map_value (fun _ => bool true) _ _
      · exact parts_map_value (fun _ => bool false) _ _
      · exact parts_map_value text _ _
      · exact parts_map_value number _ _
      · rfl
      · exact parts_map_value array _ _
      · rfl
      · exact parts_map _ _
      · rfl

theorem readValue_blank (hw : Blank w) (s : Bytes) :
    parts (readValue depth (w ++ s)) = parts (readValue depth s) := by
  rw [← readValue_skipBlank, skipBlank_append hw, readValue_skipBlank]

theorem readColon_blank (hw : Blank w) (s : Bytes) : parts (readColon (w ++ 0x3A :: s)) = .ok ((), s) := by
  have hskip : skipBlank (w ++ 0x3A :: s) = 0x3A :: s := by
    rw [skipBlank_append hw, skipBlank_cons rfl]
  rw [readColon]
  split
  · next heq => rw [hskip] at heq; cases heq
  · next heq => rw [hskip] at heq; cases heq; rfl

theorem readField_blank (hw : Blank w) (h : parts (readValue depth s) = .ok (d, rest)) :
    parts (readField depth (w ++ 0x3A :: s)) = .ok (d, rest) := by
  obtain ⟨_, hcolon⟩ := parts_eq_ok (readColon_blank hw s)
  obtain ⟨_, h⟩ := parts_eq_ok h
  rw [readField]
  simp only [hcolon, bind, Except.bind, h]
  rfl

theorem readMembers_blank (hw : Blank w) (rest : Bytes) :
    parts (readMembers depth (w ++ 0x7D :: rest)) = .ok ([], rest) := by
  have hskip : skipBlank (w ++ 0x7D :: rest) = 0x7D :: rest := by
    rw [skipBlank_append hw, skipBlank_cons rfl]
  rw [readMembers]
  split
  · next heq => rw [hskip] at heq; cases heq
  · next heq => rw [hskip] at heq; cases heq; rfl

theorem readObject_blank {members : Members} (hw : Blank w) (hkey : parts (readText s) = .ok (key, s'))
    (hne : key ≠ numberKey) (hvalue : parts (readField depth s') = .ok (d, s''))
    (hmore : parts (readMembers depth s'') = .ok (members, rest)) :
    parts (readObject depth (w ++ 0x22 :: s)) = .ok (ofMembers ((key, d) :: members), rest) := by
  have hskip : skipBlank (w ++ 0x22 :: s) = 0x22 :: s := by
    rw [skipBlank_append hw, skipBlank_cons rfl]
  obtain ⟨_, hkey⟩ := parts_eq_ok hkey
  obtain ⟨_, hvalue⟩ := parts_eq_ok hvalue
  obtain ⟨_, hmore⟩ := parts_eq_ok hmore
  rw [readObject]
  split
  · next heq => rw [hskip] at heq; cases heq
  · next heq =>
    rw [hskip] at heq
    cases heq
    simp only [show ¬(0x22 : UInt8) = 0x7D by decide, if_false, if_true, hkey, bind, Except.bind,
      if_neg hne, hvalue, hmore]
    rfl

theorem endsNumber_blank (hw : Blank w) (rest : Bytes) : EndsNumber (w ++ 0x7D :: rest) := by
  rcases w with _ | ⟨b, w⟩
  · exact endsNumber_cons (by decide) rest
  · rintro c ⟨⟩
    have hb := hw b List.mem_cons_self
    simp only [isBlankByte, Bool.or_eq_true, beq_iff_eq] at hb
    rcases hb with ((rfl | rfl) | rfl) | rfl <;> decide

end

/-! ## Objects with one member -/

/-- An object with one member, a key and the bytes of a value, with white space between its tokens. -/
def IsMember (key : String) (value bytes : Bytes) : Prop :=
  ∃ w₀ w₁ w₂ w₃ w₄ w₅, Blank w₀ ∧ Blank w₁ ∧ Blank w₂ ∧ Blank w₃ ∧ Blank w₄ ∧ Blank w₅ ∧
    bytes = w₀ ++ 0x7B :: (w₁ ++ encode (print (.text key)) ++ w₂ ++
      0x3A :: (w₃ ++ value ++ w₄ ++ 0x7D :: w₅))

/-- An object with one member is read, if its value is. -/
theorem ofBytes_of_isMember {key : String} {d : Document} {bytes : Bytes}
    (hd : Readable 126 d) (hkey : key ≠ numberKey) (h : IsMember key (encode d.print) bytes) :
    ofBytes bytes = .ok (.object [(key, d)]) := by
  obtain ⟨w₀, w₁, w₂, w₃, w₄, w₅, h₀, h₁, h₂, h₃, h₄, h₅, rfl⟩ := h
  have hvalue : parts (readValue 127 (w₃ ++ (encode d.print ++ (w₄ ++ 0x7D :: w₅)))) =
      .ok (d, w₄ ++ 0x7D :: w₅) := by
    rw [readValue_blank h₃, print, encode_ofList]
    exact readsBack_of_readable hd _ (endsNumber_blank h₄ w₅)
  have hobject := readObject_blank h₁ (readText_quoted key _) hkey (readField_blank h₂ hvalue)
    (readMembers_blank h₄ w₅)
  have htokens : w₁ ++ encode (print (.text key)) ++ w₂ ++ 0x3A :: (w₃ ++ encode d.print ++ w₄ ++ 0x7D :: w₅) =
      w₁ ++ 0x22 :: (encodeChars (key.toList.flatMap escapeChar) ++
        0x22 :: (w₂ ++ 0x3A :: (w₃ ++ (encode d.print ++ (w₄ ++ 0x7D :: w₅))))) := by
    rw [print, encode_ofList, chars, encodeChars_quoted]
    simp only [List.append_assoc, List.cons_append, List.nil_append]
  rw [htokens]
  have hread : parts (readValue maxDepth (w₀ ++ 0x7B :: (w₁ ++ 0x22 :: _))) =
      .ok (.object [(key, d)], w₅) := (readValue_blank h₀ _).trans (readValue_object hobject)
  generalize w₀ ++ 0x7B :: _ = bytes at hread ⊢
  obtain ⟨_, hread⟩ := parts_eq_ok hread
  have hfront : readFront bytes = .ok (.object [(key, d)], w₅) := by
    rw [readFront, hread]; rfl
  have hend : checkEnd bytes w₅ = .ok () := by
    have hskip : skipBlank w₅ = [] := List.dropWhile_eq_nil_iff.2 h₅
    rw [checkEnd, readEnd, hskip]; rfl
  unfold ofBytes
  rw [hfront]
  show (checkEnd bytes w₅).bind _ = _
  rw [hend]; rfl

end PolicyClient.Document
