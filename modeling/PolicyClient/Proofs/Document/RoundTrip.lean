/-
What is printed in the compact form is read back (`ofBytes_print`), down to the spelling of the
numbers. Each reader is followed over the characters that the printer writes for it; what stands
behind a value is a comma or a closing bracket, so a number ends there. `Readable` says what a
document needs for that: the reader refuses one that nests too deep, and sorts members.
-/
import PolicyClient.Document.Reader
import PolicyClient.Proofs.Document.Text

namespace PolicyClient

/-! ## Members in order -/

namespace Members

theorem insert_of_last {members : Members} {name : String} {value : Document}
    (h : ∀ m ∈ members, m.1 < name) : members.insert name value = members ++ [(name, value)] := by
  induction members with
  | nil => rfl
  | cons m members ih =>
    have hm := h m List.mem_cons_self
    have hrest := ih fun a ha => h a (List.mem_cons_of_mem m ha)
    rw [insert, if_neg (String.ne_of_lt hm), if_neg (String.lt_asymm hm), hrest, List.cons_append]

theorem foldl_insert_of_sorted {members more : Members} (h : Sorted (members ++ more)) :
    more.foldl (fun members entry => members.insert entry.1 entry.2) members = members ++ more := by
  induction more generalizing members with
  | nil => rw [List.foldl_nil, List.append_nil]
  | cons m more ih =>
    have hlast : ∀ a ∈ members, a.1 < m.1 := fun a ha =>
      (List.pairwise_append.1 h).2.2 a ha m List.mem_cons_self
    rw [List.append_cons] at h
    rw [List.foldl_cons, insert_of_last hlast, ih h, List.append_assoc, List.singleton_append]

theorem ofList_of_sorted {members : Members} (h : Sorted members) : ofList members = members :=
  foldl_insert_of_sorted h

end Members

namespace Document

open Utf8

/-! ## Documents that can be read -/

/-- The document nests at most `n` containers deep, the members of its objects are in order, and no
object begins with the key that marks a number. -/
inductive Readable : Nat → Document → Prop
  | null (n : Nat) : Readable n .null
  | bool (n : Nat) (value : Bool) : Readable n (.bool value)
  | number (n : Nat) (value : Numeral) : Readable n (.number value)
  | text (n : Nat) (value : String) : Readable n (.text value)
  | array {n : Nat} {items : List Document} (items_readable : ∀ d ∈ items, Readable n d) :
    Readable (n + 1) (.array items)
  | object {n : Nat} {members : Members} (sorted : members.Sorted)
      (first : ∀ m ∈ members.head?, m.1 ≠ numberKey)
      (members_readable : ∀ m ∈ members, Readable n m.2) : Readable (n + 1) (.object members)

/-! ## Steps of the readers -/

section

variable {depth : Nat} {s s' s'' rest : Bytes} {d : Document} {b : UInt8}

theorem skipBlank_cons (hb : isBlankByte b = false) (s : Bytes) : skipBlank (b :: s) = b :: s := by
  unfold skipBlank
  rw [List.dropWhile_cons_of_neg (by simp [hb])]

theorem toNat_of_begins (hb : b = 0x2D ∨ (Numeral.digitOfByte? b).isSome) :
    b.toNat = 0x2D ∨ 48 ≤ b.toNat ∧ b.toNat < 58 := by
  rcases hb with rfl | hb
  · exact .inl rfl
  · unfold Numeral.digitOfByte? at hb
    split_ifs at hb with hdigit
    · exact .inr hdigit
    · cases hb

/-- No byte at which a number begins is one of those around or below its digits. -/
theorem ne_of_begins (hb : b = 0x2D ∨ (Numeral.digitOfByte? b).isSome) {c : UInt8}
    (hc : c.toNat < 0x2D ∨ 58 ≤ c.toNat) : b ≠ c := by
  rintro rfl
  have := toNat_of_begins hb
  omega

theorem isBlankByte_of_begins (hb : b = 0x2D ∨ (Numeral.digitOfByte? b).isSome) :
    isBlankByte b = false := by
  have hne : ∀ c : UInt8, c.toNat < 0x2D → b ≠ c := fun c hc => ne_of_begins hb (.inl hc)
  simp [isBlankByte, hne 0x20 (by decide), hne 0x09 (by decide), hne 0x0A (by decide),
    hne 0x0D (by decide)]

/-! ### Values -/

/-- What a value is read as is decided by its first byte. -/
theorem readValue_cons (hb : isBlankByte b = false) (s : Bytes) :
    parts (readValue depth (b :: s)) =
      if b = 0x6E then (parts (readWord "ull".toList s)).map fun p => (.null, p.2)
      else if b = 0x74 then (parts (readWord "rue".toList s)).map fun p => (.bool true, p.2)
      else if b = 0x66 then (parts (readWord "alse".toList s)).map fun p => (.bool false, p.2)
      else if b = 0x22 then (parts (readText s)).map fun p => (.text p.1, p.2)
      else if b = 0x2D ∨ (Numeral.digitOfByte? b).isSome then
        (parts (readNumber (b :: s))).map fun p => (.number p.1, p.2)
      else if b = 0x5B then
        if depth ≤ 1 then failNext .tooDeep (b :: s)
        else (parts (readArray (depth - 1) s)).map fun p => (.array p.1, p.2)
      else if b = 0x7B then
        if depth ≤ 1 then failNext .tooDeep (b :: s) else parts (readObject (depth - 1) s)
      else failNext .noValue (b :: s) := by
  rw [readValue]
  split
  · next heq => rw [skipBlank_cons hb] at heq; cases heq
  · next heq =>
    rw [skipBlank_cons hb] at heq
    cases heq
    dsimp only
    -- in each branch only the bound on what is left differs
    split_ifs
    · exact parts_map_value (fun _ => null) _ _
    · exact parts_map_value (fun _ => bool true) _ _
    · exact parts_map_value (fun _ => bool false) _ _
    · exact parts_map_value text _ _
    · exact parts_map_value number _ _
    · rfl
    · exact parts_map_value array _ _
    · rfl
    · exact parts_map _ _
    · rfl

theorem readValue_null (rest : Bytes) :
    parts (readValue depth (encodeChars "null".toList ++ rest)) = .ok (.null, rest) :=
  readValue_cons (b := 0x6E) rfl (0x75 :: 0x6C :: 0x6C :: rest)

theorem readValue_true (rest : Bytes) :
    parts (readValue depth (encodeChars "true".toList ++ rest)) = .ok (.bool true, rest) :=
  readValue_cons (b := 0x74) rfl (0x72 :: 0x75 :: 0x65 :: rest)

theorem readValue_false (rest : Bytes) :
    parts (readValue depth (encodeChars "false".toList ++ rest)) = .ok (.bool false, rest) :=
  readValue_cons (b := 0x66) rfl (0x61 :: 0x6C :: 0x73 :: 0x65 :: rest)

theorem readValue_text {value : String} (h : parts (readText s) = .ok (value, rest)) :
    parts (readValue depth (0x22 :: s)) = .ok (.text value, rest) := by
  rw [readValue_cons rfl, h]
  rfl

theorem readValue_number {value : Numeral} (hb : b = 0x2D ∨ (Numeral.digitOfByte? b).isSome)
    (h : parts (readNumber (b :: s)) = .ok (value, rest)) :
    parts (readValue depth (b :: s)) = .ok (.number value, rest) := by
  have hletter : ∀ c : UInt8, 58 ≤ c.toNat → b ≠ c := fun c hc => ne_of_begins hb (.inr hc)
  have hquote : b ≠ 0x22 := ne_of_begins hb (by decide)
  rw [readValue_cons (isBlankByte_of_begins hb), if_neg (hletter 0x6E (by decide)),
    if_neg (hletter 0x74 (by decide)), if_neg (hletter 0x66 (by decide)), if_neg hquote,
    if_pos hb, h]
  rfl

theorem readValue_array {items : List Document}
    (h : parts (readArray (depth + 1) s) = .ok (items, rest)) :
    parts (readValue (depth + 2) (0x5B :: s)) = .ok (.array items, rest) := by
  rw [readValue_cons rfl]
  show (parts (readArray (depth + 1) s)).map _ = _
  rw [h]
  rfl

theorem readValue_object (h : parts (readObject (depth + 1) s) = .ok (d, rest)) :
    parts (readValue (depth + 2) (0x7B :: s)) = .ok (d, rest) := by
  rw [readValue_cons rfl]
  exact h

/-! ### Arrays -/

theorem readArray_nil (rest : Bytes) : parts (readArray depth (0x5D :: rest)) = .ok ([], rest) := by
  rw [readArray]
  split
  · next heq => cases heq
  · next heq => cases heq; rfl

theorem readArray_cons {items : List Document} (hblank : isBlankByte b = false) (hb : b ≠ 0x5D)
    (h : parts (readItems depth (b :: s)) = .ok (items, rest)) :
    parts (readArray depth (b :: s)) = .ok (items, rest) := by
  obtain ⟨_, h⟩ := parts_eq_ok h
  rw [readArray]
  split
  · next heq => rw [skipBlank_cons hblank] at heq; cases heq
  · next heq =>
    rw [skipBlank_cons hblank] at heq
    cases heq
    rw [if_neg hb, h]
    rfl

theorem readItems_last (h : parts (readValue depth s) = .ok (d, 0x5D :: rest)) :
    parts (readItems depth s) = .ok ([d], rest) := by
  obtain ⟨_, h⟩ := parts_eq_ok h
  rw [readItems]
  simp only [h, bind, Except.bind]
  split
  · next heq => cases heq
  · next heq => cases heq; rfl

theorem readItems_cons {items : List Document}
    (h : parts (readValue depth s) = .ok (d, 0x2C :: b :: s')) (hblank : isBlankByte b = false)
    (hb : b ≠ 0x5D) (hmore : parts (readItems depth (b :: s')) = .ok (items, rest)) :
    parts (readItems depth s) = .ok (d :: items, rest) := by
  obtain ⟨_, h⟩ := parts_eq_ok h
  obtain ⟨_, hmore⟩ := parts_eq_ok hmore
  rw [readItems]
  simp only [h, bind, Except.bind]
  split
  · next heq => cases heq
  · next heq =>
    cases heq
    rw [if_neg (by decide), if_pos rfl]
    split
    · next heq => rw [skipBlank_cons hblank] at heq; cases heq
    · next heq =>
      rw [skipBlank_cons hblank] at heq
      cases heq
      rw [if_neg hb]
      simp only [hmore]
      rfl

/-! ### Objects -/

variable {key : String} {members : Members}

theorem readField_colon (h : parts (readValue depth s) = .ok (d, rest)) :
    parts (readField depth (0x3A :: s)) = .ok (d, rest) := by
  have hcolon : parts (readColon (0x3A :: s)) = .ok ((), s) := by
    rw [readColon]
    split
    · next heq => cases heq
    · next heq => cases heq; rfl
  obtain ⟨_, hcolon⟩ := parts_eq_ok hcolon
  obtain ⟨_, h⟩ := parts_eq_ok h
  rw [readField]
  simp only [hcolon, bind, Except.bind, h]
  rfl

theorem readMembers_nil (rest : Bytes) :
    parts (readMembers depth (0x7D :: rest)) = .ok ([], rest) := by
  rw [readMembers]
  split
  · next heq => cases heq
  · next heq => cases heq; rfl

theorem readMembers_cons (hkey : parts (readText s) = .ok (key, s'))
    (hvalue : parts (readField depth s') = .ok (d, s''))
    (hmore : parts (readMembers depth s'') = .ok (members, rest)) :
    parts (readMembers depth (0x2C :: 0x22 :: s)) = .ok ((key, d) :: members, rest) := by
  obtain ⟨_, hkey⟩ := parts_eq_ok hkey
  obtain ⟨_, hvalue⟩ := parts_eq_ok hvalue
  obtain ⟨_, hmore⟩ := parts_eq_ok hmore
  rw [readMembers]
  split
  · next heq => cases heq
  · next heq =>
    cases heq
    rw [if_neg (by decide), if_pos rfl]
    split
    · next heq => cases heq
    · next heq =>
      cases heq
      simp only [if_true, hkey, bind, Except.bind, hvalue, hmore]
      rfl

theorem readObject_nil (rest : Bytes) :
    parts (readObject depth (0x7D :: rest)) = .ok (.object [], rest) := by
  rw [readObject]
  split
  · next heq => cases heq
  · next heq => cases heq; rfl

theorem readObject_cons (hkey : parts (readText s) = .ok (key, s')) (hne : key ≠ numberKey)
    (hvalue : parts (readField depth s') = .ok (d, s''))
    (hmore : parts (readMembers depth s'') = .ok (members, rest)) :
    parts (readObject depth (0x22 :: s)) = .ok (ofMembers ((key, d) :: members), rest) := by
  obtain ⟨_, hkey⟩ := parts_eq_ok hkey
  obtain ⟨_, hvalue⟩ := parts_eq_ok hvalue
  obtain ⟨_, hmore⟩ := parts_eq_ok hmore
  rw [readObject]
  split
  · next heq => cases heq
  · next heq =>
    cases heq
    simp only [show ¬(0x22 : UInt8) = 0x7D by decide, if_false, if_true, hkey, bind, Except.bind,
      if_neg hne, hvalue, hmore]
    rfl

end

/-! ## Reading what is printed -/

/-- A value is read up to whatever may follow it. -/
def ReadsBack (depth : Nat) (d : Document) : Prop :=
  ∀ rest, EndsNumber rest → parts (readValue depth (encodeChars d.chars ++ rest)) = .ok (d, rest)

theorem endsNumber_cons {b : UInt8} (hb : b = 0x2C ∨ b = 0x5D ∨ b = 0x7D) (rest : Bytes) :
    EndsNumber (b :: rest) := by
  intro c hc
  cases hc
  rcases hb with rfl | rfl | rfl <;> decide

/-- What is printed begins with the value, and that is not the end of an array. -/
theorem head_chars (d : Document) :
    ∃ b s, encodeChars d.chars = b :: s ∧ isBlankByte b = false ∧ b ≠ 0x5D := by
  cases d with
  | null => exact ⟨_, _, rfl, rfl, by decide⟩
  | bool value => cases value <;> exact ⟨_, _, rfl, rfl, by decide⟩
  | text value => exact ⟨_, _, encodeChars_quoted value, rfl, by decide⟩
  | array items => cases items <;> exact ⟨_, _, rfl, rfl, by decide⟩
  | object members => cases members <;> exact ⟨_, _, rfl, rfl, by decide⟩
  | number value =>
    obtain ⟨b, s, hs, hb⟩ := head_spelling ⟨false, true⟩ value
    refine ⟨b, s, ?_, isBlankByte_of_begins hb, ne_of_begins hb (by decide)⟩
    rw [chars, Numeral.chars_eq_spelling, hs]

section

variable {depth : Nat}

theorem head_items (item : Document) (items : List Document) (rest : Bytes) :
    ∃ b s, encodeChars (item.chars ++ itemChars items) ++ rest = b :: s ∧ isBlankByte b = false ∧
      b ≠ 0x5D := by
  obtain ⟨b, s, hs, hblank, hb⟩ := head_chars item
  refine ⟨b, s ++ (encodeChars (itemChars items) ++ rest), ?_, hblank, hb⟩
  rw [encodeChars_append, hs, List.append_assoc, List.cons_append]

theorem readItems_chars {item : Document} {items : List Document}
    (h : ∀ d ∈ item :: items, ReadsBack depth d) (rest : Bytes) :
    parts (readItems depth (encodeChars (item.chars ++ itemChars items) ++ 0x5D :: rest)) =
      .ok (item :: items, rest) := by
  have hitem := h item List.mem_cons_self
  induction items generalizing item with
  | nil =>
    rw [itemChars, List.append_nil]
    exact readItems_last (hitem _ (endsNumber_cons (by decide) rest))
  | cons next items ih =>
    have hnext := fun d hd => h d (List.mem_cons_of_mem item hd)
    have hmore := ih hnext (hnext next List.mem_cons_self)
    -- behind the comma comes the next item, not the end of the array
    obtain ⟨b, s, hbytes, hblank, hb⟩ := head_items next items (0x5D :: rest)
    have hcomma : encodeChars (item.chars ++ itemChars (next :: items)) ++ 0x5D :: rest =
        encodeChars item.chars ++
          0x2C :: (encodeChars (next.chars ++ itemChars items) ++ 0x5D :: rest) := by
      rw [itemChars, List.cons_append, encodeChars_append, encodeChars_cons_of_lt (by decide),
        List.append_assoc]
      rfl
    rw [hcomma]
    rw [hbytes] at hmore ⊢
    exact readItems_cons (hitem _ (endsNumber_cons (by decide) _)) hblank hb hmore

/-- The bytes of a member: the key, a colon and the value. -/
theorem encodeChars_member (key : String) (value : Document) (cs : List Char) (rest : Bytes) :
    encodeChars (quoted key ++ ':' :: value.chars ++ cs) ++ rest =
      0x22 :: (encodeChars (key.toList.flatMap escapeChar) ++
        0x22 :: 0x3A :: (encodeChars value.chars ++ (encodeChars cs ++ rest))) := by
  rw [encodeChars_append, encodeChars_append, encodeChars_quoted,
    encodeChars_cons_of_lt (by decide), List.cons_append, List.append_assoc, List.append_assoc,
    List.cons_append, List.append_assoc]
  rfl

theorem endsNumber_memberChars (members : Members) (rest : Bytes) :
    EndsNumber (encodeChars (memberChars members) ++ 0x7D :: rest) := by
  cases members <;> exact endsNumber_cons (by decide) _

theorem readMembers_chars {members : Members} (h : ∀ m ∈ members, ReadsBack depth m.2)
    (rest : Bytes) :
    parts (readMembers depth (encodeChars (memberChars members) ++ 0x7D :: rest)) =
      .ok (members, rest) := by
  induction members with
  | nil => exact readMembers_nil rest
  | cons m members ih =>
    obtain ⟨key, value⟩ := m
    have hmore := ih fun m hm => h m (List.mem_cons_of_mem _ hm)
    have hvalue := readField_colon (h _ List.mem_cons_self _ (endsNumber_memberChars members rest))
    rw [memberChars, List.cons_append, List.cons_append, encodeChars_cons_of_lt (by decide),
      List.cons_append, encodeChars_member]
    exact readMembers_cons (readText_quoted key _) hvalue hmore

theorem readsBack_array {items : List Document} (h : ∀ d ∈ items, ReadsBack (depth + 1) d) :
    ReadsBack (depth + 2) (.array items) := by
  intro rest _
  cases items with
  | nil => exact readValue_array (readArray_nil rest)
  | cons item items =>
    have hitems := readItems_chars h rest
    obtain ⟨b, s, hbytes, hblank, hb⟩ := head_items item items (0x5D :: rest)
    have hbrackets : encodeChars (chars (.array (item :: items))) ++ rest =
        0x5B :: (encodeChars (item.chars ++ itemChars items) ++ 0x5D :: rest) := by
      rw [chars, List.cons_append, List.cons_append, encodeChars_cons_of_lt (by decide),
        encodeChars_append, List.cons_append, List.append_assoc]
      rfl
    rw [hbrackets]
    rw [hbytes] at hitems ⊢
    exact readValue_array (readArray_cons hblank hb hitems)

theorem readsBack_object {members : Members} (sorted : members.Sorted)
    (first : ∀ m ∈ members.head?, m.1 ≠ numberKey)
    (h : ∀ m ∈ members, ReadsBack (depth + 1) m.2) : ReadsBack (depth + 2) (.object members) := by
  intro rest _
  cases members with
  | nil => exact readValue_object (readObject_nil rest)
  | cons m members =>
    obtain ⟨key, value⟩ := m
    have hmore := readMembers_chars (fun m hm => h m (List.mem_cons_of_mem _ hm)) rest
    have hvalue := readField_colon (h _ List.mem_cons_self _ (endsNumber_memberChars members rest))
    have hobject := readObject_cons (readText_quoted key _) (first _ rfl) hvalue hmore
    have hbraces : encodeChars (chars (.object ((key, value) :: members))) ++ rest =
        0x7B :: (encodeChars (quoted key ++ ':' :: value.chars ++ memberChars members) ++
          0x7D :: rest) := by
      rw [chars, List.cons_append, List.cons_append, List.cons_append,
        encodeChars_cons_of_lt (by decide), encodeChars_append, List.cons_append, List.append_assoc]
      rfl
    rw [ofMembers, Members.ofList_of_sorted sorted] at hobject
    rw [hbraces, encodeChars_member]
    exact readValue_object hobject

end

/-- A readable document is read back, whatever follows it. -/
theorem readsBack_of_readable {n : Nat} {d : Document} (h : Readable n d) : ReadsBack (n + 1) d := by
  induction h with
  | null => exact fun rest _ => readValue_null rest
  | bool n value =>
    cases value
    · exact fun rest _ => readValue_false rest
    · exact fun rest _ => readValue_true rest
  | number n value =>
    intro rest hrest
    have hread := readNumber_spelling ⟨false, true⟩ value hrest
    obtain ⟨b, s, hs, hb⟩ := head_spelling ⟨false, true⟩ value
    rw [chars, Numeral.chars_eq_spelling]
    rw [hs, List.cons_append] at hread ⊢
    exact readValue_number hb hread
  | text n value =>
    intro rest _
    rw [chars, encodeChars_quoted, List.cons_append, List.append_assoc, List.singleton_append]
    exact readValue_text (readText_quoted value rest)
  | array _ ih => exact readsBack_array ih
  | object sorted first _ ih => exact readsBack_object sorted first ih

/-! ## Whole texts -/

theorem ofBytes_print {d : Document} (h : Readable 127 d) : ofBytes (encode d.print) = .ok d := by
  have hread := readsBack_of_readable h [] endsNumber_nil
  rw [List.append_nil] at hread
  unfold print
  rw [encode_ofList]
  obtain ⟨_, hread⟩ := parts_eq_ok hread
  have hfront : readFront (encodeChars d.chars) = .ok (d, []) := by
    unfold readFront maxDepth
    rw [hread]
    rfl
  unfold ofBytes
  rw [hfront]
  rfl

theorem stringOfBytes_print (s : String) : stringOfBytes (encode (print (.text s))) = .ok s := by
  obtain ⟨_, htext⟩ := parts_eq_ok (readText_quoted s [])
  unfold print
  rw [encode_ofList, chars, encodeChars_quoted]
  unfold stringOfBytes
  rw [skipBlank_cons rfl]
  simp only [if_true, htext]
  rfl

end Document
end PolicyClient
