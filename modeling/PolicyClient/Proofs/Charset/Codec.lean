/-
What a charset encodes is decoded to itself (`undoes_of_other`); the charsets known by name alone
have to bring this with them. The bytes of UTF-8, on the other hand, are the text again in another
charset only where the text is ASCII: a single-byte charset reads as many characters as there are
bytes, and the pairs of bytes of UTF-16 never make the ASCII character in front.
-/
import PolicyClient.Charset.Codec
import PolicyClient.Proofs.Text.Utf8

namespace PolicyClient.Charset

/-- Whatever the charset encodes it decodes to the same text. -/
def Undoes (codecs : Codecs) (charset : Charset) : Prop :=
  ∀ text bytes, charset.encode? codecs text = some bytes →
    charset.decode? codecs bytes = some text

/-! ## Single bytes -/

theorem upperHalf_length (charset : Charset) : charset.upperHalf.length ≤ 128 := by
  cases charset <;> simp [upperHalf, windows1252Table, iso8859x15Table, windows1251Table, koi8rTable]

variable {upper : List Nat}

theorem decodeByte_of_lt {b : UInt8} (h : b.toNat < 0x80) :
    decodeByte upper b = some (Char.ofNat b.toNat) := by
  unfold decodeByte
  rw [if_pos (UInt8.lt_iff_toNat_lt.2 h)]

theorem decodeByte_of_le {b : UInt8} (h : 0x80 ≤ b.toNat) :
    decodeByte upper b = (upper[b.toNat - 0x80]?).map Char.ofNat := by
  unfold decodeByte
  rw [if_neg (by rw [UInt8.lt_iff_toNat_lt]; simpa using h)]

theorem decodeByte_of_encodeChar? (hupper : upper.length ≤ 128) {c : Char} {b : UInt8}
    (h : encodeChar? upper c = some b) : decodeByte upper b = some c := by
  unfold encodeChar? at h
  split_ifs at h with hc
  · cases h
    have hb : (UInt8.ofNat c.toNat).toNat = c.toNat := by simp only [UInt8.toNat_ofNat']; omega
    rw [decodeByte_of_lt (by omega), hb, Char.ofNat_toNat]
  · obtain ⟨i, hi, hb⟩ := Option.map_eq_some_iff.1 h
    obtain ⟨hlt, hat, -⟩ := List.findIdx?_eq_some_iff_getElem.1 hi
    have hnat : b.toNat = 0x80 + i := by
      rw [← hb, UInt8.toNat_ofNat']
      omega
    have hchar : upper[i] = c.toNat := by simpa using hat
    rw [decodeByte_of_le (by omega), hnat, Nat.add_sub_cancel_left, List.getElem?_eq_getElem hlt,
      hchar, Option.map_some, Char.ofNat_toNat]

theorem map_decodeByte_of_mapM (hupper : upper.length ≤ 128) {cs : List Char} {bytes : Bytes}
    (h : cs.mapM (encodeChar? upper) = some bytes) : bytes.map (decodeByte upper) = cs.map some := by
  induction cs generalizing bytes with
  | nil => cases h; rfl
  | cons c cs ih =>
    rw [List.mapM_cons] at h
    obtain ⟨b, hb, h⟩ := Option.bind_eq_some_iff.1 h
    obtain ⟨rest, hrest, h⟩ := Option.bind_eq_some_iff.1 h
    cases h
    rw [List.map_cons, List.map_cons, decodeByte_of_encodeChar? hupper hb, ih hrest]

/-! ## What is encoded is decoded -/

variable {codecs : Codecs}

theorem decode?_eq_some_iff {charset : Charset} {bytes : Bytes} {text : String} :
    charset.decode? codecs bytes = some text ↔
      charset.decode codecs bytes = text.toList.map some := by
  unfold decode?
  rw [Option.map_eq_some_iff]
  constructor
  · rintro ⟨cs, hcs, rfl⟩
    rw [String.toList_ofList]
    exact Utf8.mapM_id_eq_some_iff.1 hcs
  · intro h
    exact ⟨text.toList, Utf8.mapM_id_eq_some_iff.2 h, String.ofList_toList⟩

/-- A charset with a table of its own undoes what it encodes. -/
theorem undoes_of_table {charset : Charset}
    (hencode : ∀ text, charset.encode? codecs text =
      text.toList.mapM (encodeChar? charset.upperHalf))
    (hdecode : ∀ bytes, charset.decode codecs bytes = bytes.map (decodeByte charset.upperHalf)) :
    charset.Undoes codecs := by
  intro text bytes h
  rw [hencode] at h
  rw [decode?_eq_some_iff, hdecode]
  exact map_decodeByte_of_mapM (upperHalf_length charset) h

theorem undoes_utf8 : Charset.utf8.Undoes codecs := by
  intro text bytes h
  cases h
  exact Utf8.text?_encode text

/-- Every charset undoes what it encodes, those known by name alone as far as their codecs do. -/
theorem undoes_of_other {charset : Charset}
    (h : ∀ name, charset = .other name → charset.Undoes codecs) : charset.Undoes codecs := by
  cases charset with
  | other name => exact h name rfl
  | utf8 => exact undoes_utf8
  | utf16le => exact nofun
  | utf16be => exact nofun
  | replacement => exact nofun
  | _ => exact undoes_of_table (fun _ => rfl) (fun _ => rfl)

/-! ## The bytes of UTF-8 in another charset -/

/-- The charset reads the visible characters of ASCII and the space from their bytes. -/
def ReadsAscii (codecs : Codecs) (charset : Charset) : Prop :=
  ∀ text, (∀ c ∈ text.toList, 0x20 ≤ c.toNat ∧ c.toNat < 0x80) →
    charset.decode? codecs (Utf8.encode text) = some text

/-- A charset with a table reads as many characters as there are bytes, so it reads a text from the
bytes of UTF-8 just if each character has one byte. -/
theorem map_decodeByte_encodeChars_iff (cs : List Char) :
    (Utf8.encodeChars cs).map (decodeByte upper) = cs.map some ↔ ∀ c ∈ cs, c.toNat < 0x80 := by
  constructor
  · intro h
    have hlength := congrArg List.length h
    rw [List.length_map, List.length_map] at hlength
    exact Utf8.ascii_of_length hlength
  · intro h
    rw [Utf8.encodeChars_of_ascii h, List.map_map]
    refine List.map_congr_left fun c hc => ?_
    have hlt := h c hc
    have hb : (UInt8.ofNat c.toNat).toNat = c.toNat := by simp only [UInt8.toNat_ofNat']; omega
    rw [Function.comp_apply, decodeByte_of_lt (by omega), hb, Char.ofNat_toNat]

/-- A unit of UTF-16 whose bytes are those of an ASCII character and of another one that is not zero
is no ASCII character, nor does one begin there. -/
theorem head_decodeUnits_ne {bigEndian : Bool} {a b : UInt8} {rest : Bytes} {c : Char}
    {cs : List Char} (ha : 0 < a.toNat) (hb : 0 < b.toNat) (hc : c.toNat < 0x80) :
    decodeUnits bigEndian none (a :: b :: rest) ≠ some c :: cs.map some := by
  have hunit : 0x100 ≤ unit bigEndian a b ∧ unit bigEndian a b < 0x10000 := by
    have := a.toNat_lt
    have := b.toNat_lt
    unfold unit
    split_ifs <;> omega
  -- a character behind the start of the unit is one of at least 0x100
  have hlarge : ∀ n, 0x100 ≤ n → n.isValidChar → some (Char.ofNat n) ≠ some c := by
    intro n hn hvalid hsome
    have hnat : (Char.ofNat n).toNat = n := by
      unfold Char.ofNat
      rw [dif_pos hvalid]
      rfl
    rw [Option.some.inj hsome] at hnat
    omega
  rw [decodeUnits]
  show (startUnit _).2 ++ decodeUnits bigEndian (startUnit _).1 rest ≠ _
  unfold startUnit
  split_ifs with hlead htrail
  · intro h
    rcases rest with _ | ⟨d, _ | ⟨e, rest⟩⟩
    · cases h
    · cases h
    · simp only [decodeUnits, nextUnit] at h
      split_ifs at h with hpair
      · exact hlarge _ (by omega) (by unfold Nat.isValidChar; omega) (List.cons.inj h).1
      · cases h
  · exact nofun
  · intro h
    exact hlarge _ hunit.1 (by unfold Nat.isValidChar; omega) (List.cons.inj h).1

/-- Where the bytes of UTF-8 are the text again: in UTF-8, and for a text of ASCII in a charset with
a table. The text begins with a character of ASCII and has no zero. -/
theorem decode?_encode_iff {charset : Charset} (hcharset : ∀ name, charset ≠ .other name)
    {c : Char} {cs : List Char} (hc : c.toNat < 0x80) (hzero : ∀ a ∈ c :: cs, 0 < a.toNat) :
    charset.decode? codecs (Utf8.encode (String.ofList (c :: cs))) = some (String.ofList (c :: cs)) ↔
      charset = .utf8 ∨ charset.upperHalf ≠ [] ∧ ∀ a ∈ c :: cs, a.toNat < 0x80 := by
  have hunits : ∀ bigEndian, decodeUnits bigEndian none (Utf8.encodeChars (c :: cs)) ≠
      (c :: cs).map some := by
    intro bigEndian
    have hfirst : Utf8.encodeChars (c :: cs) = UInt8.ofNat c.toNat :: Utf8.encodeChars cs :=
      Utf8.encodeChars_cons_of_lt hc cs
    have ha : 0 < (UInt8.ofNat c.toNat).toNat := by
      have := hzero c List.mem_cons_self
      simp only [UInt8.toNat_ofNat']
      omega
    rw [hfirst]
    rcases hs : Utf8.encodeChars cs with _ | ⟨b, rest⟩
    · exact nofun
    · have hb : b ∈ Utf8.encodeChars cs := by rw [hs]; exact List.mem_cons_self
      exact head_decodeUnits_ne ha (Utf8.pos_of_mem_encodeChars
        (fun a h => hzero a (List.mem_cons_of_mem c h)) hb) hc
  have htable := @map_decodeByte_encodeChars_iff charset.upperHalf (c :: cs)
  rw [decode?_eq_some_iff, Utf8.encode_ofList, String.toList_ofList]
  cases charset with
  | other name => exact absurd rfl (hcharset name)
  | utf8 => exact iff_of_true (Utf8.decode_encodeChars _) (.inl rfl)
  | utf16le => exact iff_of_false (hunits false) (by simp [upperHalf])
  | utf16be => exact iff_of_false (hunits true) (by simp [upperHalf])
  | replacement =>
    refine iff_of_false ?_ (by simp [upperHalf])
    rw [Utf8.encodeChars_cons_of_lt hc]
    exact nofun
  | _ =>
    refine htable.trans ?_
    simp [upperHalf, windows1252Table, iso8859x15Table, windows1251Table, koi8rTable]

/-- The charsets with a table read ASCII. -/
theorem readsAscii_of_upperHalf {charset : Charset} (h : charset.upperHalf ≠ []) :
    charset.ReadsAscii codecs := by
  intro text htext
  have htable := (@map_decodeByte_encodeChars_iff charset.upperHalf text.toList).2
    fun c hc => (htext c hc).2
  rw [decode?_eq_some_iff]
  cases charset <;> first | exact absurd rfl h | exact htable

end PolicyClient.Charset
