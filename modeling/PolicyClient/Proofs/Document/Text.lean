/-
A string that is written between quotes is read back (`readText_quoted`), whatever follows it. The
escapes are undone one character at a time; a character that needs none has no byte that could be
taken for a quote, a backslash or a control character.
-/
import PolicyClient.Document.Printer
import PolicyClient.Proofs.Document.Number

namespace PolicyClient.Document

open Utf8

/-! ## Bytes behind the quote -/

variable {s s' rest value more : Bytes}

theorem readRaw_quote (rest : Bytes) : parts (readRaw (0x22 :: rest)) = .ok ([], rest) := by
  rw [readRaw]
  rfl

theorem readRaw_plain {b : UInt8} (hlow : 0x20 ≤ b.toNat) (hquote : b ≠ 0x22) (hslash : b ≠ 0x5C)
    (hmore : parts (readRaw s) = .ok (more, rest)) :
    parts (readRaw (b :: s)) = .ok (b :: more, rest) := by
  obtain ⟨_, hmore⟩ := parts_eq_ok hmore
  have hle : ¬ b < 0x20 := by rw [UInt8.lt_iff_toNat_lt]; simpa using hlow
  rw [readRaw, if_neg hquote, if_neg hslash, if_neg hle, hmore]
  rfl

theorem readRaw_plains {bs : Bytes}
    (hbs : ∀ b ∈ bs, 0x20 ≤ b.toNat ∧ b ≠ 0x22 ∧ b ≠ 0x5C)
    (hmore : parts (readRaw s) = .ok (more, rest)) :
    parts (readRaw (bs ++ s)) = .ok (bs ++ more, rest) := by
  induction bs with
  | nil => exact hmore
  | cons b bs ih =>
    obtain ⟨hlow, hquote, hslash⟩ := hbs b List.mem_cons_self
    exact readRaw_plain hlow hquote hslash (ih fun a ha => hbs a (List.mem_cons_of_mem b ha))

theorem readRaw_escape (hescape : parts (readEscape s) = .ok (value, s'))
    (hmore : parts (readRaw s') = .ok (more, rest)) :
    parts (readRaw (0x5C :: s)) = .ok (value ++ more, rest) := by
  obtain ⟨_, hescape⟩ := parts_eq_ok hescape
  obtain ⟨_, hmore⟩ := parts_eq_ok hmore
  rw [readRaw, if_neg (by decide), if_pos rfl]
  simp only [hescape, bind, Except.bind, hmore]
  rfl

/-! ## Escapes -/

theorem hexValue?_hexDigit {n : Nat} (h : n < 16) :
    hexValue? (UInt8.ofNat (hexDigit n).toNat) = some n := by
  revert n; decide

theorem hexDigit_lt {n : Nat} (h : n < 16) : (hexDigit n).toNat < 0x80 := by
  revert n; decide

/-- A control character is escaped by its number. -/
theorem readEscape_number {n : Nat} (h : n < 0x20) (s : Bytes) :
    parts (readEscape (encodeChars ['u', '0', '0', hexDigit (n / 16), hexDigit (n % 16)] ++ s)) =
      .ok (String.utf8EncodeChar (Char.ofNat n), s) := by
  have hhigh := hexValue?_hexDigit (n := n / 16) (by omega)
  have hlow := hexValue?_hexDigit (n := n % 16) (by omega)
  have hbytes : encodeChars ['u', '0', '0', hexDigit (n / 16), hexDigit (n % 16)] =
      [0x75, 0x30, 0x30, UInt8.ofNat (hexDigit (n / 16)).toNat,
        UInt8.ofNat (hexDigit (n % 16)).toNat] := by
    have hdigits : ∀ c ∈ ['u', '0', '0', hexDigit (n / 16), hexDigit (n % 16)], c.toNat < 0x80 := by
      simp [hexDigit_lt (n := n / 16) (by omega), hexDigit_lt (n := n % 16) (by omega)]
    rw [encodeChars_of_ascii hdigits]
    rfl
  have hnumber : ((0 * 16 + 0) * 16 + n / 16) * 16 + n % 16 = n := by omega
  have hhex : parts (readHex (0x30 :: 0x30 :: UInt8.ofNat (hexDigit (n / 16)).toNat ::
      UInt8.ofNat (hexDigit (n % 16)).toNat :: s)) = .ok (n, s) := by
    simp only [readHex, show hexValue? 0x30 = some 0 from rfl, hhigh, hlow, hnumber]
    rfl
  obtain ⟨_, hhex⟩ := parts_eq_ok hhex
  have hunicode : parts (readUnicode (0x30 :: 0x30 :: UInt8.ofNat (hexDigit (n / 16)).toNat ::
      UInt8.ofNat (hexDigit (n % 16)).toNat :: s)) =
      .ok (String.utf8EncodeChar (Char.ofNat n), s) := by
    simp only [readUnicode, hhex, bind, Except.bind]
    rw [if_neg (by omega), if_pos (by omega)]
    rfl
  rw [hbytes]
  exact (parts_map _ _).trans hunicode

/-- The bytes of a character that is written as it is. -/
theorem plain_of_mem_utf8EncodeChar {c : Char} (hlow : 0x20 ≤ c.toNat) (hquote : c ≠ '"')
    (hslash : c ≠ '\\') :
    ∀ b ∈ String.utf8EncodeChar c, 0x20 ≤ b.toNat ∧ b ≠ 0x22 ∧ b ≠ 0x5C := by
  have hbytes : ∀ b ∈ String.utf8EncodeChar c, b.toNat = c.toNat ∨ 0x80 ≤ b.toNat :=
    fun b => eq_or_le_of_mem_utf8EncodeChar
  have hnat : ∀ d : Char, c ≠ d → c.toNat ≠ d.toNat := by
    intro d hne heq
    exact hne (Char.toNat_inj.1 heq)
  have hquote : c.toNat ≠ 0x22 := hnat _ hquote
  have hslash : c.toNat ≠ 0x5C := hnat _ hslash
  -- a byte of ASCII is the character itself, so it is neither quote nor backslash
  intro b hb
  have hor := hbytes b hb
  simp only [ne_eq, ← UInt8.toNat_inj, UInt8.reduceToNat]
  omega

/-- What is written for a character inside a string is read as its bytes. -/
theorem readRaw_escapeChar (c : Char) (hmore : parts (readRaw s) = .ok (more, rest)) :
    parts (readRaw (encodeChars (escapeChar c) ++ s)) =
      .ok (String.utf8EncodeChar c ++ more, rest) := by
  -- the bytes stand in the type of the reader, so they are split before they are put in
  generalize hcs : escapeChar c = cs
  unfold escapeChar at hcs
  split_ifs at hcs with h₁ h₂ h₃ h₄ h₅ h₆ h₇ hcontrol <;> subst hcs
  · subst h₁; exact readRaw_escape (s := 0x22 :: s) rfl hmore
  · subst h₂; exact readRaw_escape (s := 0x5C :: s) rfl hmore
  · subst h₃; exact readRaw_escape (s := 0x62 :: s) rfl hmore
  · subst h₄; exact readRaw_escape (s := 0x66 :: s) rfl hmore
  · subst h₅; exact readRaw_escape (s := 0x6E :: s) rfl hmore
  · subst h₆; exact readRaw_escape (s := 0x72 :: s) rfl hmore
  · subst h₇; exact readRaw_escape (s := 0x74 :: s) rfl hmore
  · have hescape := readEscape_number hcontrol s
    rw [Char.ofNat_toNat] at hescape
    exact readRaw_escape hescape hmore
  · have hplain := plain_of_mem_utf8EncodeChar (Nat.not_lt.1 hcontrol) h₁ h₂
    rw [encodeChars_cons, show encodeChars [] = [] from rfl, List.append_nil]
    exact readRaw_plains hplain hmore

/-! ## Strings -/

theorem readRaw_quoted (cs : List Char) (rest : Bytes) :
    parts (readRaw (encodeChars (cs.flatMap escapeChar) ++ 0x22 :: rest)) =
      .ok (encodeChars cs, rest) := by
  induction cs with
  | nil => exact readRaw_quote rest
  | cons c cs ih =>
    rw [List.flatMap_cons, encodeChars_append, encodeChars_cons, List.append_assoc]
    exact readRaw_escapeChar c ih

/-- The bytes of a string between quotes. -/
theorem encodeChars_quoted (s : String) : encodeChars (quoted s) =
    0x22 :: (encodeChars (s.toList.flatMap escapeChar) ++ [0x22]) := by
  unfold quoted
  rw [List.cons_append, encodeChars_cons_of_lt (by decide), encodeChars_append]
  rfl

theorem readText_quoted (s : String) (rest : Bytes) :
    parts (readText (encodeChars (s.toList.flatMap escapeChar) ++ 0x22 :: rest)) =
      .ok (s, rest) := by
  obtain ⟨_, hraw⟩ := parts_eq_ok (readRaw_quoted s.toList rest)
  have htext : text? (encodeChars s.toList) = some s := by
    rw [text?_encodeChars, String.ofList_toList]
  simp only [readText, hraw, bind, Except.bind, htext]
  rfl

end PolicyClient.Document
