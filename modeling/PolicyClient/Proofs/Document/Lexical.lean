/-
What is read is well-formed. A reader takes bytes of ASCII outside of strings, and a string literal only
if the text that it spells is UTF-8; since escapes are ASCII and stand for whole characters, the
literal is UTF-8 itself (`Quoted.wellFormed`). So bytes that are read as a document or a string are
UTF-8, and what is beyond ASCII in them stands in string literals (`lexical_of_ofBytes`). The readers are
followed in the order in which they call one another.
-/
import Mathlib
import PolicyClient.Document.Reader
import PolicyClient.Proofs.Document.Keyed
import PolicyClient.Proofs.Text.WellFormed

namespace PolicyClient.Document

open Utf8 (WellFormed)

/-! ## String literals -/

/-- The bytes of an escape behind its backslash. -/
inductive Escape : Bytes → Prop
  | short {b : UInt8} (hb : b ∈ [0x22, 0x5C, 0x2F, 0x62, 0x66, 0x6E, 0x72, 0x74]) : Escape [b]
  | unit {a b c d : UInt8} (digits : ∀ x ∈ [a, b, c, d], (hexValue? x).isSome) :
    Escape [0x75, a, b, c, d]
  | pair {a b c d e f g h : UInt8} (digits : ∀ x ∈ [a, b, c, d, e, f, g, h], (hexValue? x).isSome) :
    Escape [0x75, a, b, c, d, 0x5C, 0x75, e, f, g, h]

/-- The bytes between the quotes of a string, and the bytes that they stand for: bytes for themselves,
and escapes for characters. -/
inductive Quoted : Bytes → Bytes → Prop
  | nil : Quoted [] []
  | plain {b : UInt8} {s v : Bytes} : ¬ b < 0x20 → b ≠ 0x22 → b ≠ 0x5C → Quoted s v →
    Quoted (b :: s) (b :: v)
  | escape {front s v : Bytes} {c : Char} : Escape front → Quoted s v →
    Quoted (0x5C :: front ++ s) (String.utf8EncodeChar c ++ v)

theorem toNat_lt_of_hexValue {x : UInt8} (h : (hexValue? x).isSome) : x.toNat < 0x80 := by
  unfold hexValue? at h
  dsimp only at h
  split_ifs at h <;> first | omega | cases h

theorem Escape.ascii {front : Bytes} (h : Escape front) : ∀ b ∈ front, b.toNat < 0x80 := by
  cases h with
  | short hb =>
    have hshort : ∀ b ∈ ([0x22, 0x5C, 0x2F, 0x62, 0x66, 0x6E, 0x72, 0x74] : Bytes), b.toNat < 0x80 := by
      simp
    exact List.forall_mem_singleton.2 (hshort _ hb)
  | unit digits =>
    exact List.forall_mem_cons.2 ⟨by decide, fun x hx => toNat_lt_of_hexValue (digits x hx)⟩
  | pair digits =>
    simp only [List.forall_mem_cons] at digits ⊢
    simp [toNat_lt_of_hexValue, digits]

/-- A string is UTF-8 as it is written if what it stands for is. -/
theorem Quoted.run {s v : Bytes} (h : Quoted s v) {state : Utf8.State} (hsound : state.Sound)
    (hv : none ∉ Utf8.run state v) : none ∉ Utf8.run state s := by
  induction h generalizing state with
  | nil => exact hv
  | plain _ _ _ _ ih =>
    rw [Utf8.run_cons, List.mem_append, not_or] at hv ⊢
    exact ⟨hv.1, ih (Utf8.sound_step hsound _) hv.2⟩
  | @escape front s v c hfront _ ih =>
    -- an escape stands for a whole character, so nothing was pending in front of it
    obtain rfl := Utf8.idle_of_run hsound hv
    rw [Utf8.run_utf8EncodeChar, List.mem_cons, not_or] at hv
    have hescape : WellFormed (0x5C :: front) :=
      Utf8.wellFormed_cons (by decide) (Utf8.wellFormed_of_ascii hfront.ascii)
    exact hescape.append (ih trivial hv.2)

theorem Quoted.wellFormed {s v : Bytes} (h : Quoted s v) (hv : WellFormed v) : WellFormed s :=
  h.run trivial hv

/-! ## Bytes outside of strings -/

/-- A byte of ASCII that opens no string. -/
def IsToken (b : UInt8) : Prop :=
  b.toNat < 0x80 ∧ b ≠ 0x22

instance (b : UInt8) : Decidable (IsToken b) :=
  inferInstanceAs (Decidable (_ ∧ _))

/-- Bytes of ASCII, and string literals that spell texts. -/
inductive Lexical : Bytes → Prop
  | nil : Lexical []
  | token {b : UInt8} {s : Bytes} : IsToken b → Lexical s → Lexical (b :: s)
  | literal {raw v s : Bytes} : Quoted raw v → WellFormed v → Lexical s →
    Lexical (0x22 :: (raw ++ 0x22 :: s))

theorem Lexical.append {a b : Bytes} (ha : Lexical a) (hb : Lexical b) : Lexical (a ++ b) := by
  induction ha with
  | nil => exact hb
  | token hbyte _ ih => exact .token hbyte ih
  | literal hquoted hv _ ih =>
    rw [List.cons_append, List.append_assoc, List.cons_append]
    exact .literal hquoted hv ih

theorem Lexical.wellFormed {s : Bytes} (h : Lexical s) : WellFormed s := by
  induction h with
  | nil => exact Utf8.wellFormed_nil
  | token hbyte _ ih => exact Utf8.wellFormed_cons hbyte.1 ih
  | literal hquoted hv _ ih =>
    exact Utf8.wellFormed_cons (by decide)
      ((hquoted.wellFormed hv).append (Utf8.wellFormed_cons (by decide) ih))

/-- What is taken from the front of the bytes is lexical. -/
def Lexed (s rest : Bytes) : Prop :=
  ∃ front, s = front ++ rest ∧ Lexical front

namespace Lexed

variable {s s' rest : Bytes} {b : UInt8}

theorem refl (s : Bytes) : Lexed s s := ⟨[], rfl, .nil⟩

theorem trans (h : Lexed s s') (h' : Lexed s' rest) : Lexed s rest := by
  obtain ⟨front, rfl, hfront⟩ := h
  obtain ⟨front', rfl, hfront'⟩ := h'
  exact ⟨front ++ front', (List.append_assoc _ _ _).symm, hfront.append hfront'⟩

theorem cons (hb : IsToken b) (h : Lexed s rest) : Lexed (b :: s) rest := by
  obtain ⟨front, rfl, hfront⟩ := h
  exact ⟨b :: front, rfl, .token hb hfront⟩

end Lexed

/-! ## Tokens -/

section

variable {s rest : Bytes} {b : UInt8}

theorem lexed_skipBlank (s : Bytes) : Lexed s (skipBlank s) := by
  induction s with
  | nil => exact .refl []
  | cons b s ih =>
    by_cases hb : isBlankByte b = true
    · have hskip : skipBlank (b :: s) = skipBlank s := List.dropWhile_cons_of_pos hb
      rw [hskip]
      simp only [isBlankByte, Bool.or_eq_true, beq_iff_eq] at hb
      exact ih.cons (by rcases hb with ((rfl | rfl) | rfl) | rfl <;> decide)
    · have hskip : skipBlank (b :: s) = b :: s := List.dropWhile_cons_of_neg hb
      rw [hskip]; exact .refl _

theorem lexed_of_skipBlank (h : skipBlank s = b :: rest) : Lexed s (b :: rest) :=
  h ▸ lexed_skipBlank s

/-- White space, and the byte behind it. -/
theorem Lexed.skip (h : skipBlank s = b :: rest) (hb : IsToken b) : Lexed s rest :=
  (lexed_of_skipBlank h).trans ((Lexed.refl rest).cons hb)

theorem lexed_readWord {word : List Char} {t : Taken Unit (s.length + 1)}
    (hword : ∀ c ∈ word, c.toNat < 0x80 ∧ c.toNat ≠ 0x22) (h : readWord word s = .ok t) :
    Lexed s t.rest := by
  induction word generalizing s with
  | nil => cases h; exact .refl s
  | cons c word ih =>
    cases s with
    | nil => cases h
    | cons b s =>
      obtain ⟨hc, hrest⟩ := List.forall_mem_cons.1 hword
      rw [readWord] at h
      split_ifs at h with hb
      · obtain ⟨t', ht', rfl⟩ := Fallible.map_eq_ok.1 h
        exact (ih hrest ht').cons ⟨hb ▸ hc.1, fun hquote => hc.2 (by rw [← hb, hquote]; rfl)⟩
      · cases h

/-! ### Numbers -/

theorem toNat_of_digit {b : UInt8} (h : (Numeral.digitOfByte? b).isSome) : 48 ≤ b.toNat ∧ b.toNat < 58 := by
  unfold Numeral.digitOfByte? at h
  split_ifs at h with hdigit
  · exact hdigit
  · cases h

theorem Lexed.digit (hb : (Numeral.digitOfByte? b).isSome) (h : Lexed s rest) : Lexed (b :: s) rest := by
  have := toNat_of_digit hb
  exact h.cons ⟨by omega, by rintro rfl; revert this; decide⟩

theorem lexed_takeDigits (s : Bytes) : Lexed s (Numeral.takeDigits s).2 := by
  induction s with
  | nil => exact .refl []
  | cons b s ih =>
    rw [Numeral.takeDigits]
    split
    · next d hd => exact ih.digit (by rw [hd]; rfl)
    · exact .refl _

theorem lexed_exponentSign (s : Bytes) : Lexed s (exponentSign s).2 := by
  unfold exponentSign
  split
  · exact (Lexed.refl _).cons (by decide)
  · exact (Lexed.refl _).cons (by decide)
  · exact .refl _

variable {negative : Bool} {whole : List Digit} {fraction : Option (List Digit)} {hwhole : whole ≠ []}
  {hshort : whole.head? = some .zero → whole.length = 1} {hfraction : fraction ≠ some []}

theorem lexed_readExponent {t : Taken Numeral (s.length + 1)}
    (h : readExponent negative whole fraction hwhole hshort hfraction s = .ok t) : Lexed s t.rest := by
  unfold readExponent at h
  split at h
  · cases h; exact .refl _
  · next b rest =>
    split_ifs at h with hb
    · have hdigits := (lexed_exponentSign rest).trans (lexed_takeDigits (exponentSign rest).2)
      split at h
      · cases h
      · cases h
      · next d ds rest' heq =>
        cases h
        rw [heq] at hdigits
        exact hdigits.cons (by rcases hb with rfl | rfl <;> decide)
    · cases h; exact .refl _

theorem lexed_readFraction {t : Taken Numeral (s.length + 1)}
    (h : readFraction negative whole hwhole hshort s = .ok t) : Lexed s t.rest := by
  unfold readFraction at h
  split at h
  · next rest =>
    have hdigits := lexed_takeDigits rest
    split at h
    · cases h
    · cases h
    · next d ds rest' heq =>
      obtain ⟨t', ht', rfl⟩ := Fallible.map_eq_ok.1 h
      rw [heq] at hdigits
      exact (hdigits.trans (lexed_readExponent ht')).cons (by decide)
  · exact lexed_readExponent h

theorem lexed_readUnsigned {t : Taken Numeral s.length} (h : readUnsigned negative s = .ok t) :
    Lexed s t.rest := by
  unfold readUnsigned at h
  split at h
  · cases h
  · next b rest =>
    split at h
    · cases h
    · next d hd =>
      have hb : (Numeral.digitOfByte? b).isSome := by rw [hd]; rfl
      split_ifs at h with hzero
      · split at h
        · exact (lexed_readFraction h).digit hb
        · split_ifs at h with hdigit
          · cases h
          · exact (lexed_readFraction h).digit hb
      · obtain ⟨t', ht', rfl⟩ := Fallible.map_eq_ok.1 h
        exact ((lexed_takeDigits rest).trans (lexed_readFraction ht')).digit hb

theorem lexed_readNumber {t : Taken Numeral s.length} (h : readNumber s = .ok t) : Lexed s t.rest := by
  unfold readNumber at h
  split at h
  · obtain ⟨t', ht', rfl⟩ := Fallible.map_eq_ok.1 h
    exact (lexed_readUnsigned ht').cons (by decide)
  · exact lexed_readUnsigned h

/-! ### Strings -/

theorem hex_of_readHex {t : Taken Nat s.length} (h : readHex s = .ok t) : ∃ a b c d,
    s = a :: b :: c :: d :: t.rest ∧ ∀ x ∈ [a, b, c, d], (hexValue? x).isSome := by
  unfold readHex at h
  split at h
  · next a b c d rest =>
    split at h
    · next ha hb hc hd =>
      cases h
      exact ⟨a, b, c, d, rfl, by simp [ha, hb, hc, hd]⟩
    · cases h
  · cases h

theorem escape_of_readUnicode {t : Taken Bytes s.length} (h : readUnicode s = .ok t) :
    ∃ front c, s = front ++ t.rest ∧ Escape (0x75 :: front) ∧ t.value = String.utf8EncodeChar c := by
  unfold readUnicode at h
  obtain ⟨first, hfirst, h⟩ := Fallible.bind_eq_ok.1 h
  obtain ⟨a, b, c, d, hs, hdigits⟩ := hex_of_readHex hfirst
  dsimp only at h
  split_ifs at h with hlow hplain
  · cases h
  · cases h
    exact ⟨[a, b, c, d], _, hs, .unit hdigits, rfl⟩
  · split at h
    · cases h
    · next x behind hrest =>
      split_ifs at h with hx
      · cases h
      · split at h
        · cases h
        · next y digits =>
          split_ifs at h with hy
          · cases h
          · obtain ⟨second, hsecond, h⟩ := Fallible.bind_eq_ok.1 h
            obtain ⟨e, f, g, k, hdigits', hmore⟩ := hex_of_readHex hsecond
            split_ifs at h with hpair
            · generalize Char.ofNat (0x10000 + (first.value - 0xD800) * 0x400 +
                (second.value - 0xDC00)) = scalar at h
              obtain rfl := Except.ok.inj (show Except.ok _ = Except.ok t from h)
              refine ⟨[a, b, c, d, 0x5C, 0x75, e, f, g, k], _, ?_, .pair ?_, rfl⟩
              · rw [hrest, Decidable.of_not_not hx, Decidable.of_not_not hy, hdigits'] at hs
                exact hs
              · exact List.forall_mem_append.2 ⟨hdigits, hmore⟩
            · cases h

theorem escape_of_readEscape {t : Taken Bytes s.length} (h : readEscape s = .ok t) :
    ∃ front c, s = front ++ t.rest ∧ Escape front ∧ t.value = String.utf8EncodeChar c := by
  unfold readEscape at h
  split at h
  · cases h
  · next b rest =>
    dsimp only at h
    split_ifs at h with hself hb hf hn hr ht hu
    · cases h
      rcases hself with rfl | rfl | rfl
      · exact ⟨[0x22], '"', rfl, .short (by simp), rfl⟩
      · exact ⟨[0x5C], '\\', rfl, .short (by simp), rfl⟩
      · exact ⟨[0x2F], '/', rfl, .short (by simp), rfl⟩
    · cases h; subst hb
      exact ⟨[0x62], '\x08', rfl, .short (by simp), rfl⟩
    · cases h; subst hf
      exact ⟨[0x66], '\x0c', rfl, .short (by simp), rfl⟩
    · cases h; subst hn
      exact ⟨[0x6E], '\n', rfl, .short (by simp), rfl⟩
    · cases h; subst hr
      exact ⟨[0x72], '\r', rfl, .short (by simp), rfl⟩
    · cases h; subst ht
      exact ⟨[0x74], '\t', rfl, .short (by simp), rfl⟩
    · obtain ⟨t', ht', rfl⟩ := Fallible.map_eq_ok.1 h
      obtain ⟨front, c, hrest, hfront, hvalue⟩ := escape_of_readUnicode ht'
      exact ⟨0x75 :: front, c, by rw [hu]; exact congrArg (0x75 :: ·) hrest, hfront, hvalue⟩
    · cases h

/-- A string is taken up to its closing quote. -/
theorem quoted_of_readRaw : ∀ (s : Bytes) (t : Taken Bytes s.length), readRaw s = .ok t →
    ∃ raw, s = raw ++ 0x22 :: t.rest ∧ Quoted raw t.value
  | [], t, h => by unfold readRaw at h; cases h
  | b :: rest, t, h => by
    unfold readRaw at h
    dsimp only at h
    split_ifs at h with hquote hback hcontrol
    · cases h
      exact ⟨[], by rw [hquote]; rfl, .nil⟩
    · obtain ⟨escape, hescape, h⟩ := Fallible.bind_eq_ok.1 h
      have hshort := escape.short
      obtain ⟨more, hmore, h⟩ := Fallible.bind_eq_ok.1 h
      obtain ⟨front, c, hrest, hfront, hvalue⟩ := escape_of_readEscape hescape
      obtain ⟨raw, hraw, hquoted⟩ := quoted_of_readRaw _ _ hmore
      cases h
      refine ⟨0x5C :: front ++ raw, ?_, hvalue ▸ .escape hfront hquoted⟩
      show b :: rest = 0x5C :: (front ++ raw) ++ 0x22 :: more.rest
      rw [hback, List.cons_append, List.append_assoc, ← hraw, ← hrest]
    · cases h
    · obtain ⟨more, hmore, h⟩ := Fallible.bind_eq_ok.1 h
      obtain ⟨raw, hraw, hquoted⟩ := quoted_of_readRaw _ _ hmore
      cases h
      exact ⟨b :: raw, congrArg (b :: ·) hraw, .plain hcontrol hquote hback hquoted⟩
termination_by s => s.length

theorem lexed_readText {t : Taken String s.length} (h : readText s = .ok t) : Lexed (0x22 :: s) t.rest := by
  unfold readText at h
  obtain ⟨raw, hraw, h⟩ := Fallible.bind_eq_ok.1 h
  obtain ⟨source, hs, hquoted⟩ := quoted_of_readRaw _ _ hraw
  split at h
  · next value hvalue =>
    cases h
    have hv : WellFormed raw.value := by
      by_contra hnot
      rw [Utf8.text?_eq_none_iff.2 hnot] at hvalue
      cases hvalue
    refine ⟨0x22 :: (source ++ [0x22]), ?_, .literal hquoted hv .nil⟩
    exact congrArg (0x22 :: ·) (hs.trans (List.append_cons _ _ _))
  · cases h

end

/-! ## Documents -/

open Fallible

theorem lexed_readColon {s : Bytes} {t : Taken Unit s.length} (h : readColon s = .ok t) :
    Lexed s t.rest := by
  unfold readColon at h
  split at h
  · cases h
  · next b rest hskip =>
    split_ifs at h with hb
    · cases h
      exact .skip hskip (by rw [hb]; decide)
    · cases h

theorem lexed_readSpelledNumber {s : Bytes} {t : Taken Numeral s.length}
    (h : readSpelledNumber s = .ok t) : Lexed s t.rest := by
  unfold readSpelledNumber at h
  obtain ⟨colon, hcolon, h⟩ := bind_eq_ok.1 h
  dsimp only at h
  split at h
  · cases h
  · next b rest hskip =>
    split_ifs at h with hb
    · obtain ⟨spelled, hspelled, h⟩ := bind_eq_ok.1 h
      subst hb
      have hfront := (lexed_readColon hcolon).trans
        ((lexed_of_skipBlank hskip).trans (lexed_readText hspelled))
      split at h
      · cases h
      · split at h
        · cases h
        · next c rest' hskip' =>
          split_ifs at h with hc
          · cases h
            exact hfront.trans (.skip hskip' (by rw [hc]; decide))
          · cases h
          · cases h

mutual

theorem lexed_readValue {depth : Nat} {s : Bytes} {t : Taken Document s.length}
    (h : readValue depth s = .ok t) : Lexed s t.rest := by
  rw [readValue] at h
  split at h
  · cases h
  · next b rest hskip =>
    have hs := length_of_skipBlank hskip
    have hfront := lexed_of_skipBlank hskip
    dsimp only at h
    split_ifs at h with hnull htrue hfalse hquote hnumber harray hdeep hobject hdeep
    · obtain ⟨word, hword, rfl⟩ := map_eq_ok.1 h
      exact hfront.trans ((lexed_readWord (by simp) hword).cons (by rw [hnull]; decide))
    · obtain ⟨word, hword, rfl⟩ := map_eq_ok.1 h
      exact hfront.trans ((lexed_readWord (by simp) hword).cons (by rw [htrue]; decide))
    · obtain ⟨word, hword, rfl⟩ := map_eq_ok.1 h
      exact hfront.trans ((lexed_readWord (by simp) hword).cons (by rw [hfalse]; decide))
    · obtain ⟨text, htext, rfl⟩ := map_eq_ok.1 h
      subst hquote
      exact hfront.trans (lexed_readText htext)
    · obtain ⟨number, hnumber, rfl⟩ := map_eq_ok.1 h
      exact hfront.trans (lexed_readNumber hnumber)
    · cases h
    · obtain ⟨items, hitems, rfl⟩ := map_eq_ok.1 h
      exact hfront.trans ((lexed_readArray hitems :).cons (by rw [harray]; decide))
    · cases h
    · obtain ⟨object, hmembers, rfl⟩ := map_eq_ok.1 h
      exact hfront.trans ((lexed_readObject hmembers :).cons (by rw [hobject]; decide))
    · cases h
termination_by 3 * s.length

theorem lexed_readArray {depth : Nat} {s : Bytes} {t : Taken (List Document) s.length}
    (h : readArray depth s = .ok t) : Lexed s t.rest := by
  rw [readArray] at h
  split at h
  · cases h
  · next b rest hskip =>
    have hs := length_of_skipBlank hskip
    split_ifs at h with hb
    · cases h
      exact .skip hskip (by rw [hb]; decide)
    · obtain ⟨items, hitems, rfl⟩ := map_eq_ok.1 h
      exact (lexed_of_skipBlank hskip).trans (lexed_readItems hitems :)
termination_by 3 * s.length + 2

theorem lexed_readItems {depth : Nat} {s : Bytes} {t : Taken (List Document) s.length}
    (h : readItems depth s = .ok t) : Lexed s t.rest := by
  rw [readItems] at h
  obtain ⟨item, hitem, h⟩ := bind_eq_ok.1 h
  have hfirst := lexed_readValue hitem
  have hshort := item.short
  dsimp only at h
  split at h
  · cases h
  · next b rest hskip =>
    have hrest := length_of_skipBlank hskip
    split_ifs at h with hend hcomma
    · cases h
      exact hfirst.trans (.skip hskip (by rw [hend]; decide))
    · split at h
      · cases h
      · next c rest' hskip' =>
        have hrest' := length_of_skipBlank hskip'
        split_ifs at h
        · cases h
        · obtain ⟨more, hmore, h⟩ := bind_eq_ok.1 h
          cases h
          exact hfirst.trans ((Lexed.skip hskip (by rw [hcomma]; decide)).trans
            ((lexed_of_skipBlank hskip').trans (lexed_readItems hmore)))
    · cases h
termination_by 3 * s.length + 1

theorem lexed_readObject {depth : Nat} {s : Bytes} {t : Taken Document s.length}
    (h : readObject depth s = .ok t) : Lexed s t.rest := by
  rw [readObject] at h
  split at h
  · cases h
  · next b rest hskip =>
    have hs := length_of_skipBlank hskip
    split_ifs at h with hend hquote
    · cases h
      exact .skip hskip (by rw [hend]; decide)
    · obtain ⟨key, hkey, h⟩ := bind_eq_ok.1 h
      have hshort := key.short
      subst hquote
      have hfront := (lexed_of_skipBlank hskip).trans (lexed_readText hkey)
      dsimp only at h
      split_ifs at h
      · obtain ⟨n, hn, h⟩ := bind_eq_ok.1 h
        cases h
        exact hfront.trans (lexed_readSpelledNumber hn)
      · obtain ⟨value, hvalue, h⟩ := bind_eq_ok.1 h
        have hshort' := value.short
        obtain ⟨more, hmore, h⟩ := bind_eq_ok.1 h
        cases h
        exact hfront.trans ((lexed_readField hvalue).trans (lexed_readMembers hmore))
    · cases h
termination_by 3 * s.length

theorem lexed_readField {depth : Nat} {s : Bytes} {t : Taken Document s.length}
    (h : readField depth s = .ok t) : Lexed s t.rest := by
  rw [readField] at h
  obtain ⟨colon, hcolon, h⟩ := bind_eq_ok.1 h
  have hshort := colon.short
  obtain ⟨value, hvalue, h⟩ := bind_eq_ok.1 h
  cases h
  exact (lexed_readColon hcolon).trans (lexed_readValue hvalue :)
termination_by 3 * s.length

theorem lexed_readMembers {depth : Nat} {s : Bytes}
    {t : Taken (List (String × Document)) s.length} (h : readMembers depth s = .ok t) :
    Lexed s t.rest := by
  rw [readMembers] at h
  split at h
  · cases h
  · next b rest hskip =>
    have hs := length_of_skipBlank hskip
    split_ifs at h with hend hcomma
    · cases h
      exact .skip hskip (by rw [hend]; decide)
    · split at h
      · cases h
      · next c rest' hskip' =>
        have hrest' := length_of_skipBlank hskip'
        split_ifs at h with hquote
        · obtain ⟨key, hkey, h⟩ := bind_eq_ok.1 h
          have hshort := key.short
          obtain ⟨value, hvalue, h⟩ := bind_eq_ok.1 h
          have hshort' := value.short
          obtain ⟨more, hmore, h⟩ := bind_eq_ok.1 h
          cases h
          subst hquote
          exact (Lexed.skip hskip (by rw [hcomma]; decide)).trans
            ((lexed_of_skipBlank hskip').trans ((lexed_readText hkey).trans
              ((lexed_readField hvalue).trans (lexed_readMembers hmore))))
        · cases h
        · cases h
    · cases h
termination_by 3 * s.length

end

/-! ## Whole texts -/

theorem lexical_of_readEnd {s : Bytes} (h : readEnd s = .ok ()) : Lexical s := by
  obtain ⟨front, hs, hfront⟩ := lexed_skipBlank s
  unfold readEnd at h
  split at h
  · next hskip => rw [hskip, List.append_nil] at hs; exact hs ▸ hfront
  · cases h

theorem Lexed.lexical {s rest : Bytes} (h : Lexed s rest) (hrest : Lexical rest) : Lexical s := by
  obtain ⟨front, rfl, hfront⟩ := h
  exact hfront.append hrest

/-- Bytes that hold a document are lexical. -/
theorem lexical_of_ofBytes {bytes : Bytes} {d : Document} (h : ofBytes bytes = .ok d) : Lexical bytes := by
  obtain ⟨⟨value, rest⟩, hfront, h⟩ := bind_eq_ok.1 h
  obtain ⟨_, hend, h⟩ := bind_eq_ok.1 h
  unfold readFront at hfront
  obtain ⟨t, ht, hparts⟩ := map_eq_ok.1 (mapError_eq_ok.1 hfront)
  cases hparts
  exact (lexed_readValue ht).lexical (lexical_of_readEnd (mapError_eq_ok.1 hend))

/-- Bytes that hold a string are lexical. -/
theorem lexical_of_stringOfBytes {bytes : Bytes} {s : String} (h : stringOfBytes bytes = .ok s) :
    Lexical bytes := by
  have h := mapError_eq_ok.1 h
  split at h
  · cases h
  · next b rest hskip =>
    split_ifs at h with hb
    · obtain ⟨text, htext, h⟩ := bind_eq_ok.1 h
      obtain ⟨_, hend, -⟩ := bind_eq_ok.1 h
      subst hb
      exact ((lexed_of_skipBlank hskip).trans (lexed_readText htext)).lexical (lexical_of_readEnd hend)

end PolicyClient.Document
