/-
What is encoded in UTF-8 is decoded to itself (`decode_encodeChars`). The machine is followed over
the bytes of one character, which are one to four; every byte behind the first lies within the
bounds that the bytes before it set, because surrogates and numbers above 0x10FFFF are no characters.
-/
import PolicyClient.Text.Utf8
import Mathlib.Data.List.Basic

namespace PolicyClient.Utf8

/-- The bytes of characters. -/
def encodeChars (cs : List Char) : Bytes :=
  cs.flatMap String.utf8EncodeChar

theorem encode_ofList (cs : List Char) : encode (String.ofList cs) = encodeChars cs := by
  unfold encode encodeChars; rw [String.toList_ofList]

theorem encodeChars_cons (c : Char) (cs : List Char) :
    encodeChars (c :: cs) = String.utf8EncodeChar c ++ encodeChars cs := List.flatMap_cons

theorem encodeChars_append (as bs : List Char) :
    encodeChars (as ++ bs) = encodeChars as ++ encodeChars bs := List.flatMap_append

/-! ## Bytes of characters -/

theorem encodeChars_cons_of_lt {c : Char} (hc : c.toNat < 0x80) (cs : List Char) :
    encodeChars (c :: cs) = UInt8.ofNat c.toNat :: encodeChars cs := by
  have hone : String.utf8EncodeChar c = [UInt8.ofNat c.toNat] := by
    unfold String.utf8EncodeChar
    exact if_pos (Nat.le_of_lt_succ hc)
  rw [encodeChars_cons, hone, List.singleton_append]

theorem encodeChars_of_ascii {cs : List Char} (h : ∀ c ∈ cs, c.toNat < 0x80) :
    encodeChars cs = cs.map fun c => UInt8.ofNat c.toNat := by
  induction cs with
  | nil => rfl
  | cons c cs ih =>
    rw [encodeChars_cons_of_lt (h c List.mem_cons_self),
      ih fun a ha => h a (List.mem_cons_of_mem c ha), List.map_cons]

theorem length_le_encodeChars (cs : List Char) : cs.length ≤ (encodeChars cs).length := by
  induction cs with
  | nil => exact Nat.le_refl 0
  | cons c cs ih =>
    have := Char.utf8Size_pos c
    rw [encodeChars_cons, List.length_append, String.length_utf8EncodeChar, List.length_cons]
    omega

/-- Characters of one byte each are ASCII. -/
theorem ascii_of_length {cs : List Char} (h : (encodeChars cs).length = cs.length) :
    ∀ c ∈ cs, c.toNat < 0x80 := by
  induction cs with
  | nil => nofun
  | cons c cs ih =>
    have hpos := Char.utf8Size_pos c
    have hle := length_le_encodeChars cs
    rw [encodeChars_cons, List.length_append, String.length_utf8EncodeChar, List.length_cons] at h
    intro a ha
    rcases List.mem_cons.1 ha with rfl | ha
    · have hone : a.val ≤ 127 := Char.utf8Size_eq_one_iff.1 (by omega)
      exact Nat.lt_succ_of_le (UInt32.le_iff_toNat_le.1 hone)
    · exact ih (by omega) a ha

/-- A byte of a character is its number, or is beyond ASCII. -/
theorem eq_or_le_of_mem_utf8EncodeChar {c : Char} {b : UInt8} (hb : b ∈ String.utf8EncodeChar c) :
    b.toNat = c.toNat ∨ 0x80 ≤ b.toNat := by
  unfold String.utf8EncodeChar at hb
  show b.toNat = c.val.toNat ∨ _
  dsimp only at hb
  generalize c.val.toNat = n at hb ⊢
  split_ifs at hb <;> simp only [List.mem_cons, List.not_mem_nil, or_false] at hb
  · subst hb; simp only [UInt8.toNat_ofNat']; omega
  · rcases hb with rfl | rfl <;> simp only [UInt8.toNat_ofNat'] <;> omega
  · rcases hb with rfl | rfl | rfl <;> simp only [UInt8.toNat_ofNat'] <;> omega
  · rcases hb with rfl | rfl | rfl | rfl <;> simp only [UInt8.toNat_ofNat'] <;> omega

/-- Only the character zero has a zero among its bytes. -/
theorem pos_of_mem_encodeChars {cs : List Char} (h : ∀ c ∈ cs, 0 < c.toNat) {b : UInt8}
    (hb : b ∈ encodeChars cs) : 0 < b.toNat := by
  obtain ⟨c, hc, hb⟩ := List.mem_flatMap.1 hb
  have hpos := h c hc
  have hor := eq_or_le_of_mem_utf8EncodeChar hb
  omega

/-! ## Steps of the machine -/

theorem run_cons (state : State) (b : UInt8) (rest : Bytes) :
    run state (b :: rest) = (step state b).2 ++ run (step state b).1 rest := by
  cases state <;> rfl

/-- The bounds on the second byte of three or four, which depend on the first. -/
def bounds (first : UInt8) : UInt8 × UInt8 :=
  if first = 0xE0 then (0xA0, 0xBF) else if first = 0xED then (0x80, 0x9F)
  else if first = 0xF0 then (0x90, 0xBF) else if first = 0xF4 then (0x80, 0x8F) else (0x80, 0xBF)

theorem start_one {b : UInt8} (h : b.toNat < 0x80) : start b = (.idle, [some (Char.ofNat b.toNat)]) := by
  unfold start
  rw [if_pos (UInt8.lt_iff_toNat_lt.2 h)]

theorem start_two {b : UInt8} (h : 0xC2 ≤ b.toNat ∧ b.toNat < 0xE0) :
    start b = (.pending 1 (b.toNat - 0xC0) 0x80 0xBF, []) := by
  unfold start
  rw [if_neg (by rw [UInt8.lt_iff_toNat_lt]; simp; omega),
    if_neg (by rw [UInt8.lt_iff_toNat_lt]; simp; omega),
    if_pos (by rw [UInt8.lt_iff_toNat_lt]; simp; omega)]

theorem start_three {b : UInt8} (h : 0xE0 ≤ b.toNat ∧ b.toNat < 0xF0) :
    start b = (.pending 2 (b.toNat - 0xE0) (bounds b).1 (bounds b).2, []) := by
  unfold start bounds
  simp only [UInt8.lt_iff_toNat_lt, beq_iff_eq, ← UInt8.toNat_inj, UInt8.reduceToNat]
  split_ifs <;> grind

theorem start_four {b : UInt8} (h : 0xF0 ≤ b.toNat ∧ b.toNat < 0xF5) :
    start b = (.pending 3 (b.toNat - 0xF0) (bounds b).1 (bounds b).2, []) := by
  unfold start bounds
  simp only [UInt8.lt_iff_toNat_lt, beq_iff_eq, ← UInt8.toNat_inj, UInt8.reduceToNat]
  split_ifs <;> grind

section

variable {left bits : Nat} {low high b : UInt8} (h : low.toNat ≤ b.toNat ∧ b.toNat ≤ high.toNat)
include h

theorem step_pending : step (.pending (left + 2) bits low high) b =
    (.pending (left + 1) (bits * 64 + (b.toNat - 0x80)) 0x80 0xBF, []) := by
  show (if low ≤ b ∧ b ≤ high then _ else _) = _
  rw [if_pos (by rwa [UInt8.le_iff_toNat_le, UInt8.le_iff_toNat_le])]
  rfl

theorem step_last : step (.pending 1 bits low high) b =
    (.idle, [some (Char.ofNat (bits * 64 + (b.toNat - 0x80)))]) := by
  show (if low ≤ b ∧ b ≤ high then _ else _) = _
  rw [if_pos (by rwa [UInt8.le_iff_toNat_le, UInt8.le_iff_toNat_le])]
  rfl

end

/-! ## One character -/

/-- A byte behind the first holds six bits. -/
theorem tail_bounds (n : Nat) : (0x80 : UInt8).toNat ≤ (UInt8.ofNat (n % 64 + 128)).toNat ∧
    (UInt8.ofNat (n % 64 + 128)).toNat ≤ (0xBF : UInt8).toNat := by
  simp only [UInt8.toNat_ofNat', UInt8.reduceToNat]
  omega

/-- The second of three bytes keeps off the surrogates and off what two bytes hold. -/
theorem second_of_three {n : Nat} (hlow : 0x800 ≤ n) (hhigh : n ≤ 0xFFFF)
    (hvalid : n < 0xD800 ∨ 0xDFFF < n) :
    (bounds (UInt8.ofNat (n / 4096 % 16 + 224))).1.toNat ≤ (UInt8.ofNat (n / 64 % 64 + 128)).toNat ∧
      (UInt8.ofNat (n / 64 % 64 + 128)).toNat ≤ (bounds (UInt8.ofNat (n / 4096 % 16 + 224))).2.toNat := by
  unfold bounds
  simp only [← UInt8.toNat_inj, UInt8.toNat_ofNat', UInt8.reduceToNat]
  split_ifs <;> simp only [UInt8.reduceToNat] <;> omega

/-- The second of four bytes keeps off what three bytes hold and off what is too large. -/
theorem second_of_four {n : Nat} (hlow : 0x10000 ≤ n) (hhigh : n < 0x110000) :
    (bounds (UInt8.ofNat (n / 262144 % 8 + 240))).1.toNat ≤
        (UInt8.ofNat (n / 4096 % 64 + 128)).toNat ∧
      (UInt8.ofNat (n / 4096 % 64 + 128)).toNat ≤
        (bounds (UInt8.ofNat (n / 262144 % 8 + 240))).2.toNat := by
  unfold bounds
  simp only [← UInt8.toNat_inj, UInt8.toNat_ofNat', UInt8.reduceToNat]
  split_ifs <;> simp only [UInt8.reduceToNat] <;> omega

/-- The bytes of a character are decoded to it, and the machine is back between two characters. -/
theorem run_utf8EncodeChar (c : Char) (rest : Bytes) :
    run .idle (String.utf8EncodeChar c ++ rest) = some c :: run .idle rest := by
  have hvalid : c.val.toNat < 0xD800 ∨ 0xDFFF < c.val.toNat ∧ c.val.toNat < 0x110000 := c.valid
  have hchar : ∀ n, n = c.val.toNat → Char.ofNat n = c := by
    rintro _ rfl; exact Char.ofNat_toNat c
  unfold String.utf8EncodeChar
  dsimp only
  generalize c.val.toNat = n at hvalid hchar
  split_ifs with h₁ h₂ h₃
  · have hfirst : (UInt8.ofNat n).toNat = n := by simp only [UInt8.toNat_ofNat']; omega
    rw [List.singleton_append, run_cons]
    show (start _).2 ++ run (start _).1 rest = _
    rw [start_one (by omega), hfirst, hchar n rfl]
    rfl
  · have hfirst : (UInt8.ofNat (n / 64 % 32 + 192)).toNat = n / 64 % 32 + 192 := by
      simp only [UInt8.toNat_ofNat']; omega
    have hlast : (UInt8.ofNat (n % 64 + 128)).toNat = n % 64 + 128 := by
      simp only [UInt8.toNat_ofNat']; omega
    rw [List.cons_append, List.singleton_append, run_cons]
    show (start _).2 ++ run (start _).1 _ = _
    rw [start_two (by omega), run_cons, step_last (tail_bounds n), hfirst, hlast,
      hchar _ (by omega)]
    rfl
  · have hfirst : (UInt8.ofNat (n / 4096 % 16 + 224)).toNat = n / 4096 % 16 + 224 := by
      simp only [UInt8.toNat_ofNat']; omega
    have hsecond : (UInt8.ofNat (n / 64 % 64 + 128)).toNat = n / 64 % 64 + 128 := by
      simp only [UInt8.toNat_ofNat']; omega
    have hlast : (UInt8.ofNat (n % 64 + 128)).toNat = n % 64 + 128 := by
      simp only [UInt8.toNat_ofNat']; omega
    rw [List.cons_append, List.cons_append, List.singleton_append, run_cons]
    show (start _).2 ++ run (start _).1 _ = _
    rw [start_three (by omega), run_cons,
      step_pending (second_of_three (by omega) (by omega) (by omega)), run_cons,
      step_last (tail_bounds n), hfirst, hsecond, hlast, hchar _ (by omega)]
    rfl
  · have hfirst : (UInt8.ofNat (n / 262144 % 8 + 240)).toNat = n / 262144 % 8 + 240 := by
      simp only [UInt8.toNat_ofNat']; omega
    have hsecond : (UInt8.ofNat (n / 4096 % 64 + 128)).toNat = n / 4096 % 64 + 128 := by
      simp only [UInt8.toNat_ofNat']; omega
    have hthird : (UInt8.ofNat (n / 64 % 64 + 128)).toNat = n / 64 % 64 + 128 := by
      simp only [UInt8.toNat_ofNat']; omega
    have hlast : (UInt8.ofNat (n % 64 + 128)).toNat = n % 64 + 128 := by
      simp only [UInt8.toNat_ofNat']; omega
    rw [List.cons_append, List.cons_append, List.cons_append, List.singleton_append, run_cons]
    show (start _).2 ++ run (start _).1 _ = _
    rw [start_four (by omega), run_cons, step_pending (second_of_four (by omega) (by omega)),
      run_cons, step_pending (tail_bounds (n / 64)), run_cons, step_last (tail_bounds n), hfirst,
      hsecond, hthird, hlast, hchar _ (by omega)]
    rfl

/-! ## Texts -/

theorem decode_encodeChars (cs : List Char) : decode (encodeChars cs) = cs.map some := by
  induction cs with
  | nil => rfl
  | cons c cs ih =>
    rw [encodeChars_cons]
    exact (run_utf8EncodeChar c _).trans (congrArg _ ih)

/-- All entries are characters, and these are in order. -/
theorem mapM_id_eq_some_iff {α : Type} {entries : List (Option α)} {as : List α} :
    entries.mapM id = some as ↔ entries = as.map some := by
  induction entries generalizing as with
  | nil => cases as <;> simp
  | cons entry entries ih =>
    rw [List.mapM_cons]
    cases entry with
    | none => cases as <;> simp
    | some a =>
      show ((entries.mapM id).bind fun rest => some (a :: rest)) = some as ↔ _
      rw [Option.bind_eq_some_iff]
      constructor
      · rintro ⟨rest, hrest, hcons⟩
        cases hcons
        rw [ih.1 hrest, List.map_cons]
      · intro h
        cases as with
        | nil => cases h
        | cons b as =>
          obtain ⟨hb, has⟩ := List.cons.inj h
          cases hb
          exact ⟨as, ih.2 has, rfl⟩

theorem text?_encodeChars (cs : List Char) : text? (encodeChars cs) = some (String.ofList cs) := by
  unfold text?
  rw [mapM_id_eq_some_iff.2 (decode_encodeChars cs)]
  rfl

theorem text?_encode (s : String) : text? (encode s) = some s := by
  conv_lhs => rw [← String.ofList_toList (s := s), encode_ofList]
  rw [text?_encodeChars, String.ofList_toList]

end PolicyClient.Utf8
