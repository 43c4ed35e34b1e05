/-
Well-formed UTF-8. Bytes are well-formed just if the machine finds no malformed subsequence in them; then
it is back between two characters, so what follows is read afresh (`run_append`). In front of the
bytes of a character nothing can be pending without one (`idle_of_run`), since no character begins with
a byte that continues a sequence.
-/
import Mathlib
import PolicyClient.Proofs.Text.Utf8

namespace PolicyClient.Utf8

/-- No subsequence of the bytes is malformed. -/
def WellFormed (bytes : Bytes) : Prop :=
  none ∉ decode bytes

theorem mapM_id_eq_none_iff {α : Type} {entries : List (Option α)} :
    entries.mapM id = none ↔ none ∈ entries := by
  induction entries with
  | nil => simp
  | cons entry entries ih =>
    rw [List.mapM_cons, List.mem_cons]
    cases entry with
    | none => simp
    | some a =>
      show ((entries.mapM id).bind fun rest => some (a :: rest)) = none ↔ _
      rw [Option.bind_eq_none_iff, ← ih]
      cases entries.mapM id <;> simp

theorem text?_eq_none_iff {bytes : Bytes} : text? bytes = none ↔ ¬ WellFormed bytes := by
  rw [text?, Option.map_eq_none_iff, mapM_id_eq_none_iff, WellFormed, not_not]

variable {state : State} {a b s v : Bytes}

/-- Whatever follows well-formed bytes is read afresh. -/
theorem run_append (h : none ∉ run state a) (b : Bytes) : run state (a ++ b) = run state a ++ run .idle b := by
  induction a generalizing state with
  | nil =>
    cases state with
    | idle => rfl
    | pending => exact absurd List.mem_cons_self h
  | cons byte a ih =>
    rw [run_cons, List.mem_append, not_or] at h
    rw [List.cons_append, run_cons, run_cons, ih h.2, List.append_assoc]

theorem WellFormed.append (ha : WellFormed a) (hb : WellFormed b) : WellFormed (a ++ b) := by
  unfold WellFormed decode
  rw [run_append ha, List.mem_append]
  exact not_or.2 ⟨ha, hb⟩

theorem wellFormed_nil : WellFormed [] := nofun

theorem wellFormed_cons {byte : UInt8} (hbyte : byte.toNat < 0x80) (hs : WellFormed s) :
    WellFormed (byte :: s) := by
  unfold WellFormed decode
  rw [run_cons]
  show none ∉ (start byte).2 ++ run (start byte).1 s
  rw [start_one hbyte]
  exact List.not_mem_cons_of_ne_of_not_mem nofun hs

theorem wellFormed_of_ascii (h : ∀ byte ∈ s, byte.toNat < 0x80) : WellFormed s := by
  induction s with
  | nil => exact wellFormed_nil
  | cons byte s ih =>
    obtain ⟨hbyte, hs⟩ := List.forall_mem_cons.1 h
    exact wellFormed_cons hbyte (ih hs)

/-! ## A sequence that is cut off -/

/-- Only a byte that continues a sequence lies within the bounds of a state. -/
def State.Sound : State → Prop
  | .idle => True
  | .pending _ _ low high => 0x80 ≤ low.toNat ∧ high.toNat ≤ 0xBF

theorem sound_start (byte : UInt8) : (start byte).1.Sound := by
  unfold start
  split_ifs <;> simp [State.Sound]

theorem sound_step (h : state.Sound) (byte : UInt8) : (step state byte).1.Sound := by
  cases state with
  | idle => exact sound_start byte
  | pending left bits low high =>
    unfold step
    dsimp only
    split_ifs
    · trivial
    · simp [State.Sound]
    · exact sound_start byte

/-- No character begins with a byte that continues a sequence. -/
theorem utf8EncodeChar_eq_cons (c : Char) : ∃ first rest, String.utf8EncodeChar c = first :: rest ∧
    (first.toNat < 0x80 ∨ 0xC0 ≤ first.toNat) := by
  unfold String.utf8EncodeChar
  dsimp only
  have hc : c.val.toNat < 0x110000 := by
    have := c.valid
    rcases this with h | h
    · exact h.trans (by decide)
    · exact h.2
  generalize c.val.toNat = n at hc
  split_ifs
  · exact ⟨_, _, rfl, by simp only [UInt8.toNat_ofNat']; omega⟩
  · exact ⟨_, _, rfl, by simp only [UInt8.toNat_ofNat']; omega⟩
  · exact ⟨_, _, rfl, by simp only [UInt8.toNat_ofNat']; omega⟩
  · exact ⟨_, _, rfl, by simp only [UInt8.toNat_ofNat']; omega⟩

/-- A byte out of the bounds ends the pending sequence as malformed. -/
theorem step_out {left bits : Nat} {low high byte : UInt8} (h : ¬ (low ≤ byte ∧ byte ≤ high)) :
    step (.pending left bits low high) byte = ((start byte).1, none :: (start byte).2) := by
  simp only [step, if_neg h]

/-- Where a character is read without a malformed sequence in front, none was pending. -/
theorem idle_of_run {c : Char} (hsound : state.Sound)
    (h : none ∉ run state (String.utf8EncodeChar c ++ v)) : state = .idle := by
  cases state with
  | idle => rfl
  | pending left bits low high =>
    obtain ⟨first, rest, hfirst, hbounds⟩ := utf8EncodeChar_eq_cons c
    have hout : ¬ (low ≤ first ∧ first ≤ high) := by
      rw [UInt8.le_iff_toNat_le, UInt8.le_iff_toNat_le]
      obtain ⟨hlow, hhigh⟩ := hsound
      omega
    rw [hfirst, List.cons_append, run_cons, step_out hout] at h
    exact absurd (List.mem_append_left _ List.mem_cons_self) h

end PolicyClient.Utf8
