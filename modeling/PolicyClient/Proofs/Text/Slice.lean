/-
Slices of a text between two positions among its bytes. There is a slice only between positions
that lie inside no character, and it is then what stands between them (`slice?_eq_some_iff`).
-/
import Mathlib.Data.List.Basic

namespace PolicyClient.Text

/-- The text between two byte positions, if both lie between characters and in this order. -/
def slice? (s : String) (start stop : Nat) : Option String := do
  let first ← s.pos? ⟨start⟩
  let last ← s.pos? ⟨stop⟩
  (s.slice? first last).map String.Slice.copy

theorem pos?_eq_some_iff {s : String} {index : Nat} {p : s.Pos} :
    s.pos? ⟨index⟩ = some p ↔ p.offset.byteIdx = index := by
  unfold String.pos? String.Slice.pos?
  constructor
  · intro h
    split at h
    · cases h; rfl
    · cases h
  · rintro rfl
    rw [dif_pos (String.Pos.Raw.isValidForSlice_eq_true_iff.2 p.isValid.toSlice)]
    rfl

/-- A slice is a part of the text, and its positions count the bytes up to its two ends. -/
theorem slice?_eq_some_iff {s part : String} {start stop : Nat} :
    slice? s start stop = some part ↔ ∃ front behind, s = front ++ part ++ behind ∧
      front.utf8ByteSize = start ∧ (front ++ part).utf8ByteSize = stop := by
  unfold slice? String.slice?
  simp only [Option.bind_eq_bind, Option.bind_eq_some_iff, Option.map_eq_some_iff,
    pos?_eq_some_iff]
  constructor
  · rintro ⟨first, rfl, last, rfl, slice, hslice, hcopy⟩
    split at hslice
    · next hle =>
      cases hslice
      obtain ⟨front, behind, hfirst, hlast⟩ := String.copy_slice_eq_iff_splits.1 ⟨hle, hcopy⟩
      refine ⟨front, behind, hlast.eq_append, ?_, ?_⟩
      · rw [hfirst.offset_eq_rawEndPos]; rfl
      · rw [hlast.offset_eq_rawEndPos]; rfl
    · cases hslice
  · rintro ⟨front, behind, rfl, rfl, rfl⟩
    have hfirst := String.Pos.splits_ofEqAppend (@String.append_assoc front part behind)
    have hlast := String.Pos.splits_ofEqAppend (Eq.refl (front ++ part ++ behind))
    obtain ⟨hle, hcopy⟩ := String.copy_slice_eq_iff_splits.2 ⟨front, behind, hfirst, hlast⟩
    refine ⟨_, ?_, _, ?_, _, dif_pos hle, hcopy⟩
    · rw [hfirst.offset_eq_rawEndPos]; rfl
    · rw [hlast.offset_eq_rawEndPos]; rfl

/-- Where every character is one byte, bytes are counted as characters. -/
theorem utf8ByteSize_ofList {cs : List Char} (h : ∀ c ∈ cs, c.utf8Size = 1) :
    (String.ofList cs).utf8ByteSize = cs.length := by
  induction cs with
  | nil => rfl
  | cons c cs ih =>
    obtain ⟨hc, hcs⟩ := List.forall_mem_cons.1 h
    rw [String.ofList_cons, String.utf8ByteSize_append, String.utf8ByteSize_singleton, hc, ih hcs,
      List.length_cons, Nat.add_comm]

end PolicyClient.Text
