/-
Keys in order. The members of every object that is read stand in the order of their keys, each key
once, at any depth (`keyed_of_ofBytes`): they are inserted one by one, and an insertion keeps the order
(`Members.sorted_insert`). The readers are followed in the order in which they call one another.
-/
import PolicyClient.Document.Reader
import PolicyClient.Proofs.Fallible
import Mathlib

namespace PolicyClient

/-! ## Members in order -/

namespace Members

variable {members : Members} {name : String} {value : Document}

theorem mem_insert {m : String × Document} (h : m ∈ members.insert name value) :
    m = (name, value) ∨ m ∈ members := by
  induction members with
  | nil => exact .inl (List.mem_singleton.1 h)
  | cons first rest ih =>
    rw [insert] at h
    split_ifs at h
    · exact (List.mem_cons.1 h).imp_right (List.mem_cons_of_mem _)
    · exact List.mem_cons.1 h
    · rcases List.mem_cons.1 h with rfl | h
      · exact .inr List.mem_cons_self
      · exact (ih h).imp_right (List.mem_cons_of_mem _)

theorem sorted_insert (h : members.Sorted) (name : String) (value : Document) :
    (members.insert name value).Sorted := by
  induction members with
  | nil => exact List.pairwise_singleton _ _
  | cons first rest ih =>
    obtain ⟨key, old⟩ := first
    obtain ⟨hfirst, hrest⟩ := List.pairwise_cons.1 h
    rw [insert]
    split_ifs with heq hlt
    · subst heq
      exact List.pairwise_cons.2 ⟨hfirst, hrest⟩
    · refine List.pairwise_cons.2 ⟨fun m hm => ?_, h⟩
      rcases List.mem_cons.1 hm with rfl | hm
      · exact hlt
      · exact hlt.trans (hfirst m hm)
    · refine List.pairwise_cons.2 ⟨fun m hm => ?_, ih hrest⟩
      rcases mem_insert hm with rfl | hm
      · exact lt_of_le_of_ne (not_lt.1 hlt) heq
      · exact hfirst m hm

theorem sorted_ofList (entries : List (String × Document)) : (ofList entries).Sorted := by
  have hrun : ∀ members : Members, members.Sorted →
      (entries.foldl (fun members entry => members.insert entry.1 entry.2) members).Sorted := by
    induction entries with
    | nil => exact fun _ h => h
    | cons entry entries ih => exact fun _ h => ih _ (sorted_insert h _ _)
  exact hrun [] .nil

theorem mem_of_mem_ofList {entries : List (String × Document)} {m : String × Document}
    (h : m ∈ ofList entries) : m ∈ entries := by
  have hrun : ∀ members : Members,
      m ∈ entries.foldl (fun members entry => members.insert entry.1 entry.2) members →
        m ∈ members ∨ m ∈ entries := by
    clear h
    induction entries with
    | nil => exact fun _ h => .inl h
    | cons entry entries ih =>
      intro members h
      rcases ih _ h with h | h
      · rcases mem_insert h with rfl | h
        · exact .inr List.mem_cons_self
        · exact .inl h
      · exact .inr (List.mem_cons_of_mem _ h)
  exact (hrun [] h).resolve_left nofun

end Members

namespace Document

open Fallible

/-! ## Parts -/

/-- A document stands in another at some depth, or is that document. -/
inductive Within (part : Document) : Document → Prop
  | here : Within part part
  | item {d : Document} {items : List Document} : d ∈ items → Within part d →
      Within part (.array items)
  | member {m : String × Document} {members : Members} : m ∈ members → Within part m.2 →
      Within part (.object members)

/-- The members of every object, at any depth, stand in the order of their keys, each key once. -/
def Keyed (d : Document) : Prop :=
  ∀ members, Within (.object members) d → Members.Sorted members

variable {d : Document} {items : List Document} {members : Members}

theorem keyed_null : Keyed .null := by rintro _ ⟨⟩

theorem keyed_bool (value : Bool) : Keyed (.bool value) := by rintro _ ⟨⟩

theorem keyed_number (value : Numeral) : Keyed (.number value) := by rintro _ ⟨⟩

theorem keyed_text (value : String) : Keyed (.text value) := by rintro _ ⟨⟩

theorem keyed_array : Keyed (.array items) ↔ ∀ d ∈ items, d.Keyed := by
  refine ⟨fun h d hd inner hw => h inner (.item hd hw), fun h inner hw => ?_⟩
  cases hw with
  | item hd hw => exact h _ hd inner hw

theorem keyed_object : Keyed (.object members) ↔ members.Sorted ∧ ∀ m ∈ members, m.2.Keyed := by
  refine ⟨fun h => ⟨h members .here, fun m hm inner hw => h inner (.member hm hw)⟩, ?_⟩
  rintro ⟨hsorted, h⟩ inner hw
  cases hw with
  | here => exact hsorted
  | member hm hw => exact h _ hm inner hw

theorem keyed_ofMembers {entries : List (String × Document)} (h : ∀ m ∈ entries, m.2.Keyed) :
    (ofMembers entries).Keyed :=
  keyed_object.2 ⟨Members.sorted_ofList entries, fun m hm => h m (Members.mem_of_mem_ofList hm)⟩

/-! ## What is read -/

theorem length_of_skipBlank {s rest : Bytes} {b : UInt8} (h : skipBlank s = b :: rest) :
    rest.length < s.length := by
  have hlength := skipBlank_length s
  rwa [h, List.length_cons, Nat.succ_le_iff] at hlength

mutual

theorem keyed_of_readValue {depth : Nat} {s : Bytes} {t : Taken Document s.length}
    (h : readValue depth s = .ok t) : t.value.Keyed := by
  rw [readValue] at h
  split at h
  · cases h
  · next b rest hskip =>
    have hs := length_of_skipBlank hskip
    dsimp only at h
    split_ifs at h
    · obtain ⟨_, -, rfl⟩ := map_eq_ok.1 h
      exact keyed_null
    · obtain ⟨_, -, rfl⟩ := map_eq_ok.1 h
      exact keyed_bool true
    · obtain ⟨_, -, rfl⟩ := map_eq_ok.1 h
      exact keyed_bool false
    · obtain ⟨_, -, rfl⟩ := map_eq_ok.1 h
      exact keyed_text _
    · obtain ⟨_, -, rfl⟩ := map_eq_ok.1 h
      exact keyed_number _
    · cases h
    · obtain ⟨_, hitems, rfl⟩ := map_eq_ok.1 h
      exact keyed_array.2 (keyed_of_readArray hitems)
    · cases h
    · obtain ⟨_, hobject, rfl⟩ := map_eq_ok.1 h
      exact (keyed_of_readObject hobject :)
    · cases h
termination_by 3 * s.length

theorem keyed_of_readArray {depth : Nat} {s : Bytes} {t : Taken (List Document) s.length}
    (h : readArray depth s = .ok t) : ∀ d ∈ t.value, d.Keyed := by
  rw [readArray] at h
  split at h
  · cases h
  · next b rest hskip =>
    have hs := length_of_skipBlank hskip
    split_ifs at h
    · cases h
      nofun
    · obtain ⟨_, hitems, rfl⟩ := map_eq_ok.1 h
      exact (keyed_of_readItems hitems :)
termination_by 3 * s.length + 2

theorem keyed_of_readItems {depth : Nat} {s : Bytes} {t : Taken (List Document) s.length}
    (h : readItems depth s = .ok t) : ∀ d ∈ t.value, d.Keyed := by
  rw [readItems] at h
  obtain ⟨item, hitem, h⟩ := bind_eq_ok.1 h
  have hfirst := keyed_of_readValue hitem
  have hshort := item.short
  dsimp only at h
  split at h
  · cases h
  · next b rest hskip =>
    have hrest := length_of_skipBlank hskip
    split_ifs at h
    · cases h
      exact List.forall_mem_singleton.2 hfirst
    · split at h
      · cases h
      · next c rest' hskip' =>
        have hrest' := length_of_skipBlank hskip'
        split_ifs at h
        · cases h
        · obtain ⟨more, hmore, h⟩ := bind_eq_ok.1 h
          cases h
          exact List.forall_mem_cons.2 ⟨hfirst, keyed_of_readItems hmore⟩
    · cases h
termination_by 3 * s.length + 1

theorem keyed_of_readObject {depth : Nat} {s : Bytes} {t : Taken Document s.length}
    (h : readObject depth s = .ok t) : t.value.Keyed := by
  rw [readObject] at h
  split at h
  · cases h
  · next b rest hskip =>
    have hs := length_of_skipBlank hskip
    split_ifs at h
    · cases h
      exact keyed_object.2 ⟨.nil, nofun⟩
    · obtain ⟨key, hkey, h⟩ := bind_eq_ok.1 h
      have hshort := key.short
      dsimp only at h
      split_ifs at h
      · obtain ⟨n, -, h⟩ := bind_eq_ok.1 h
        cases h
        exact keyed_number _
      · obtain ⟨value, hvalue, h⟩ := bind_eq_ok.1 h
        have hshort' := value.short
        obtain ⟨more, hmore, h⟩ := bind_eq_ok.1 h
        cases h
        exact keyed_ofMembers
          (List.forall_mem_cons.2 ⟨keyed_of_readField hvalue, keyed_of_readMembers hmore⟩)
    · cases h
termination_by 3 * s.length

theorem keyed_of_readField {depth : Nat} {s : Bytes} {t : Taken Document s.length}
    (h : readField depth s = .ok t) : t.value.Keyed := by
  rw [readField] at h
  obtain ⟨colon, -, h⟩ := bind_eq_ok.1 h
  have hshort := colon.short
  obtain ⟨value, hvalue, h⟩ := bind_eq_ok.1 h
  cases h
  exact (keyed_of_readValue hvalue :)
termination_by 3 * s.length

theorem keyed_of_readMembers {depth : Nat} {s : Bytes}
    {t : Taken (List (String × Document)) s.length} (h : readMembers depth s = .ok t) :
    ∀ m ∈ t.value, m.2.Keyed := by
  rw [readMembers] at h
  split at h
  · cases h
  · next b rest hskip =>
    have hs := length_of_skipBlank hskip
    split_ifs at h
    · cases h
      nofun
    · split at h
      · cases h
      · next c rest' hskip' =>
        have hrest' := length_of_skipBlank hskip'
        split_ifs at h
        · obtain ⟨key, -, h⟩ := bind_eq_ok.1 h
          have hshort := key.short
          obtain ⟨value, hvalue, h⟩ := bind_eq_ok.1 h
          have hshort' := value.short
          obtain ⟨more, hmore, h⟩ := bind_eq_ok.1 h
          cases h
          exact List.forall_mem_cons.2 ⟨keyed_of_readField hvalue, keyed_of_readMembers hmore⟩
        · cases h
        · cases h
    · cases h
termination_by 3 * s.length

end

/-- The members of every object in a document that is read stand in the order of their keys. -/
theorem keyed_of_ofBytes {bytes : Bytes} (h : ofBytes bytes = .ok d) : d.Keyed := by
  obtain ⟨⟨value, rest⟩, hfront, h⟩ := bind_eq_ok.1 h
  obtain ⟨_, -, h⟩ := bind_eq_ok.1 h
  cases h
  unfold readFront at hfront
  cases hread : readValue maxDepth bytes with
  | error failure => rw [hread] at hfront; cases hfront
  | ok t =>
    rw [hread] at hfront
    cases hfront
    exact keyed_of_readValue hread

end Document
end PolicyClient
