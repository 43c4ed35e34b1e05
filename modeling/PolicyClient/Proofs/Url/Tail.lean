/-
What stands behind the host of a URL: the path, the query and the fragment, as `Url.text` writes
them. They are read back from their text (`withTail_tailText`), because nothing in one of them can
be taken for the start of the next and none of them is encoded a second time.
-/
import PolicyClient.Proofs.Url.Authority
import PolicyClient.Proofs.Url.Path

namespace PolicyClient.Url

variable {toAscii : ToAscii}

/-- Path, query and fragment are as reading leaves them. -/
structure SettledTail (u : Url) : Prop where
  path_ne : u.path ≠ []
  path : ∀ segment ∈ u.path, SettledSegment segment
  query : ∀ q ∈ u.query, ∀ c ∈ q.toList, inQuerySet c = false
  fragment : ∀ f ∈ u.fragment, ∀ c ∈ f.toList, inFragmentSet c = false

theorem settledTail_withTail (u : Url) (tail : List Char) : (u.withTail tail).SettledTail := by
  obtain ⟨hne, hpath⟩ := parsePath_settled (splitTail tail).1
  refine ⟨hne, hpath, ?_, ?_⟩
  · intro q hq c hc
    obtain ⟨s, -, rfl⟩ := Option.map_eq_some_iff.1 hq
    rw [String.toList_ofList] at hc
    exact not_inSet_of_mem_encode escapable_inQuerySet hc
  · intro f hf c hc
    obtain ⟨s, -, rfl⟩ := Option.map_eq_some_iff.1 hf
    rw [String.toList_ofList] at hc
    exact not_inSet_of_mem_encode escapable_inFragmentSet hc

theorem settledTail_of_parse {input : String} {u : Url} (h : parse input toAscii = .ok u) :
    u.SettledTail := by
  obtain ⟨scheme, s, -, hparse⟩ := exists_parseSpecial h
  obtain ⟨-, -, -, -, tail, htail⟩ := parseSpecial_eq_ok hparse
  rw [← htail]
  exact u.settledTail_withTail tail

/-! ## The characters of a tail -/

theorem SettledSegment.visible {segment : String} (h : SettledSegment segment) :
    ∀ c ∈ segment.toList, 0x20 < c.toNat ∧ c ≠ '?' ∧ c ≠ '#' := by
  intro c hc
  have hset := h.encoded c hc
  have hne : ∀ d, inPathSet d = true → c ≠ d := fun d hd =>
    ne_of_apply_ne inPathSet (by simp [hset, hd])
  exact ⟨visible_of_not_inSet (fun c hc => by simp [inPathSet, inFragmentSet, hc]) (by decide) hset,
    hne '?' (by decide), hne '#' (by decide)⟩

theorem visible_pathChars {path : List String} (h : ∀ segment ∈ path, SettledSegment segment) :
    ∀ c ∈ pathChars path, 0x20 < c.toNat ∧ c ≠ '?' ∧ c ≠ '#' := by
  intro c hc
  rcases mem_pathChars hc with rfl | ⟨segment, hsegment, hc⟩
  · decide
  · exact (h segment hsegment).visible c hc

theorem tailText_eq (u : Url) : u.tailText = pathChars u.path ++
    ((u.query.map fun q => '?' :: q.toList).getD [] ++
      (u.fragment.map fun f => '#' :: f.toList).getD []) := by
  unfold tailText
  rw [toList_pathText, List.append_assoc]
  cases u.query <;> cases u.fragment <;> rfl

theorem SettledTail.visible {u : Url} (hu : u.SettledTail) : ∀ c ∈ u.tailText, 0x20 < c.toNat := by
  rw [tailText_eq, List.forall_mem_append, List.forall_mem_append]
  refine ⟨fun c hc => (visible_pathChars hu.path c hc).1, ?_, ?_⟩
  · cases hquery : u.query with
    | none => simp
    | some q =>
      exact List.forall_mem_cons.2 ⟨by decide, fun c hc => visible_of_not_inSet
        (fun c hc => by simp [inQuerySet, hc]) (by decide) (hu.query q hquery c hc)⟩
  · cases hfragment : u.fragment with
    | none => simp
    | some f =>
      exact List.forall_mem_cons.2 ⟨by decide, fun c hc => visible_of_not_inSet
        (fun c hc => by simp [inFragmentSet, hc]) (by decide) (hu.fragment f hfragment c hc)⟩

/-! ## Cutting a tail -/

/-- What ends neither the path nor the query belongs to the path. -/
theorem splitTail_append {front : List Char} (h : ∀ c ∈ front, c ≠ '?' ∧ c ≠ '#')
    (rest : List Char) :
    splitTail (front ++ rest) = (front ++ (splitTail rest).1, (splitTail rest).2) := by
  have hhash : '#' ∉ front := fun hc => (h _ hc).2 rfl
  have hmark : '?' ∉ front := fun hc => (h _ hc).1 rfl
  unfold splitTail
  rw [Text.splitFirst?_append_of_not_mem hhash]
  cases Text.splitFirst? '#' rest with
  | none =>
    dsimp only [Option.map_none]
    rw [Text.splitFirst?_append_of_not_mem hmark]
    cases Text.splitFirst? '?' rest <;> rfl
  | some sides =>
    dsimp only [Option.map_some]
    rw [Text.splitFirst?_append_of_not_mem hmark]
    cases Text.splitFirst? '?' sides.1 <;> rfl

theorem splitTail_of_not_mem {s : List Char} (hmark : '?' ∉ s) (hhash : '#' ∉ s) :
    splitTail s = (s, none, none) := by
  unfold splitTail
  rw [Text.splitFirst?_of_not_mem hhash]
  dsimp only
  rw [Text.splitFirst?_of_not_mem hmark]

theorem splitTail_query {path query : List Char} (hpath : '?' ∉ path)
    (hhash : '#' ∉ path ++ '?' :: query) :
    splitTail (path ++ '?' :: query) = (path, some query, none) := by
  unfold splitTail
  rw [Text.splitFirst?_of_not_mem hhash]
  dsimp only
  rw [Text.splitFirst?_append hpath]

theorem splitTail_fragment {front : List Char} (hhash : '#' ∉ front) (fragment : List Char) :
    splitTail (front ++ '#' :: fragment) =
      ((splitTail front).1, (splitTail front).2.1, some fragment) := by
  unfold splitTail
  rw [Text.splitFirst?_append hhash, Text.splitFirst?_of_not_mem hhash]
  dsimp only
  cases Text.splitFirst? '?' front <;> rfl

/-- The path is ended by `?` and `#`, and by nothing else. -/
theorem splitTail_none_iff {s : List Char} :
    (splitTail s).2.1 = none ∧ (splitTail s).2.2 = none ↔ '?' ∉ s ∧ '#' ∉ s := by
  constructor
  · intro h
    have hhash : '#' ∉ s := by
      intro hmem
      obtain ⟨front, fragment, rfl, hfront⟩ := List.eq_append_cons_of_mem hmem
      rw [splitTail_fragment hfront] at h
      cases h.2
    refine ⟨fun hmem => ?_, hhash⟩
    obtain ⟨path, query, rfl, hpath⟩ := List.eq_append_cons_of_mem hmem
    rw [splitTail_query hpath hhash] at h
    cases h.1
  · rintro ⟨hmark, hhash⟩
    rw [splitTail_of_not_mem hmark hhash]
    exact ⟨rfl, rfl⟩

theorem SettledTail.splitTail_tailText {u : Url} (hu : u.SettledTail) :
    splitTail u.tailText =
      (pathChars u.path, u.query.map String.toList, u.fragment.map String.toList) := by
  have hpath := fun c hc => (visible_pathChars hu.path c hc).2
  have hmark : '?' ∉ pathChars u.path := fun hc => (hpath _ hc).1 rfl
  -- the fragment is cut off first, so the query is looked for in front of it
  have hquery : ∃ front, pathChars u.path ++ (u.query.map fun q => '?' :: q.toList).getD [] =
      front ∧ '#' ∉ front ∧ splitTail front =
        (pathChars u.path, u.query.map String.toList, none) := by
    have hhash : '#' ∉ pathChars u.path := fun hc => (hpath _ hc).2 rfl
    cases hq : u.query with
    | none => exact ⟨_, List.append_nil _, hhash, splitTail_of_not_mem hmark hhash⟩
    | some q =>
      have hnot : '#' ∉ pathChars u.path ++ '?' :: q.toList := by
        rw [List.mem_append, List.mem_cons]
        rintro (h | h | h)
        · exact hhash h
        · cases h
        · cases hu.query q hq _ h
      exact ⟨_, rfl, hnot, splitTail_query hmark hnot⟩
  obtain ⟨front, hfront, hhash, hread⟩ := hquery
  rw [tailText_eq, ← List.append_assoc, hfront]
  cases u.fragment with
  | none => rw [Option.map_none, Option.getD_none, List.append_nil, hread]; rfl
  | some f => rw [Option.map_some, Option.getD_some, splitTail_fragment hhash, hread]; rfl

/-- The tail of a URL is read back from its text. -/
theorem SettledTail.withTail_tailText {w : Url} (hw : w.SettledTail) (u : Url) :
    u.withTail w.tailText =
      { u with path := w.path, query := w.query, fragment := w.fragment } := by
  have hread : ∀ {inSet : Char → Bool} {part : Option String},
      (∀ p ∈ part, ∀ c ∈ p.toList, inSet c = false) →
      ((part.map String.toList).map fun p => String.ofList (encode inSet p)) = part := by
    intro inSet part h
    cases part with
    | none => rfl
    | some p =>
      rw [Option.map_some, Option.map_some, encode_of_forall (h p rfl), String.ofList_toList]
  unfold withTail
  rw [hw.splitTail_tailText]
  dsimp only
  rw [parsePath_pathChars hw.path_ne hw.path, hread hw.query, hread hw.fragment]

end PolicyClient.Url
