/-
Where a text is cut. What stands outside double quotes is said by a grammar (`Closed`): a text of
characters other than quotes and of whole quoted strings, in which a backslash goes with the
character behind it. The zones are a machine for this grammar (`behind_eq_outside_iff`), so the cuts
of a text are its separators behind such a beginning, all of them and no others. A scanner that
finds them by counting bytes (`ranges`) slices the text between characters only.
-/
import PolicyClient.Proofs.Text.Quoted
import PolicyClient.Proofs.Text.Slice

namespace PolicyClient.Text.Quoted

/-! ## Double-quoted strings -/

/-- What may stand between the quotes of a quoted string: a backslash takes the character behind it
along, whatever this is. -/
inductive Content : List Char → Prop
  | nil : Content []
  | plain {c : Char} {s : List Char} : c ≠ '"' → c ≠ '\\' → Content s → Content (c :: s)
  | pair (c : Char) {s : List Char} : Content s → Content ('\\' :: c :: s)

/-- Texts that end outside double quotes: their quotes enclose quoted strings, each of them whole. -/
inductive Closed : List Char → Prop
  | nil : Closed []
  | plain {c : Char} {s : List Char} : c ≠ '"' → Closed s → Closed (c :: s)
  | quoted {inner s : List Char} : Content inner → Closed s → Closed ('"' :: (inner ++ '"' :: s))

/-- Texts that begin inside a quoted string and end outside quotes. -/
def Closing (s : List Char) : Prop :=
  ∃ inner rest, s = inner ++ '"' :: rest ∧ Content inner ∧ Closed rest

theorem not_closing_nil : ¬ Closing [] := by
  rintro ⟨inner, rest, h, -, -⟩
  cases inner <;> cases h

theorem closed_quote_iff {s : List Char} : Closed ('"' :: s) ↔ Closing s := by
  constructor
  · intro h
    generalize hs : '"' :: s = s' at h
    cases h with
    | nil => cases hs
    | plain hc => cases hs; exact absurd rfl hc
    | quoted hinner hrest => cases hs; exact ⟨_, _, rfl, hinner, hrest⟩
  · rintro ⟨inner, rest, rfl, hinner, hrest⟩
    exact .quoted hinner hrest

theorem closed_plain_iff {c : Char} {s : List Char} (hc : c ≠ '"') : Closed (c :: s) ↔ Closed s := by
  constructor
  · intro h
    cases h with
    | plain _ hs => exact hs
    | quoted => exact absurd rfl hc
  · exact .plain hc

theorem closing_quote_iff {s : List Char} : Closing ('"' :: s) ↔ Closed s := by
  constructor
  · rintro ⟨inner, rest, hs, hinner, hrest⟩
    cases hinner with
    | nil => cases hs; exact hrest
    | plain hc => cases hs; exact absurd rfl hc
    | pair => cases hs
  · intro h
    exact ⟨[], s, rfl, .nil, h⟩

theorem closing_backslash_iff {s : List Char} :
    Closing ('\\' :: s) ↔ ∃ c rest, s = c :: rest ∧ Closing rest := by
  constructor
  · rintro ⟨inner, rest, hs, hinner, hrest⟩
    cases hinner with
    | nil => cases hs
    | plain _ hc => cases hs; exact absurd rfl hc
    | pair c hinner => cases hs; exact ⟨c, _, rfl, _, rest, rfl, hinner, hrest⟩
  · rintro ⟨c, _, rfl, inner, rest, rfl, hinner, hrest⟩
    exact ⟨'\\' :: c :: inner, rest, rfl, .pair c hinner, hrest⟩

theorem closing_plain_iff {c : Char} {s : List Char} (hquote : c ≠ '"') (hslash : c ≠ '\\') :
    Closing (c :: s) ↔ Closing s := by
  constructor
  · rintro ⟨inner, rest, hs, hinner, hrest⟩
    cases hinner with
    | nil => cases hs; exact absurd rfl hquote
    | plain _ _ hinner => cases hs; exact ⟨_, rest, rfl, hinner, hrest⟩
    | pair => cases hs; exact absurd rfl hslash
  · rintro ⟨inner, rest, rfl, hinner, hrest⟩
    exact ⟨c :: inner, rest, rfl, .plain hquote hslash hinner, hrest⟩

/-! ## Zones -/

/-- The zone behind a text. -/
def Zone.behind (zone : Zone) (s : List Char) : Zone :=
  s.foldl Zone.after zone

/-- The texts that lead out of quotes from a zone. -/
def Completes : Zone → List Char → Prop
  | .outside, s => Closed s
  | .inside, s => Closing s
  | .escaped, s => ∃ c rest, s = c :: rest ∧ Closing rest

variable {separator : Char} {zone : Zone}

theorem completes_nil : Completes zone [] ↔ zone = .outside := by
  cases zone with
  | outside => exact ⟨fun _ => rfl, fun _ => .nil⟩
  | inside => exact ⟨fun h => absurd h not_closing_nil, nofun⟩
  | escaped =>
    constructor
    · rintro ⟨c, rest, h, -⟩; cases h
    · nofun

/-- One character of the machine is one of the grammar. -/
theorem completes_cons (c : Char) (s : List Char) :
    Completes zone (c :: s) ↔ Completes (zone.after c) s := by
  cases zone with
  | outside =>
    by_cases hquote : c = '"'
    · subst hquote; exact closed_quote_iff
    · rw [Zone.after, if_neg hquote]; exact closed_plain_iff hquote
  | inside =>
    by_cases hslash : c = '\\'
    · subst hslash; exact closing_backslash_iff
    · rw [Zone.after, if_neg hslash]
      by_cases hquote : c = '"'
      · subst hquote; exact closing_quote_iff
      · rw [if_neg hquote]; exact closing_plain_iff hquote hslash
  | escaped =>
    constructor
    · rintro ⟨_, _, h, hs⟩
      cases h; exact hs
    · intro hs
      exact ⟨c, s, rfl, hs⟩

theorem behind_eq_outside_iff {s : List Char} : zone.behind s = .outside ↔ Completes zone s := by
  induction s generalizing zone with
  | nil => exact completes_nil.symm
  | cons c s ih => exact ih.trans (completes_cons c s).symm

theorem behind_append (s rest : List Char) : zone.behind (s ++ rest) = (zone.behind s).behind rest :=
  List.foldl_append

/-! ## Cuts -/

theorem splitFrom_ne_nil (separator : Char) (zone : Zone) (s : List Char) :
    splitFrom separator zone s ≠ [] := by
  cases s with
  | nil => exact List.cons_ne_nil _ _
  | cons c s =>
    rw [splitFrom]
    split
    · exact List.cons_ne_nil _ _
    · split <;> exact List.cons_ne_nil _ _

theorem split_ne_nil (s : List Char) : split separator s ≠ [] :=
  splitFrom_ne_nil separator .outside s

/-- A text is cut nowhere, or first at some separator outside quotes. -/
theorem splitFrom_cases (separator : Char) (zone : Zone) (s : List Char) :
    splitFrom separator zone s = [s] ∨ ∃ part rest, s = part ++ separator :: rest ∧
      zone.behind part = .outside ∧ separator ≠ '"' ∧
      splitFrom separator zone s = part :: split separator rest := by
  induction s generalizing zone with
  | nil => exact .inl rfl
  | cons c s ih =>
    rw [splitFrom]
    split_ifs with hcut
    · obtain ⟨hzone, hquote, rfl⟩ := hcut
      exact .inr ⟨[], s, rfl, hzone, hquote, rfl⟩
    · rcases ih (zone.after c) with huncut | ⟨part, rest, rfl, hpart, hquote, hsplit⟩
      · left; rw [huncut]
      · right; exact ⟨c :: part, rest, rfl, hpart, hquote, by rw [hsplit]⟩

/-- Induction along the cuts of a text. -/
@[elab_as_elim]
theorem split_induct (separator : Char) {motive : List Char → Prop}
    (uncut : ∀ s, split separator s = [s] → motive s)
    (cut : ∀ part rest, Zone.outside.behind part = .outside → separator ≠ '"' →
      split separator (part ++ separator :: rest) = part :: split separator rest →
      motive rest → motive (part ++ separator :: rest)) (s : List Char) : motive s := by
  induction hn : s.length using Nat.strongRecOn generalizing s with
  | ind n ih =>
    rcases splitFrom_cases separator .outside s with huncut | ⟨part, rest, rfl, hpart, hquote, hsplit⟩
    · exact uncut s huncut
    · refine cut part rest hpart hquote hsplit (ih rest.length ?_ rest rfl)
      rw [← hn, List.length_append, List.length_cons]; omega

/-- Behind a text that ends outside quotes a separator is a cut. -/
theorem splitFrom_append_separator {before : List Char} (behind : List Char)
    (hseparator : separator ≠ '"') (h : zone.behind before = .outside) :
    splitFrom separator zone (before ++ separator :: behind) =
      splitFrom separator zone before ++ split separator behind := by
  induction before generalizing zone with
  | nil =>
    cases h
    exact splitFrom_separator hseparator behind
  | cons c before ih =>
    rw [List.cons_append, splitFrom, splitFrom]
    split_ifs with hcut
    · obtain ⟨rfl, hquote, rfl⟩ := hcut
      have hrest : (Zone.after .outside c).behind before = .outside := h
      rw [show Zone.after .outside c = .outside from if_neg hquote] at hrest
      rw [ih hrest, List.cons_append]
    · rw [ih h]
      obtain ⟨part, parts, hparts⟩ :=
        List.exists_cons_of_ne_nil (splitFrom_ne_nil separator (zone.after c) before)
      rw [hparts]; rfl

/-- The parts joined by the separator are the text. -/
theorem intercalate_split (s : List Char) : [separator].intercalate (split separator s) = s := by
  induction s using split_induct separator with
  | uncut s h => rw [h, List.intercalate_singleton]
  | cut part rest _ _ hsplit ih =>
    rw [hsplit, List.intercalate_cons_of_ne_nil (split_ne_nil rest), ih, List.append_assoc]; rfl

/-- A text is cut at a place: some of its parts make up what stands before the place, and the others
what stands behind it. -/
def IsCut (separator : Char) (parts : List (List Char)) (before behind : List Char) : Prop :=
  ∃ front back, front ≠ [] ∧ back ≠ [] ∧ parts = front ++ back ∧
    [separator].intercalate front = before ∧ [separator].intercalate back = behind

theorem behind_of_isCut {s before behind : List Char}
    (h : IsCut separator (split separator s) before behind) :
    s = before ++ separator :: behind ∧ Zone.outside.behind before = .outside := by
  induction s using split_induct separator generalizing before with
  | uncut s hs =>
    obtain ⟨front, back, hfront, hback, hparts, -, -⟩ := h
    rw [hs] at hparts
    have hlength := congrArg List.length hparts
    have := List.length_pos_of_ne_nil hfront
    have := List.length_pos_of_ne_nil hback
    rw [List.length_append, List.length_singleton] at hlength; omega
  | cut part rest hpart hquote hsplit ih =>
    obtain ⟨front, back, hfront, hback, hparts, rfl, rfl⟩ := h
    rw [hsplit] at hparts
    obtain ⟨first, front, rfl⟩ := List.exists_cons_of_ne_nil hfront
    obtain ⟨rfl, hrest : split separator rest = front ++ back⟩ := List.cons.inj hparts
    by_cases hnil : front = []
    · subst hnil
      rw [List.nil_append] at hrest
      rw [← hrest, intercalate_split, List.intercalate_singleton]
      exact ⟨rfl, hpart⟩
    · obtain ⟨hjoined, hzone⟩ := ih ⟨front, back, hnil, hback, hrest, rfl, rfl⟩
      have hafter : Zone.outside.behind [separator] = .outside := if_neg hquote
      rw [List.intercalate_cons_of_ne_nil hnil, behind_append, behind_append, hpart, hafter]
      refine ⟨?_, hzone⟩
      rw [List.append_assoc, List.append_assoc, List.singleton_append, ← hjoined]

/-- The cuts of a text are its separators outside double quotes. -/
theorem isCut_split_iff (hseparator : separator ≠ '"') {s before behind : List Char} :
    IsCut separator (split separator s) before behind ↔
      s = before ++ separator :: behind ∧ Closed before := by
  constructor
  · intro h
    obtain ⟨hs, hzone⟩ := behind_of_isCut h
    exact ⟨hs, behind_eq_outside_iff.1 hzone⟩
  · rintro ⟨rfl, hclosed⟩
    have hzone : Zone.outside.behind before = .outside := behind_eq_outside_iff.2 hclosed
    exact ⟨_, _, split_ne_nil before, split_ne_nil behind,
      splitFrom_append_separator behind hseparator hzone, intercalate_split before,
      intercalate_split behind⟩

/-! ## Byte positions -/

/-- The byte positions at which the parts begin and end; the part under way began at `start`, and the
scanner has come to `index`. -/
def rangesFrom (separator : Char) : Zone → Nat → Nat → List Char → List (Nat × Nat)
  | _, start, index, [] => [(start, index)]
  | zone, start, index, c :: rest =>
    let next := index + c.utf8Size
    if zone = .outside ∧ c ≠ '"' ∧ c = separator then
      (start, index) :: rangesFrom separator .outside next next rest
    else rangesFrom separator (zone.after c) start next rest

/-- The parts of a text as slices of its bytes, if every slice begins and ends between characters. -/
def slices? (separator : Char) (s : String) : Option (List String) :=
  (rangesFrom separator .outside 0 0 s.toList).mapM fun range => slice? s range.1 range.2

/-- What the scanner has behind it are the parts that are done and the one under way; the rest is
sliced as it is split. -/
theorem mapM_rangesFrom (separator : Char) (zone : Zone) (done part : String) (rest : List Char) :
    ∃ first others, splitFrom separator zone rest = first :: others ∧
      (rangesFrom separator zone done.utf8ByteSize (done ++ part).utf8ByteSize rest).mapM
        (fun range => slice? (done ++ part ++ String.ofList rest) range.1 range.2) =
          some ((part ++ String.ofList first) :: others.map String.ofList) := by
  have hslice (rest : List Char) (done part : String) :
      slice? (done ++ part ++ String.ofList rest) done.utf8ByteSize (done ++ part).utf8ByteSize =
        some part :=
    slice?_eq_some_iff.2 ⟨done, String.ofList rest, rfl, rfl, rfl⟩
  induction rest generalizing zone done part with
  | nil =>
    refine ⟨[], [], rfl, ?_⟩
    rw [rangesFrom, List.mapM_cons, hslice]
    simp
  | cons c rest ih =>
    have hnext : (done ++ part).utf8ByteSize + c.utf8Size =
        (done ++ part ++ String.singleton c).utf8ByteSize := by simp
    have hwhole : done ++ part ++ String.ofList (c :: rest) =
        done ++ part ++ String.singleton c ++ String.ofList rest := by
      rw [String.ofList_cons, ← String.append_assoc]
    rw [rangesFrom, splitFrom, hnext]
    split_ifs with hcut
    · -- the next part begins behind the separator
      obtain ⟨first, others, hsplit, hrest⟩ := ih .outside (done ++ part ++ String.singleton c) ""
      rw [String.append_empty, ← hwhole] at hrest
      refine ⟨[], first :: others, by rw [hsplit], ?_⟩
      rw [List.mapM_cons, hslice, hrest]
      simp
    · obtain ⟨first, others, hsplit, hrest⟩ := ih (zone.after c) done (part ++ String.singleton c)
      rw [← String.append_assoc, ← hwhole] at hrest
      refine ⟨c :: first, others, by rw [hsplit], ?_⟩
      rw [hrest, String.ofList_cons, String.append_assoc]

/-- Every part is a slice between characters, and the slices are the parts. -/
theorem slices?_eq (separator : Char) (s : String) :
    slices? separator s = some ((split separator s.toList).map String.ofList) := by
  obtain ⟨first, others, hsplit, hslices⟩ := mapM_rangesFrom separator .outside "" "" s.toList
  rw [String.empty_append, String.empty_append, String.empty_append, String.ofList_toList,
    String.utf8ByteSize_empty] at hslices
  unfold slices? split
  rw [hslices, hsplit, List.map_cons]

/-! ## The whole splitting -/

/-- A text is cut exactly at its separators outside double quotes, its parts are slices between
characters, and joined by the separator they are the text; a quoted value is never cut, and it is
read back. -/
theorem split_outside_quotes (hseparator : separator ≠ '"') (s : String) :
    [separator].intercalate (split separator s.toList) = s.toList ∧
    (∀ before behind, IsCut separator (split separator s.toList) before behind ↔
      s.toList = before ++ separator :: behind ∧ Closed before) ∧
    slices? separator s = some ((split separator s.toList).map String.ofList) ∧
    ∀ value, split separator (quote value) = [quote value] ∧ unquote (quote value) = value :=
  ⟨intercalate_split s.toList, fun _ _ => isCut_split_iff hseparator, slices?_eq separator s,
    fun value => ⟨split_uncut (behind?_quote value), unquote_quote value⟩⟩

/-- Quotes that are never closed, a backslash at the end, and characters of several bytes. -/
theorem split_outside_quotes_unterminated :
    ';' ≠ '"' ∧ split ';' "é;\"ü;\\\";\";b\\;\"€;\\".toList =
        ["é", "\"ü;\\\";\"", "b\\", "\"€;\\"].map String.toList ∧
      slices? ';' "é;\"ü;\\\";\";b\\;\"€;\\" =
        some ["é", "\"ü;\\\";\"", "b\\", "\"€;\\"] := by
  have hsplit : split ';' "é;\"ü;\\\";\";b\\;\"€;\\".toList =
      ["é", "\"ü;\\\";\"", "b\\", "\"€;\\"].map String.toList := by decide +kernel
  have hseparator : ';' ≠ '"' := by decide
  obtain ⟨-, -, hslices, -⟩ := split_outside_quotes hseparator "é;\"ü;\\\";\";b\\;\"€;\\"
  refine ⟨hseparator, hsplit, ?_⟩
  rw [hslices, hsplit]
  decide +kernel

end PolicyClient.Text.Quoted
