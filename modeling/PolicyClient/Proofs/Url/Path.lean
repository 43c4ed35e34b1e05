/-
Paths are read segment by segment. Segments that are no dot segments are added as they are, encoded
(`addSegments_of_ordinary`); dot segments make a path shorter than it is written
(`length_addSegments`), and lead out of the directory that they start in only if they go up more
often than down (`addSegments_of_staysInside`). The segments that reading leaves are read as they
are.
-/
import PolicyClient.Url.Basic
import PolicyClient.Proofs.Text.Blank
import PolicyClient.Proofs.Text.Letter
import PolicyClient.Proofs.Url.Address
import PolicyClient.Proofs.Url.Percent

namespace PolicyClient.Url

/-! ## The text of a path -/

/-- Segments, each behind its slash. -/
def pathChars (path : List String) : List Char :=
  path.flatMap fun segment => '/' :: segment.toList

/-- Backslashes are slashes in a path. -/
def slashed (s : List Char) : List Char :=
  s.map fun c => if c = '\\' then '/' else c

theorem ne_of_mem_slashed (s : List Char) : ∀ c ∈ slashed s, c ≠ '\\' := by
  intro c hc
  obtain ⟨a, -, rfl⟩ := List.mem_map.1 hc
  split_ifs with ha
  · decide
  · exact ha

theorem slashed_of_not_mem {s : List Char} (h : '\\' ∉ s) : slashed s = s :=
  (List.map_congr_left fun c hc => if_neg fun heq : c = '\\' => h (heq ▸ hc)).trans
    (List.map_id _)

theorem toList_pathText (u : Url) : u.pathText.toList = pathChars u.path := by
  unfold pathText pathChars
  rw [String.toList_join, List.flatMap_map]
  simp

theorem pathChars_cons (segment : String) (path : List String) :
    pathChars (segment :: path) = '/' :: (segment.toList ++ pathChars path) := rfl

theorem pathChars_append (path behind : List String) :
    pathChars (path ++ behind) = pathChars path ++ pathChars behind := List.flatMap_append

theorem mem_pathChars {path : List String} {c : Char} :
    c ∈ pathChars path → c = '/' ∨ ∃ segment ∈ path, c ∈ segment.toList := by
  unfold pathChars
  rw [List.mem_flatMap]
  rintro ⟨segment, hsegment, hc⟩
  rcases List.mem_cons.1 hc with rfl | hc
  · exact .inl rfl
  · exact .inr ⟨segment, hsegment, hc⟩

theorem splitAt_ne_nil (separator : Char) (s : List Char) : splitAt separator s ≠ [] := by
  obtain ⟨part, parts, hsplit, -, -⟩ := exists_splitAt separator s
  rw [hsplit]
  exact List.cons_ne_nil part parts

/-- A slash behind a path begins another segment. -/
theorem splitAt_pathChars {path : List String} (h : ∀ segment ∈ path, '/' ∉ segment.toList)
    (s : List Char) : splitAt '/' (pathChars path ++ '/' :: s) =
      [] :: (path.map String.toList ++ splitAt '/' s) := by
  induction path with
  | nil => rw [pathChars, List.flatMap_nil, List.nil_append, splitAt, if_pos rfl]; rfl
  | cons segment path ih =>
    obtain ⟨hsegment, hpath⟩ := List.forall_mem_cons.1 h
    obtain ⟨tail, htail⟩ : ∃ tail, pathChars path ++ '/' :: s = '/' :: tail := by
      cases path <;> exact ⟨_, rfl⟩
    have hrest : splitAt '/' tail = path.map String.toList ++ splitAt '/' s := by
      have := ih hpath
      rw [htail, splitAt, if_pos rfl] at this
      exact (List.cons.inj this).2
    rw [pathChars_cons, List.cons_append, splitAt, if_pos rfl, List.append_assoc, htail,
      splitAt_append hsegment, hrest]
    rfl

/-! ### Backslashes -/

theorem length_encode_slashed (s : List Char) :
    (encode inPathSet (slashed s)).length = (encode inPathSet s).length := by
  induction s with
  | nil => rfl
  | cons c s ih =>
    have hc : (encode inPathSet [if c = '\\' then '/' else c]).length =
        (encode inPathSet [c]).length := by
      split_ifs with hc
      · rw [hc]
        rfl
      · rfl
    have hcons : slashed (c :: s) = [if c = '\\' then '/' else c] ++ slashed s := rfl
    rw [hcons, encode_append, List.length_append, hc, ih, ← List.length_append, ← encode_append]
    rfl

/-- A backslash shows in the text, since it is not encoded. -/
theorem not_mem_of_encode_slashed {s : List Char}
    (h : encode inPathSet (slashed s) = encode inPathSet s) : '\\' ∉ s := by
  intro hmem
  have hencode : '\\' ∈ encode inPathSet (slashed s) := by
    rw [h]
    exact mem_encode_of_mem hmem (by decide)
  have hdigit : ∀ n < 16, '\\' ≠ upperHex n := by decide
  rcases mem_of_mem_encode hencode with hc | hc | ⟨n, hn, hc⟩
  · exact ne_of_mem_slashed s _ hc rfl
  · cases hc
  · exact hdigit n hn hc

/-! ## Dot segments -/

/-- Whether a segment stands for its own directory or the one above. -/
def isDotSegment (s : List Char) : Bool :=
  isDoubleDot s || isSingleDot s

/-- The ways to write a point in a dot segment. -/
def points : List (List Char) :=
  [['.'], ['%', '2', 'e'], ['%', '2', 'E']]

theorem mem_points_of_isDot {s : List Char} (h : isDot s = true) : s ∈ points := by
  have hsame : ∀ {c d : Char}, c.toLower = d → ¬ (97 ≤ d.toNat ∧ d.toNat ≤ 122) → c = d := by
    intro c d hlower hd
    rcases Text.eq_or_of_toLower hlower with h | ⟨hlow, hhigh, -⟩
    · exact h
    · exact absurd ⟨hlow, hhigh⟩ hd
  unfold isDot at h
  rcases Bool.or_eq_true_iff.1 h with h | h
  · rw [beq_iff_eq.1 h]
    exact List.mem_cons_self
  · have hlower : s.map Char.toLower = ['%', '2', 'e'] := beq_iff_eq.1 h
    obtain ⟨a, s, rfl, ha, hlower⟩ := List.map_eq_cons_iff.1 hlower
    obtain ⟨b, s, rfl, hb, hlower⟩ := List.map_eq_cons_iff.1 hlower
    obtain ⟨c, s, rfl, hc, hlower⟩ := List.map_eq_cons_iff.1 hlower
    rw [hsame ha (by decide), hsame hb (by decide), List.map_eq_nil_iff.1 hlower]
    rcases Text.eq_or_of_toLower hc with rfl | ⟨-, -, rfl⟩ <;> decide

theorem points_of_isDotSegment {s : List Char} (h : isDotSegment s = true) :
    s ∈ points ∨ ∃ a ∈ points, ∃ b ∈ points, s = a ++ b := by
  rcases Bool.or_eq_true_iff.1 h with h | h
  · rcases Bool.or_eq_true_iff.1 h with h | h <;>
      obtain ⟨hfront, hback⟩ := Bool.and_eq_true_iff.1 h <;>
      exact .inr ⟨_, mem_points_of_isDot hfront, _, mem_points_of_isDot hback,
        (List.take_append_drop _ _).symm⟩
  · exact .inl (mem_points_of_isDot h)

theorem ne_nil_of_isDotSegment {s : List Char} (h : isDotSegment s = true) : s ≠ [] := by
  rintro rfl
  cases h

/-- A dot segment has a point in it, or a `%`. -/
theorem mem_of_isDotSegment {s : List Char} (h : isDotSegment s = true) : '.' ∈ s ∨ '%' ∈ s := by
  have hpoint : ∀ p ∈ points, '.' ∈ p ∨ '%' ∈ p := by decide
  rcases points_of_isDotSegment h with h | ⟨a, ha, b, -, rfl⟩
  · exact hpoint s h
  · exact (hpoint a ha).imp (List.mem_append_left b) (List.mem_append_left b)

/-- In a dot segment, every `%` begins an encoded point. -/
theorem encoded_of_isDotSegment {s rest : List Char} {a b : Char} (h : isDotSegment s = true)
    (hsuffix : ('%' :: a :: b :: rest) <:+ s) : a = '2' ∧ (b = 'e' ∨ b = 'E') := by
  have hpoint : ∀ p ∈ points, ∀ q ∈ [] :: points, ∀ t ∈ (p ++ q).tails, t[0]? = some '%' →
      t[1]? = some '2' ∧ (t[2]? = some 'e' ∨ t[2]? = some 'E') := by decide
  have hs : ∃ p ∈ points, ∃ q ∈ [] :: points, s = p ++ q := by
    rcases points_of_isDotSegment h with h | ⟨p, hp, q, hq, rfl⟩
    · exact ⟨s, h, [], List.mem_cons_self, (List.append_nil s).symm⟩
    · exact ⟨p, hp, q, List.mem_cons_of_mem [] hq, rfl⟩
  obtain ⟨p, hp, q, hq, rfl⟩ := hs
  simpa using hpoint p hp q hq _ ((List.mem_tails _ _).2 hsuffix) rfl

/-- Encoding makes no dot segment of another one: a point is not encoded. -/
theorem isDotSegment_encode {s : List Char} (h : isDotSegment s = false) :
    isDotSegment (encode inPathSet s) = false := by
  rw [← Bool.not_eq_true]
  intro hdot
  -- the first `%` that encoding writes would have to begin an encoded point
  have hplain : ∀ c ∈ s, inPathSet c = false := by
    intro c hc
    rw [← Bool.not_eq_true]
    intro hset
    obtain ⟨b, hb, rest, hsuffix⟩ := exists_percent_of_inSet hc hset
    obtain ⟨hhigh, hlow⟩ := encoded_of_isDotSegment hdot hsuffix
    have hdigits : ∀ n < 16, (upperHex n = '2' → n = 2) ∧
        (upperHex n = 'e' ∨ upperHex n = 'E' → n = 14) := by decide
    have hlt := b.toNat_lt
    have hbyte : b.toNat = 46 := by
      have h2 := (hdigits _ (by omega)).1 hhigh
      have h14 := (hdigits _ (by omega)).2 hlow
      omega
    have hpoint : c = '.' := by
      rcases Utf8.eq_or_le_of_mem_utf8EncodeChar hb with heq | hle
      · exact Char.toNat_inj.1 (heq.symm.trans hbyte)
      · omega
    rw [hpoint] at hset
    exact absurd hset (by decide)
  rw [encode_of_forall hplain, h] at hdot
  cases hdot

/-! ## Adding segments -/

/-- Segments as they are written in a path. -/
def written (segments : List (List Char)) : List String :=
  segments.map fun s => String.ofList (encode inPathSet s)

/-- The path behind a path and one more segment, with more to follow. -/
def enter (path : List String) (s : List Char) : List String :=
  if isDoubleDot s then goUp path else if isSingleDot s then path else path ++ written [s]

/-- All segments but the last are entered; a dot segment at the end leaves an empty one. -/
theorem addSegments_concat (path : List String) (segments : List (List Char)) (last : List Char) :
    addSegments path (segments ++ [last]) =
      (if isDoubleDot last then goUp (segments.foldl enter path) else segments.foldl enter path) ++
        [if isDotSegment last then "" else String.ofList (encode inPathSet last)] := by
  induction segments generalizing path with
  | nil =>
    rw [List.nil_append, addSegments, List.foldl_nil, isDotSegment]
    cases isDoubleDot last <;> cases isSingleDot last <;> rfl
  | cons s segments ih =>
    have hne : segments ++ [last] ≠ [] := List.append_ne_nil_of_right_ne_nil _ (List.cons_ne_nil _ _)
    have hstep : addSegments path (s :: (segments ++ [last])) =
        addSegments (enter path s) (segments ++ [last]) := by
      obtain ⟨next, rest, hnext⟩ := List.exists_cons_of_ne_nil hne
      rw [hnext, addSegments, enter]
      · split_ifs <;> rfl
      · exact nofun
    rw [List.cons_append, hstep, ih, List.foldl_cons]

/-! ### Segments that are no dot segments -/

theorem enter_ordinary {s : List Char} (h : isDotSegment s = false) (path : List String) :
    enter path s = path ++ written [s] := by
  obtain ⟨hdouble, hsingle⟩ := Bool.or_eq_false_iff.1 h
  rw [enter, hdouble, hsingle]
  rfl

theorem foldl_enter_ordinary {segments : List (List Char)}
    (h : ∀ s ∈ segments, isDotSegment s = false) (path : List String) :
    segments.foldl enter path = path ++ written segments := by
  induction segments generalizing path with
  | nil => exact (List.append_nil path).symm
  | cons s segments ih =>
    obtain ⟨hs, hsegments⟩ := List.forall_mem_cons.1 h
    rw [List.foldl_cons, enter_ordinary hs, ih hsegments, List.append_assoc]
    rfl

/-- Segments that are no dot segments come behind the path as they are. -/
theorem addSegments_of_ordinary {segments : List (List Char)}
    (h : ∀ s ∈ segments, isDotSegment s = false) (path : List String) {rest : List (List Char)}
    (hrest : rest ≠ []) :
    addSegments path (segments ++ rest) = addSegments (path ++ written segments) rest := by
  rw [← List.dropLast_append_getLast hrest, ← List.append_assoc, addSegments_concat,
    addSegments_concat, List.foldl_append, foldl_enter_ordinary h]

theorem addSegments_eq_append {segments : List (List Char)}
    (h : ∀ s ∈ segments, isDotSegment s = false) (path : List String) :
    addSegments path segments = path ++ written segments := by
  rcases List.eq_nil_or_concat segments with rfl | ⟨front, last, rfl⟩
  · exact (List.append_nil path).symm
  · rw [List.concat_eq_append] at h ⊢
    have hlast := h last (by simp)
    rw [addSegments_concat, foldl_enter_ordinary (fun s hs => h s (by simp [hs])), hlast,
      (Bool.or_eq_false_iff.1 hlast).1]
    simp [written]

/-! ### The length of a path -/

theorem length_written_concat (path : List String) (s : List Char) :
    (pathChars (path ++ written [s])).length =
      (pathChars path).length + (encode inPathSet s).length + 1 := by
  simp [pathChars, written, Nat.add_assoc]

theorem length_goUp (path : List String) :
    (pathChars (goUp path)).length ≤ (pathChars path).length := by
  have hdrop : (pathChars path.dropLast).length ≤ (pathChars path).length :=
    ((List.dropLast_sublist path).flatMap _).length_le
  unfold goUp
  split
  · split_ifs
    · exact Nat.le_refl _
    · exact hdrop
  · exact Nat.le_refl _

theorem length_encode_of_isDotSegment {s : List Char} (h : isDotSegment s = true) :
    0 < (encode inPathSet s).length :=
  List.length_pos_iff.2 (encode_ne_nil (ne_nil_of_isDotSegment h))

theorem length_enter (path : List String) (s : List Char) :
    (pathChars (enter path s)).length + (if isDotSegment s then 2 else 0) ≤
      (pathChars (path ++ written [s])).length := by
  by_cases hs : isDotSegment s = true
  · have hpos := length_encode_of_isDotSegment hs
    have henter : (pathChars (enter path s)).length ≤ (pathChars path).length := by
      unfold enter
      split_ifs with hdouble hsingle
      · exact length_goUp path
      · exact Nat.le_refl _
      · simp [isDotSegment, hdouble, hsingle] at hs
    rw [if_pos hs, length_written_concat]
    omega
  · rw [if_neg hs, enter_ordinary (Bool.not_eq_true _ ▸ hs)]
    exact Nat.le_refl _

theorem length_foldl_enter (path : List String) (segments : List (List Char)) :
    (pathChars (segments.foldl enter path)).length + 2 * segments.countP isDotSegment ≤
      (pathChars (path ++ written segments)).length := by
  induction segments generalizing path with
  | nil => simp [written]
  | cons s segments ih =>
    have hwritten : ∀ path, (pathChars (path ++ written segments)).length =
        (pathChars path).length + (pathChars (written segments)).length := fun path => by
      rw [pathChars_append, List.length_append]
    have henter := length_enter path s
    have hrest := ih (enter path s)
    rw [hwritten] at hrest
    rw [List.foldl_cons, List.countP_cons, show written (s :: segments) =
      written [s] ++ written segments from rfl, ← List.append_assoc, hwritten]
    split_ifs at henter ⊢ <;> omega

/-- Each dot segment makes the path shorter than it is written. -/
theorem length_addSegments (path : List String) (segments : List (List Char)) :
    (pathChars (addSegments path segments)).length + segments.countP isDotSegment ≤
      (pathChars (path ++ written segments)).length := by
  rcases List.eq_nil_or_concat segments with rfl | ⟨front, last, rfl⟩
  · simp [addSegments, written]
  · have hfront := length_foldl_enter path front
    have hup := length_goUp (front.foldl enter path)
    have hwritten : written (front ++ [last]) = written front ++ written [last] := List.map_append
    rw [List.concat_eq_append, addSegments_concat, pathChars_append, List.length_append,
      List.countP_append, List.countP_singleton, hwritten, ← List.append_assoc,
      length_written_concat]
    by_cases hlast : isDotSegment last = true
    · have hpos := length_encode_of_isDotSegment hlast
      have hempty : (pathChars [""]).length = 1 := rfl
      rw [if_pos hlast, if_pos hlast, hempty]
      split_ifs <;> omega
    · have hdouble : ¬ isDoubleDot last = true := fun h => hlast (Bool.or_eq_true_iff.2 (.inl h))
      have hlength : (pathChars [String.ofList (encode inPathSet last)]).length =
          (encode inPathSet last).length + 1 := by simp [pathChars]
      rw [if_neg hlast, if_neg hlast, if_neg hdouble, hlength]
      omega

/-! ### Staying inside a directory -/

/-- How deep a segment leads from a depth. Nothing leads up from depth zero. -/
def depthAfter (depth : Nat) (s : List Char) : Option Nat :=
  if isDoubleDot s then
    match depth with
    | 0 => none
    | depth + 1 => some depth
  else if isSingleDot s then some depth
  else some (depth + 1)

/-- Whether segments never lead above the directory that they start in. -/
def staysInside (segments : List (List Char)) : Bool :=
  (segments.foldlM depthAfter 0).isSome

/-- Going up leaves no more than one segment. -/
theorem goUp_append (path : List String) {below : List String} (h : below ≠ []) :
    ∃ below', goUp (path ++ below) = path ++ below' ∧ below.length ≤ below'.length + 1 := by
  have hlast : (path ++ below).getLast? = some (below.getLast h) := by
    rw [List.getLast?_append_of_ne_nil _ h, List.getLast?_eq_some_getLast h]
  unfold goUp
  rw [hlast]
  dsimp only
  split_ifs
  · exact ⟨below, rfl, Nat.le_succ _⟩
  · refine ⟨below.dropLast, List.dropLast_append_of_ne_nil h, ?_⟩
    rw [List.length_dropLast]
    omega

/-- A segment that does not lead up from depth zero stays below the path. -/
theorem enter_of_depthAfter {depth depth' : Nat} {s : List Char}
    (h : depthAfter depth s = some depth') (path : List String) {below : List String}
    (hdepth : depth ≤ below.length) :
    ∃ below', enter (path ++ below) s = path ++ below' ∧ depth' ≤ below'.length := by
  unfold depthAfter at h
  unfold enter
  split_ifs at h ⊢ with hdouble hsingle
  · cases depth with
    | zero => cases h
    | succ depth =>
      cases h
      have hne : below ≠ [] := by
        rintro rfl
        exact Nat.not_succ_le_zero _ hdepth
      obtain ⟨below', hup, hlength⟩ := goUp_append path hne
      exact ⟨below', hup, by omega⟩
  · cases h
    exact ⟨below, rfl, hdepth⟩
  · cases h
    refine ⟨below ++ written [s], List.append_assoc .., ?_⟩
    rw [List.length_append]
    exact Nat.add_le_add hdepth (Nat.le_refl 1)

theorem foldl_enter_of_depthAfter {depth depth' : Nat} {segments : List (List Char)}
    (h : segments.foldlM depthAfter depth = some depth') (path : List String) {below : List String}
    (hdepth : depth ≤ below.length) :
    ∃ below', segments.foldl enter (path ++ below) = path ++ below' ∧ depth' ≤ below'.length := by
  -- the depth is at most the number of segments below the path
  induction segments generalizing depth below with
  | nil => cases h; exact ⟨below, rfl, hdepth⟩
  | cons s segments ih =>
    rw [List.foldlM_cons] at h
    obtain ⟨next, hnext, h⟩ := Option.bind_eq_some_iff.1 h
    obtain ⟨below', henter, hdepth'⟩ := enter_of_depthAfter hnext path hdepth
    rw [List.foldl_cons, henter]
    exact ih h hdepth'

/-- Segments that stay inside end below the path. -/
theorem addSegments_of_staysInside {segments : List (List Char)} (hne : segments ≠ [])
    (h : staysInside segments = true) (path : List String) :
    ∃ below, below ≠ [] ∧ addSegments path segments = path ++ below := by
  obtain ⟨front, last, rfl⟩ := (List.eq_nil_or_concat segments).resolve_left hne
  rw [List.concat_eq_append] at h ⊢
  unfold staysInside at h
  rw [List.foldlM_append] at h
  obtain ⟨depth', h⟩ := Option.isSome_iff_exists.1 h
  obtain ⟨depth, hfront, h⟩ := Option.bind_eq_some_iff.1 h
  rw [List.foldlM_cons] at h
  obtain ⟨next, hlast, -⟩ := Option.bind_eq_some_iff.1 h
  obtain ⟨below, hbelow, hdepth⟩ := foldl_enter_of_depthAfter hfront path (Nat.zero_le [].length)
  rw [List.append_nil] at hbelow
  -- the last segment may lead up as well, but only out of a segment below the path
  have hleft : ∃ below', (if isDoubleDot last then goUp (path ++ below) else path ++ below) =
      path ++ below' := by
    split_ifs with hdouble
    · have hne : below ≠ [] := by
        rintro rfl
        rw [Nat.le_zero.1 hdepth, depthAfter, if_pos hdouble] at hlast
        cases hlast
      obtain ⟨below', hup, -⟩ := goUp_append path hne
      exact ⟨below', hup⟩
    · exact ⟨below, rfl⟩
  obtain ⟨below', hleft⟩ := hleft
  rw [addSegments_concat, hbelow, hleft, List.append_assoc]
  exact ⟨_, List.append_ne_nil_of_right_ne_nil _ (List.cons_ne_nil _ _), rfl⟩

/-! ## Reading a path again -/

/-- A segment as reading leaves it. -/
structure SettledSegment (segment : String) : Prop where
  encoded : ∀ c ∈ segment.toList, inPathSet c = false
  plain : ∀ c ∈ segment.toList, c ≠ '/' ∧ c ≠ '\\'
  ordinary : isDotSegment segment.toList = false

theorem settledSegment_empty : SettledSegment "" :=
  ⟨by simp, by simp, by decide⟩

theorem settledSegment_encode {s : List Char} (hplain : ∀ c ∈ s, c ≠ '/' ∧ c ≠ '\\')
    (h : isDotSegment s = false) : SettledSegment (String.ofList (encode inPathSet s)) := by
  refine ⟨fun c hc => ?_, fun c hc => ?_, ?_⟩
  · rw [String.toList_ofList] at hc
    exact not_inSet_of_mem_encode escapable_inPathSet hc
  · have hdigit : ∀ n < 16, upperHex n ≠ '/' ∧ upperHex n ≠ '\\' := by decide
    rw [String.toList_ofList] at hc
    rcases mem_of_mem_encode hc with hc | rfl | ⟨n, hn, rfl⟩
    · exact hplain c hc
    · decide
    · exact hdigit n hn
  · rw [String.toList_ofList]
    exact isDotSegment_encode h

theorem settled_goUp {path : List String} (h : ∀ segment ∈ path, SettledSegment segment) :
    ∀ segment ∈ goUp path, SettledSegment segment := by
  unfold goUp
  split
  · split_ifs
    · exact h
    · exact fun segment hsegment => h segment (List.dropLast_subset path hsegment)
  · exact h

theorem settled_foldl_enter {segments : List (List Char)}
    (hplain : ∀ s ∈ segments, ∀ c ∈ s, c ≠ '/' ∧ c ≠ '\\') {path : List String}
    (h : ∀ segment ∈ path, SettledSegment segment) :
    ∀ segment ∈ segments.foldl enter path, SettledSegment segment := by
  induction segments generalizing path with
  | nil => exact h
  | cons s segments ih =>
    obtain ⟨hs, hsegments⟩ := List.forall_mem_cons.1 hplain
    refine ih hsegments ?_
    unfold enter
    split_ifs with hdouble hsingle
    · exact settled_goUp h
    · exact h
    · have hdot : isDotSegment s = false := by simp [isDotSegment, hdouble, hsingle]
      rw [List.forall_mem_append]
      exact ⟨h, by simpa [written] using settledSegment_encode hs hdot⟩

theorem parsePath_slash (s : List Char) :
    parsePath ('/' :: s) = addSegments [] (splitAt '/' (slashed s)) := rfl

theorem exists_parsePath (s : List Char) :
    ∃ t, (∀ c ∈ t, c ≠ '\\') ∧ parsePath s = addSegments [] (splitAt '/' t) := by
  have hslashed := ne_of_mem_slashed s
  have hfold : (s.map fun c => if c = '\\' then '/' else c) = slashed s := rfl
  unfold parsePath
  dsimp only
  rw [hfold]
  split
  · next rest hrest =>
    rw [hrest] at hslashed
    exact ⟨rest, fun c hc => hslashed c (List.mem_cons_of_mem _ hc), rfl⟩
  · exact ⟨slashed s, hslashed, rfl⟩

/-- A path that has been read has at least one segment, and all of them are settled. -/
theorem parsePath_settled (s : List Char) :
    parsePath s ≠ [] ∧ ∀ segment ∈ parsePath s, SettledSegment segment := by
  obtain ⟨t, ht, hpath⟩ := exists_parsePath s
  have hplain : ∀ p ∈ splitAt '/' t, ∀ c ∈ p, c ≠ '/' ∧ c ≠ '\\' := fun p hp c hc =>
    ⟨(mem_of_mem_splitAt hp hc).2, ht c (mem_of_mem_splitAt hp hc).1⟩
  obtain ⟨front, last, hconcat⟩ := (List.eq_nil_or_concat _).resolve_left (splitAt_ne_nil '/' t)
  rw [List.concat_eq_append] at hconcat
  rw [hconcat, List.forall_mem_append] at hplain
  have hfront : ∀ segment ∈ front.foldl enter [], SettledSegment segment :=
    settled_foldl_enter hplain.1 (by simp)
  rw [hpath, hconcat, addSegments_concat]
  refine ⟨List.append_ne_nil_of_right_ne_nil _ (List.cons_ne_nil _ _), ?_⟩
  rw [List.forall_mem_append]
  constructor
  · split_ifs
    · exact settled_goUp hfront
    · exact hfront
  · intro segment hsegment
    rw [List.mem_singleton.1 hsegment]
    split_ifs with hdot
    · exact settledSegment_empty
    · exact settledSegment_encode (hplain.2 last List.mem_cons_self) (Bool.not_eq_true _ ▸ hdot)

theorem written_settled {path : List String} (h : ∀ segment ∈ path, SettledSegment segment) :
    written (path.map String.toList) = path := by
  unfold written
  rw [List.map_map]
  refine (List.map_congr_left fun segment hsegment => ?_).trans (List.map_id _)
  show String.ofList (encode inPathSet segment.toList) = segment
  rw [encode_of_forall (h segment hsegment).encoded, String.ofList_toList]

theorem ordinary_of_settled {path : List String} (h : ∀ segment ∈ path, SettledSegment segment) :
    ∀ s ∈ path.map String.toList, isDotSegment s = false := by
  rw [List.forall_mem_map]
  exact fun segment hsegment => (h segment hsegment).ordinary

theorem slashed_pathChars {path : List String} (h : ∀ segment ∈ path, SettledSegment segment) :
    slashed (pathChars path) = pathChars path := by
  refine slashed_of_not_mem fun hc => ?_
  rcases mem_pathChars hc with hc | ⟨segment, hsegment, hc⟩
  · cases hc
  · exact ((h segment hsegment).plain _ hc).2 rfl

/-- Behind a settled path, the segments of a text are added to it. -/
theorem parsePath_append {path : List String} (h : ∀ segment ∈ path, SettledSegment segment)
    (s : List Char) : parsePath (pathChars path ++ '/' :: s) =
      addSegments path (splitAt '/' (slashed s)) := by
  obtain ⟨tail, htail⟩ : ∃ tail, pathChars path ++ '/' :: s = '/' :: tail := by
    cases path <;> exact ⟨_, rfl⟩
  have hslashed : pathChars path ++ '/' :: slashed s = '/' :: slashed tail := by
    have := congrArg slashed htail
    unfold slashed at this
    rw [List.map_append] at this
    rwa [← slashed_pathChars h]
  have hsplit : splitAt '/' (slashed tail) =
      path.map String.toList ++ splitAt '/' (slashed s) := by
    have := splitAt_pathChars (fun segment hsegment hmem =>
      ((h segment hsegment).plain _ hmem).1 rfl) (slashed s)
    rw [hslashed, splitAt, if_pos rfl] at this
    exact (List.cons.inj this).2
  rw [htail, parsePath_slash, hsplit, addSegments_of_ordinary (ordinary_of_settled h) _
    (splitAt_ne_nil '/' _), written_settled h, List.nil_append]

/-- A settled path is read from its text. -/
theorem parsePath_pathChars {path : List String} (hne : path ≠ [])
    (h : ∀ segment ∈ path, SettledSegment segment) : parsePath (pathChars path) = path := by
  obtain ⟨first, rest, rfl⟩ := List.exists_cons_of_ne_nil hne
  have hjoined : pathChars (first :: rest) =
      '/' :: joined '/' first.toList (rest.map String.toList) := by
    rw [pathChars_cons, joined, List.flatMap_map]
    rfl
  have hslashed : slashed (joined '/' first.toList (rest.map String.toList)) =
      joined '/' first.toList (rest.map String.toList) := by
    have := slashed_pathChars h
    rw [hjoined] at this
    exact (List.cons.inj this).2
  have hsplit : splitAt '/' (joined '/' first.toList (rest.map String.toList)) =
      (first :: rest).map String.toList := by
    refine splitAt_joined ?_
    rw [← List.map_cons, List.forall_mem_map]
    exact fun segment hsegment hmem => ((h segment hsegment).plain _ hmem).1 rfl
  rw [hjoined, parsePath_slash, hslashed, hsplit, addSegments_eq_append (ordinary_of_settled h),
    written_settled h, List.nil_append]

end PolicyClient.Url
