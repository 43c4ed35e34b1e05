/-
Texts cut outside quotes, and quoted values. A text in which no separator stands outside quotes is
one part (`split_uncut`), and one that also ends outside quotes is a part of its own in front of a
separator (`split_uncut_append`); so a text of such parts is cut into them again (`split_parts`). A
quoted value is such a text whatever the value, and it is read back by `unquote`.
-/
import PolicyClient.Text.Quoted
import Mathlib.Data.List.Basic

namespace PolicyClient.Text.Quoted

variable {separator : Char} {zone : Zone}

/-! ## Parts -/

/-- The zone behind a text, if no separator in the text stands outside quotes. -/
def behind? (separator : Char) : Zone → List Char → Option Zone
  | zone, [] => some zone
  | zone, c :: rest =>
    if zone = .outside ∧ c ≠ '"' ∧ c = separator then none else behind? separator (zone.after c) rest

theorem behind?_append (s rest : List Char) :
    behind? separator zone (s ++ rest) =
      (behind? separator zone s).bind fun zone' => behind? separator zone' rest := by
  induction s generalizing zone with
  | nil => rfl
  | cons c s ih =>
    rw [List.cons_append, behind?, behind?]
    split_ifs
    · rfl
    · exact ih

/-- What is not cut stays in front of the first part of what follows it. -/
theorem splitFrom_append {zone' : Zone} {s rest part : List Char} {parts : List (List Char)}
    (hs : behind? separator zone s = some zone')
    (hrest : splitFrom separator zone' rest = part :: parts) :
    splitFrom separator zone (s ++ rest) = (s ++ part) :: parts := by
  induction s generalizing zone with
  | nil => cases hs; exact hrest
  | cons c s ih =>
    rw [behind?] at hs
    split_ifs at hs with hcut
    rw [List.cons_append, splitFrom, if_neg hcut, ih hs, List.cons_append]

theorem split_uncut {zone' : Zone} {s : List Char}
    (hs : behind? separator .outside s = some zone') : split separator s = [s] := by
  have hnil : splitFrom separator zone' [] = [[]] := rfl
  have hall := splitFrom_append hs hnil
  rwa [List.append_nil] at hall

theorem splitFrom_separator (hseparator : separator ≠ '"') (rest : List Char) :
    splitFrom separator .outside (separator :: rest) = [] :: split separator rest := by
  rw [splitFrom, if_pos ⟨rfl, hseparator, rfl⟩]; rfl

theorem split_uncut_append {s : List Char} (hs : behind? separator .outside s = some .outside)
    (hseparator : separator ≠ '"') (rest : List Char) :
    split separator (s ++ separator :: rest) = s :: split separator rest := by
  unfold split
  rw [splitFrom_append hs (splitFrom_separator hseparator rest), List.append_nil]; rfl

/-- Parts that are not cut and end outside quotes are found again. -/
theorem split_parts {part : List Char} {parts : List (List Char)} (hseparator : separator ≠ '"')
    (h : ∀ p ∈ part :: parts, behind? separator .outside p = some .outside) :
    split separator (part ++ parts.flatMap (separator :: ·)) = part :: parts := by
  induction parts generalizing part with
  | nil =>
    rw [List.flatMap_nil, List.append_nil]
    exact split_uncut (h part List.mem_cons_self)
  | cons next parts ih =>
    obtain ⟨hpart, hparts⟩ := List.forall_mem_cons.1 h
    rw [List.flatMap_cons, List.cons_append, split_uncut_append hpart hseparator, ih hparts]

/-- A text without quotes and separators is not cut. -/
theorem behind?_of_plain {s : List Char} (h : ∀ c ∈ s, c ≠ '"' ∧ c ≠ separator) :
    behind? separator .outside s = some .outside := by
  induction s with
  | nil => rfl
  | cons c s ih =>
    obtain ⟨⟨hquote, hseparator⟩, hs⟩ := List.forall_mem_cons.1 h
    rw [behind?, if_neg fun hcut => hseparator hcut.2.2, Zone.after, if_neg hquote]
    exact ih hs

/-! ## Quoted values -/

theorem escape_cons (c : Char) (s : List Char) :
    escape (c :: s) = (if c = '"' ∨ c = '\\' then ['\\', c] else [c]) ++ escape s :=
  List.flatMap_cons

/-- An escaped value ends where it began, inside the quotes. -/
theorem behind?_escape (s : List Char) : behind? separator .inside (escape s) = some .inside := by
  induction s with
  | nil => rfl
  | cons c s ih =>
    rw [escape_cons]
    split_ifs with hmark
    · exact ih
    · obtain ⟨hquote, hslash⟩ := not_or.1 hmark
      rw [List.singleton_append, behind?, if_neg (by simp), Zone.after, if_neg hslash, if_neg hquote]
      exact ih

/-- A quoted value is not cut. -/
theorem behind?_quote (s : List Char) : behind? separator .outside (quote s) = some .outside := by
  unfold quote
  rw [List.cons_append, behind?, if_neg (by simp), behind?_append,
    show Zone.after .outside '"' = .inside from rfl, behind?_escape]
  rfl

theorem unescape_escape (s : List Char) : unescape (escape s) = s := by
  induction s with
  | nil => rfl
  | cons c s ih =>
    rw [escape_cons]
    split_ifs with hmark
    · rw [List.cons_append, List.singleton_append, unescape.eq_3, ih]
    · have hslash : c ≠ '\\' := (not_or.1 hmark).2
      rw [List.singleton_append, unescape.eq_4 _ _ (fun h _ => hslash h) (fun _ _ h _ => hslash h), ih]

theorem unquote_quote (s : List Char) : unquote (quote s) = s := by
  show (if (escape s ++ ['"']).getLast? = some '"' then unescape (escape s ++ ['"']).dropLast else _) = s
  rw [if_pos List.getLast?_concat, List.dropLast_concat, unescape_escape]

/-- A value that does not begin with a quote is taken as it stands. -/
theorem unquote_of_head {s : List Char} (h : ∀ c ∈ s.head?, c ≠ '"') : unquote s = s := by
  cases s with
  | nil => rfl
  | cons c s => rw [unquote.eq_2]; exact fun rest e => h c rfl (List.cons.inj e).1

end PolicyClient.Text.Quoted
