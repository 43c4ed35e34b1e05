/-
Addresses are read back from the text that they are written in: four numbers between points
(`ipv4?_ipv4Text`), and eight groups between colons with the longest run of zeros left out
(`ipv6?_ipv6Text`). A text of parts between separators is cut into these parts again, and every text
is one of parts (`exists_splitAt`).
-/
import PolicyClient.Url.Address
import PolicyClient.Proofs.Text.Digits

namespace PolicyClient.Url

open Text

/-! ## Parts between separators -/

/-- A part, and more parts behind a separator each. -/
def joined (separator : Char) (part : List Char) (parts : List (List Char)) : List Char :=
  part ++ parts.flatMap (separator :: ·)

theorem joined_cons (separator : Char) (part next : List Char) (parts : List (List Char)) :
    joined separator part (next :: parts) = part ++ separator :: joined separator next parts := by
  unfold joined
  rw [List.flatMap_cons, List.cons_append]

theorem intercalate_cons (separator : Char) (part : List Char) (parts : List (List Char)) :
    List.intercalate [separator] (part :: parts) = joined separator part parts := by
  induction parts generalizing part with
  | nil => simp [joined]
  | cons next parts ih =>
    rw [joined_cons, ← ih, List.intercalate_cons_cons]
    simp

section

variable {separator : Char}

theorem splitAt_of_not_mem {s : List Char} (h : separator ∉ s) : splitAt separator s = [s] := by
  induction s with
  | nil => rfl
  | cons c s ih =>
    have hc : c ≠ separator := fun hc => h (hc ▸ List.mem_cons_self)
    rw [splitAt, if_neg hc, ih fun hmem => h (List.mem_cons_of_mem c hmem)]

theorem splitAt_append {s : List Char} (h : separator ∉ s) (rest : List Char) :
    splitAt separator (s ++ separator :: rest) = s :: splitAt separator rest := by
  induction s with
  | nil => rw [List.nil_append, splitAt, if_pos rfl]
  | cons c s ih =>
    have hc : c ≠ separator := fun hc => h (hc ▸ List.mem_cons_self)
    rw [List.cons_append, splitAt, if_neg hc, ih fun hmem => h (List.mem_cons_of_mem c hmem)]

theorem splitAt_joined {part : List Char} {parts : List (List Char)}
    (h : ∀ p ∈ part :: parts, separator ∉ p) :
    splitAt separator (joined separator part parts) = part :: parts := by
  induction parts generalizing part with
  | nil =>
    rw [joined, List.flatMap_nil, List.append_nil]
    exact splitAt_of_not_mem (h part List.mem_cons_self)
  | cons next parts ih =>
    rw [joined_cons, splitAt_append (h part List.mem_cons_self),
      ih fun p hp => h p (List.mem_cons_of_mem part hp)]

/-- A text is its parts with the separators between them. -/
theorem exists_splitAt (separator : Char) (s : List Char) :
    ∃ part parts, splitAt separator s = part :: parts ∧ joined separator part parts = s ∧
      ∀ p ∈ part :: parts, separator ∉ p := by
  induction s with
  | nil => exact ⟨[], [], rfl, rfl, by simp⟩
  | cons c s ih =>
    obtain ⟨part, parts, hsplit, hjoined, hparts⟩ := ih
    rw [splitAt, hsplit]
    split_ifs with hc
    · refine ⟨[], part :: parts, rfl, ?_, List.forall_mem_cons.2 ⟨List.not_mem_nil, hparts⟩⟩
      rw [joined_cons, hjoined, hc]
      rfl
    · obtain ⟨hpart, hparts⟩ := List.forall_mem_cons.1 hparts
      refine ⟨c :: part, parts, rfl, congrArg (c :: ·) hjoined,
        List.forall_mem_cons.2 ⟨?_, hparts⟩⟩
      rw [List.mem_cons]
      rintro (h | h)
      · exact hc h.symm
      · exact hpart h

theorem mem_of_mem_splitAt {s part : List Char} {c : Char} (hpart : part ∈ splitAt separator s)
    (hc : c ∈ part) : c ∈ s ∧ c ≠ separator := by
  obtain ⟨first, parts, hsplit, hjoined, hparts⟩ := exists_splitAt separator s
  rw [hsplit] at hpart
  refine ⟨?_, fun h => hparts part hpart (h ▸ hc)⟩
  rw [← hjoined, joined, List.mem_append, List.mem_flatMap]
  rcases List.mem_cons.1 hpart with rfl | hpart
  · exact .inl hc
  · exact .inr ⟨part, hpart, List.mem_cons_of_mem separator hc⟩

end

/-! ## IPv4 -/

/-- The digits of a byte of an address. -/
def byteDigits (address i : Nat) : List Char :=
  Nat.toDigits 10 (address >>> (8 * i) % 256)

theorem toList_ipv4Text (address : Nat) : (ipv4Text address).toList =
    joined '.' (byteDigits address 3)
      [byteDigits address 2, byteDigits address 1, byteDigits address 0] := by
  simp [ipv4Text, joined, byteDigits]

theorem not_mem_toDigits {base n : Nat} {c : Char} (hone : 1 < base) (hbase : base ≤ 16)
    (hc : c = '.' ∨ c = ':' ∨ c = ']') : c ∉ Nat.toDigits base n := by
  intro h
  obtain ⟨d, hd, rfl⟩ := mem_toDigits hone h
  have hdigit : ∀ d < 16, Nat.digitChar d ≠ '.' ∧ Nat.digitChar d ≠ ':' ∧
      Nat.digitChar d ≠ ']' := by decide
  obtain ⟨hpoint, hcolon, hbracket⟩ := hdigit d (by omega)
  rcases hc with h | h | h
  · exact hpoint h
  · exact hcolon h
  · exact hbracket h

theorem splitAt_ipv4Text (address : Nat) : splitAt '.' (ipv4Text address).toList =
    [byteDigits address 3, byteDigits address 2, byteDigits address 1, byteDigits address 0] := by
  rw [toList_ipv4Text]
  refine splitAt_joined fun p hp => ?_
  simp only [List.mem_cons, List.not_mem_nil, or_false] at hp
  rcases hp with rfl | rfl | rfl | rfl <;> exact not_mem_toDigits (by decide) (by decide) (.inl rfl)

theorem ipv4Number?_toDigits (n : Nat) : ipv4Number? (Nat.toDigits 10 n) = some n := by
  have hread : natOfDigits? 10 (Nat.toDigits 10 n) = some n :=
    natOfDigits?_toDigits (by decide) (by decide) n
  unfold ipv4Number?
  split
  · next h => exact absurd h Nat.toDigits_ne_nil
  -- a leading zero stands alone, so no other base is meant
  · next h => cases tail_toDigits h
  · next h => cases tail_toDigits h
  · next h => cases tail_toDigits h
  · exact hread

/-- The bytes of four numbers that are joined. -/
theorem bytes_of_join {b3 b2 b1 b0 : Nat} (h3 : b3 < 256) (h2 : b2 < 256) (h1 : b1 < 256)
    (h0 : b0 < 256) :
    let n := ((256 * (256 * b3 + b2) + b1) <<< 8) + b0
    n >>> (8 * 3) % 256 = b3 ∧ n >>> (8 * 2) % 256 = b2 ∧ n >>> (8 * 1) % 256 = b1 ∧
      n >>> (8 * 0) % 256 = b0 := by
  simp only [Nat.shiftRight_eq_div_pow, Nat.shiftLeft_eq]
  omega

theorem joinIpv4?_bytes {b3 b2 b1 b0 : Nat} (h3 : b3 < 256) (h2 : b2 < 256) (h1 : b1 < 256)
    (h0 : b0 < 256) :
    joinIpv4? [b3, b2, b1, b0] = some (((256 * (256 * b3 + b2) + b1) <<< 8) + b0) := by
  have hfront : [b3, b2, b1].all (· ≤ 255) = true := by
    simp only [List.all_cons, List.all_nil, Bool.and_true, Bool.and_eq_true, decide_eq_true_eq]
    omega
  have hfold : [b3, b2, b1].foldl (fun n x => 256 * n + x) 0 = 256 * (256 * b3 + b2) + b1 := by
    simp
  show (if 4 ≤ 4 ∧ [b3, b2, b1].all (· ≤ 255) = true ∧ b0 < 1 <<< 8 then
    some ([b3, b2, b1].foldl (fun n x => 256 * n + x) 0 <<< 8 + b0) else none) = _
  rw [if_pos ⟨Nat.le_refl 4, hfront, h0⟩, hfold]

/-- The number that an IPv4 address is read as has the same text. -/
theorem ipv4?_ipv4Text (address : Nat) :
    ∃ same, ipv4? (ipv4Text address).toList = some same ∧ ipv4Text same = ipv4Text address := by
  have hnumber : ∀ i, ipv4Number? (byteDigits address i) = some (address >>> (8 * i) % 256) :=
    fun i => ipv4Number?_toDigits _
  have hlast : byteDigits address 0 ≠ [] := Nat.toDigits_ne_nil
  have hlt : ∀ i, address >>> (8 * i) % 256 < 256 := fun i => Nat.mod_lt _ (by decide)
  have hjoin := joinIpv4?_bytes (hlt 3) (hlt 2) (hlt 1) (hlt 0)
  obtain ⟨h3, h2, h1, h0⟩ := bytes_of_join (hlt 3) (hlt 2) (hlt 1) (hlt 0)
  have hread : ipv4? (ipv4Text address).toList = joinIpv4? [address >>> (8 * 3) % 256,
      address >>> (8 * 2) % 256, address >>> (8 * 1) % 256, address >>> (8 * 0) % 256] := by
    unfold ipv4?
    rw [splitAt_ipv4Text]
    simp only [List.getLast?_cons_cons, List.getLast?_singleton, Option.some.injEq, hlast, if_false,
      List.mapM_cons, List.mapM_nil, hnumber, Option.pure_def, Option.bind_eq_bind,
      Option.bind_some]
  -- the number may lack what stands above the four bytes, but the text shows these only
  refine ⟨_, hread.trans hjoin, ?_⟩
  rw [← String.toList_inj, toList_ipv4Text, toList_ipv4Text]
  unfold byteDigits
  rw [h3, h2, h1, h0]

theorem endsInNumber_ipv4Text (address : Nat) : endsInNumber (ipv4Text address).toList = true := by
  have hne : byteDigits address 0 ≠ [] := Nat.toDigits_ne_nil
  have hdigits : (byteDigits address 0).all Char.isDigit = true :=
    List.all_eq_true.2 fun c hc => Nat.isDigit_of_mem_toDigits (by decide) (by decide) hc
  unfold endsInNumber
  rw [splitAt_ipv4Text]
  obtain ⟨c, cs, hcons⟩ := List.exists_cons_of_ne_nil hne
  rw [hcons] at hdigits ⊢
  simp [hdigits]

/-! ## Groups of IPv6 -/

theorem toList_groupText_cons (g : Nat) (gs : List Nat) : (groupText (g :: gs)).toList =
    joined ':' (Nat.toDigits 16 g) (gs.map (Nat.toDigits 16)) := by
  have hmap : List.map String.toList (List.map (fun g => String.ofList (Nat.toDigits 16 g)) gs) =
      gs.map (Nat.toDigits 16) := by
    rw [List.map_map]
    exact List.map_congr_left fun g _ => String.toList_ofList
  unfold groupText
  rw [String.toList_intercalate, List.map_cons, List.map_cons, hmap]
  simp only [String.toList_ofList]
  exact intercalate_cons ':' _ _

/-- The digits of a group have no colon in them, and there is one at least. -/
theorem colon_not_mem_groups (gs : List Nat) :
    ∀ p ∈ gs.map (Nat.toDigits 16), ':' ∉ p ∧ p ≠ [] := by
  intro p hp
  obtain ⟨g, -, rfl⟩ := List.mem_map.1 hp
  exact ⟨not_mem_toDigits (by decide) (by decide) (.inr (.inl rfl)), Nat.toDigits_ne_nil⟩

theorem group?_toDigits {g : Nat} (h : g < 65536) : group? (Nat.toDigits 16 g) = some g := by
  have hlength : (Nat.toDigits 16 g).length ≤ 4 :=
    (Nat.length_toDigits_le_iff (by decide) (by decide)).2 h
  unfold group?
  rw [if_pos ⟨Nat.toDigits_ne_nil, hlength⟩, natOfDigits?_toDigits (by decide) (by decide)]

theorem groups?_toDigits {dotted : Bool} {g : Nat} {gs : List Nat}
    (h : ∀ x ∈ g :: gs, x < 65536) :
    groups? dotted (Nat.toDigits 16 g :: gs.map (Nat.toDigits 16)) = some (g :: gs) := by
  have hg := group?_toDigits (h g List.mem_cons_self)
  induction gs generalizing g with
  | nil =>
    have hpoint : (Nat.toDigits 16 g).contains '.' = false := by
      simpa using not_mem_toDigits (n := g) (by decide : 1 < 16) (by decide) (.inl rfl)
    rw [List.map_nil, groups?, if_neg (by rw [hpoint]; simp), hg]
    rfl
  | cons next gs ih =>
    have hrest := fun x hx => h x (List.mem_cons_of_mem g hx)
    have hnext := ih hrest (group?_toDigits (hrest next List.mem_cons_self))
    rw [List.map_cons, groups?, hg, hnext]
    · rfl
    · exact fun hnil => nomatch hnil

theorem side?_groupText {dotted : Bool} {gs : List Nat} (h : ∀ x ∈ gs, x < 65536) :
    side? dotted (groupText gs).toList = some gs := by
  cases gs with
  | nil => rfl
  | cons g gs =>
    have hparts : splitAt ':' (groupText (g :: gs)).toList =
        Nat.toDigits 16 g :: gs.map (Nat.toDigits 16) := by
      rw [toList_groupText_cons]
      exact splitAt_joined fun p hp => (colon_not_mem_groups (g :: gs) p hp).1
    have hne : (groupText (g :: gs)).toList ≠ [] := by
      rw [toList_groupText_cons]
      exact fun hnil => Nat.toDigits_ne_nil (List.append_eq_nil_iff.1 hnil).1
    unfold side?
    rw [if_neg hne, hparts, groups?_toDigits h]

/-! ## The gap in IPv6 -/

theorem splitGap?_part {p : List Char} (h : ':' ∉ p) (rest : List Char) :
    splitGap? (p ++ rest) =
      (splitGap? rest).map fun (before, behind) => (p ++ before, behind) := by
  induction p with
  | nil => cases h : splitGap? rest <;> simp [h]
  | cons c p ih =>
    have hc : c ≠ ':' := fun hc => h (hc ▸ List.mem_cons_self)
    rw [List.cons_append, splitGap?, ih fun hmem => h (List.mem_cons_of_mem c hmem), Option.map_map]
    · rfl
    · exact fun _ heq _ => hc heq

/-- Parts with a colon between each two have no gap. -/
theorem splitGap?_joined {part : List Char} {parts : List (List Char)}
    (h : ∀ p ∈ part :: parts, ':' ∉ p ∧ p ≠ []) (rest : List Char) :
    splitGap? (joined ':' part parts ++ rest) =
      (splitGap? rest).map fun (before, behind) => (joined ':' part parts ++ before, behind) := by
  have hpart := (h part List.mem_cons_self).1
  induction parts generalizing part with
  | nil =>
    rw [joined, List.flatMap_nil, List.append_nil]
    exact splitGap?_part hpart rest
  | cons next parts ih =>
    have hrest := fun p hp => h p (List.mem_cons_of_mem part hp)
    obtain ⟨hnext, hne⟩ := hrest next List.mem_cons_self
    have hmore := ih hrest hnext
    obtain ⟨c, cs, rfl⟩ := List.exists_cons_of_ne_nil hne
    have hc : c ≠ ':' := fun hc => hnext (hc ▸ List.mem_cons_self)
    -- the colon in front of the next part is followed by a digit
    have hcolon : splitGap? (':' :: (joined ':' (c :: cs) parts ++ rest)) =
        (splitGap? (joined ':' (c :: cs) parts ++ rest)).map
          fun (before, behind) => (':' :: before, behind) := by
      rw [joined, List.cons_append, List.cons_append, splitGap?]
      exact fun _ _ heq => hc (List.cons.inj heq).1
    rw [joined_cons, List.append_assoc, List.cons_append, splitGap?_part hpart, hcolon, hmore,
      Option.map_map, Option.map_map]
    refine congrArg (Option.map · (splitGap? rest)) (funext fun x => ?_)
    simp

theorem splitGap?_groupText (gs : List Nat) : splitGap? (groupText gs).toList = none := by
  cases gs with
  | nil => rfl
  | cons g gs =>
    have hgap := splitGap?_joined (colon_not_mem_groups (g :: gs)) []
    rw [List.append_nil] at hgap
    rw [toList_groupText_cons, hgap]
    rfl

theorem splitGap?_groupText_append (gs : List Nat) (behind : List Char) :
    splitGap? ((groupText gs).toList ++ ':' :: ':' :: behind) =
      some ((groupText gs).toList, behind) := by
  cases gs with
  | nil => rfl
  | cons g gs =>
    rw [toList_groupText_cons, splitGap?_joined (colon_not_mem_groups (g :: gs))]
    simp [splitGap?]

/-! ## Runs of zeros -/

theorem take_zeroRun (groups : List Nat) :
    List.replicate (zeroRun groups) 0 ++ groups.drop (zeroRun groups) = groups := by
  induction groups with
  | nil => rfl
  | cons g gs ih =>
    by_cases hg : g = 0
    · have hrun : zeroRun (g :: gs) = zeroRun gs + 1 := by simp [zeroRun, hg]
      rw [hrun, List.replicate_succ, List.drop_succ_cons, List.cons_append, ih, hg]
    · have hrun : zeroRun (g :: gs) = 0 := by simp [zeroRun, hg]
      rw [hrun]
      rfl

theorem splitRun_longestRun {n : Nat} (hpos : 0 < n) {groups : List Nat}
    (h : longestRun groups = n) :
    (splitRun n groups).1 ++ List.replicate n 0 ++ (splitRun n groups).2 = groups := by
  induction groups with
  | nil => rw [← h] at hpos; exact absurd hpos (Nat.lt_irrefl 0)
  | cons g gs ih =>
    rw [splitRun]
    split_ifs with hrun
    · rw [List.nil_append, ← hrun]
      exact take_zeroRun (g :: gs)
    · have hrest : longestRun gs = n := by
        rw [longestRun] at h
        omega
      rw [List.cons_append, List.cons_append, ih hrest]

/-- The groups of an IPv6 address are read back from its text. -/
theorem ipv6?_ipv6Text {groups : List Nat} (hlength : groups.length = 8)
    (h : ∀ g ∈ groups, g < 65536) : ipv6? (ipv6Text groups).toList = some groups := by
  unfold ipv6? ipv6Text
  dsimp only
  split_ifs with hrun
  · rw [splitGap?_groupText]
    dsimp only
    rw [side?_groupText h, Option.bind_some, if_pos hlength]
  · have hgroups := splitRun_longestRun (by omega) (rfl : longestRun groups = longestRun groups)
    generalize longestRun groups = run at hrun hgroups
    generalize splitRun run groups = sides at hgroups
    obtain ⟨front, back⟩ := sides
    dsimp only at hgroups ⊢
    have hfront : ∀ g ∈ front, g < 65536 := fun g hg => h g (by simp [← hgroups, hg])
    have hback : ∀ g ∈ back, g < 65536 := fun g hg => h g (by simp [← hgroups, hg])
    have htext : (groupText front ++ "::" ++ groupText back).toList =
        (groupText front).toList ++ ':' :: ':' :: (groupText back).toList := by simp
    have hcount : front.length + run + back.length = 8 := by
      rw [← hgroups] at hlength
      simpa [Nat.add_assoc] using hlength
    have hzeros : 8 - front.length - back.length = run := by omega
    rw [htext, splitGap?_groupText_append]
    simp only [side?_groupText hfront, side?_groupText hback, Option.bind_eq_bind, Option.bind_some,
      hzeros, hgroups]
    rw [if_pos (by omega)]

/-! ## The groups that are read -/

theorem lt_of_group? {digits : List Char} {g : Nat} (h : group? digits = some g) : g < 65536 := by
  unfold group? at h
  split_ifs at h with hdigits
  have hlt := lt_pow_of_natOfDigits? h
  have hpow : 16 ^ digits.length ≤ 16 ^ 4 := Nat.pow_le_pow_right (by decide) hdigits.2
  omega

theorem le_of_byte? {digits : List Char} {n : Nat} (h : byte? digits = some n) : n ≤ 255 := by
  unfold byte? at h
  split_ifs at h
  obtain ⟨m, -, hm⟩ := Option.bind_eq_some_iff.1 h
  split_ifs at hm with hle
  cases hm
  exact hle

theorem lt_of_dottedGroups? {s : List Char} {gs : List Nat} (h : dottedGroups? s = some gs) :
    ∀ g ∈ gs, g < 65536 := by
  have hbytes : ∀ {parts : List (List Char)} {ns : List Nat}, parts.mapM byte? = some ns →
      ∀ n ∈ ns, n ≤ 255 := by
    intro parts
    induction parts with
    | nil => intro ns h; cases h; nofun
    | cons part parts ih =>
      intro ns h
      rw [List.mapM_cons] at h
      obtain ⟨n, hn, h⟩ := Option.bind_eq_some_iff.1 h
      obtain ⟨rest, hrest, h⟩ := Option.bind_eq_some_iff.1 h
      cases h
      exact List.forall_mem_cons.2 ⟨le_of_byte? hn, ih hrest⟩
  unfold dottedGroups? at h
  split at h
  · next a b c d hparts =>
    cases h
    have hle := hbytes hparts
    simp only [List.mem_cons, List.not_mem_nil, or_false, forall_eq_or_imp, forall_eq] at hle ⊢
    omega
  · cases h

theorem lt_of_groups? {dotted : Bool} {parts : List (List Char)} {gs : List Nat}
    (h : groups? dotted parts = some gs) : ∀ g ∈ gs, g < 65536 := by
  induction parts generalizing gs with
  | nil => cases h; nofun
  | cons first rest ih =>
    cases rest with
    | nil =>
      rw [groups?] at h
      split_ifs at h with hpoint
      · exact lt_of_dottedGroups? h
      · obtain ⟨g, hg, hgs⟩ := Option.map_eq_some_iff.1 h
        subst hgs
        exact List.forall_mem_singleton.2 (lt_of_group? hg)
    | cons next rest =>
      rw [groups?] at h
      · obtain ⟨g, hg, h⟩ := Option.bind_eq_some_iff.1 h
        obtain ⟨more, hmore, h⟩ := Option.bind_eq_some_iff.1 h
        cases h
        exact List.forall_mem_cons.2 ⟨lt_of_group? hg, ih hmore⟩
      · exact fun hnil => nomatch hnil

theorem lt_of_side? {dotted : Bool} {s : List Char} {gs : List Nat}
    (h : side? dotted s = some gs) : ∀ g ∈ gs, g < 65536 := by
  unfold side? at h
  split_ifs at h with hnil
  · cases h; nofun
  · exact lt_of_groups? h

/-- An IPv6 address has eight groups of sixteen bits. -/
theorem groups_of_ipv6? {s : List Char} {groups : List Nat} (h : ipv6? s = some groups) :
    groups.length = 8 ∧ ∀ g ∈ groups, g < 65536 := by
  unfold ipv6? at h
  split at h
  · obtain ⟨gs, hgs, h⟩ := Option.bind_eq_some_iff.1 h
    split_ifs at h with hlength
    cases h
    exact ⟨hlength, lt_of_side? hgs⟩
  · obtain ⟨front, hfront, h⟩ := Option.bind_eq_some_iff.1 h
    obtain ⟨back, hback, h⟩ := Option.bind_eq_some_iff.1 h
    split_ifs at h with hlength
    cases h
    refine ⟨by simp; omega, fun g hg => ?_⟩
    rcases List.mem_append.1 hg with hg | hg
    · rcases List.mem_append.1 hg with hg | hg
      · exact lt_of_side? hfront g hg
      · rw [List.eq_of_mem_replicate hg]
        decide
    · exact lt_of_side? hback g hg

end PolicyClient.Url
