/-
The URLs of policies. An identifier is put into the URL as it is and read as a part of it, so it
arrives whole only if nothing in it has a meaning there (`resolve_policy`): `?` and `#` end the
path, a backslash is a slash, dot segments are resolved, and what is white space in a URL is lost.
Without `?` and `#`, the path still lies below the endpoint of policies as long as the identifier
does not lead above it.
-/
import PolicyClient.Api.Policies
import PolicyClient.Proofs.Client.Endpoint

namespace PolicyClient

open Url (trunk written slashed splitAt splitTail cleanBehind addSegments isDotSegment encode
  inPathSet pathChars)

namespace Policy

/-- What is put behind the endpoint for an identifier. -/
def nameOf (id : String) : List Char :=
  id.toList.dropWhile (· == '/')

/-- What a URL makes of an identifier: the text that is left, up to `?` or `#`, between its slashes
and backslashes. -/
def segmentsOf (id : String) : List (List Char) :=
  splitAt '/' (slashed (splitTail (cleanBehind (nameOf id))).1)

/-- The endpoint of policies below a URL. -/
def trunkOf (u : Url) : List String :=
  u.trunk ++ ["v1", "policies"]

/-- The URL that has an identifier whole behind the endpoint. -/
def urlOf (u : Url) (id : String) : Url :=
  { u with
    path := trunkOf u ++ written (splitAt '/' (nameOf id))
    query := none
    fragment := none }

/-- The URL that an identifier is found at: its segments are added to those of the endpoint. -/
def foundUrl (u : Url) (id : String) : Url :=
  { u with
    path := addSegments (trunkOf u) (segmentsOf id)
    query := (splitTail (cleanBehind (nameOf id))).2.1.map fun q =>
      String.ofList (encode Url.inQuerySet q)
    fragment := (splitTail (cleanBehind (nameOf id))).2.2.map fun f =>
      String.ofList (encode Url.inFragmentSet f) }

/-- Nothing in an identifier has a meaning in a URL. -/
structure IsPlainId (id : String) : Prop where
  unmarked : ∀ c ∈ nameOf id, c ∉ ['?', '#', '\\', '\t', '\n', '\r']
  visible_end : ∀ c ∈ (nameOf id).getLast?, 0x20 < c.toNat
  ordinary : ∀ s ∈ splitAt '/' (nameOf id), isDotSegment s = false

/-! ## The URL of an identifier -/

theorem path_behind (id : String) : (path id).toList.dropWhile (· == '/') =
    "v1/policies/".toList ++ nameOf id := by
  have hpath : (path id).toList = '/' :: ("v1/policies/".toList ++ nameOf id) := by
    simp [path, Call.pathOf, endpoint, nameOf]
  have hfront : "v1/policies/".toList = 'v' :: "1/policies/".toList := String.toList_ofList
  rw [hpath, List.dropWhile_cons_of_pos rfl, hfront]
  rfl

theorem resolve_id {toAscii : Url.ToAscii} {u : Url} (hu : u.Settled toAscii)
    (htail : u.SettledTail) (hquery : u.query = none) (hfragment : u.fragment = none)
    (id : String) : u.resolve (path id) toAscii = .ok (foundUrl u id) := by
  have hfront : ∀ c ∈ "v1/policies/".toList, 0x20 < c.toNat ∧ c ≠ '?' ∧ c ≠ '#' := by simp
  have hclean : cleanBehind ((path id).toList.dropWhile (· == '/')) =
      "v1/policies/".toList ++ cleanBehind (nameOf id) := by
    rw [path_behind, Url.cleanBehind_append fun c hc => (hfront c hc).1]
  have hsplit := Url.splitTail_append (fun c hc => (hfront c hc).2) (cleanBehind (nameOf id))
  have hsegments : splitAt '/' (slashed ("v1/policies/".toList ++
      (splitTail (cleanBehind (nameOf id))).1)) =
        ["v1".toList, "policies".toList] ++ segmentsOf id := by
    have hslashed : ∀ s, slashed ("v1/policies/".toList ++ s) =
        "v1".toList ++ '/' :: ("policies".toList ++ '/' :: slashed s) := by
      intro s
      simp [slashed]
    unfold segmentsOf
    rw [hslashed, Url.splitAt_append (by decide +kernel), Url.splitAt_append (by decide +kernel),
      List.cons_append, List.singleton_append]
  have hordinary : ∀ s ∈ ["v1".toList, "policies".toList], isDotSegment s = false := by
    decide +kernel
  have hwritten : written ["v1".toList, "policies".toList] = ["v1", "policies"] := by
    decide +kernel
  have hne : segmentsOf id ≠ [] := Url.splitAt_ne_nil '/' _
  rw [Url.resolve_below hu htail hquery hfragment, hclean, hsplit, hsegments,
    Url.addSegments_of_ordinary hordinary _ hne, hwritten]
  unfold foundUrl trunkOf
  dsimp only

/-- An identifier that nothing is lost of is as long in the URL as it is written. -/
theorem isPlainId_of_path {id : String} {base : List String} (hmark : '?' ∉ nameOf id)
    (hhash : '#' ∉ nameOf id)
    (h : addSegments base (segmentsOf id) = base ++ written (splitAt '/' (nameOf id))) :
    IsPlainId id := by
  have hnone : splitTail (cleanBehind (nameOf id)) = (cleanBehind (nameOf id), none, none) :=
    Url.splitTail_of_not_mem (fun hc => hmark ((Url.cleanBehind_sublist _).subset hc))
      fun hc => hhash ((Url.cleanBehind_sublist _).subset hc)
  have hsegments : segmentsOf id = splitAt '/' (slashed (cleanBehind (nameOf id))) := by
    unfold segmentsOf
    rw [hnone]
  -- what is cleaned away and each dot segment make the path shorter
  have hlength := Url.length_addSegments base (segmentsOf id)
  rw [h, hsegments, Url.pathChars_append, Url.pathChars_append, List.length_append,
    List.length_append, Url.pathChars_written, Url.pathChars_written, List.length_cons,
    List.length_cons, Url.length_encode_slashed] at hlength
  have hsublist := @Url.length_encode_of_sublist inPathSet _ _ (Url.cleanBehind_sublist (nameOf id))
  have hclean : cleanBehind (nameOf id) = nameOf id :=
    (Url.cleanBehind_sublist _).eq_of_length_le (by omega)
  rw [hclean] at hlength hsegments
  have hordinary : ∀ s ∈ segmentsOf id, isDotSegment s = false := by
    have hcount : (segmentsOf id).countP isDotSegment = 0 := by
      rw [hsegments]
      omega
    simpa using List.countP_eq_zero.1 hcount
  have hencode : encode inPathSet (slashed (nameOf id)) = encode inPathSet (nameOf id) := by
    rw [Url.addSegments_eq_append hordinary, hsegments] at h
    have := congrArg pathChars (List.append_cancel_left h)
    rw [Url.pathChars_written, Url.pathChars_written] at this
    exact (List.cons.inj this).2
  have hbackslash := Url.not_mem_of_encode_slashed hencode
  rw [hsegments, Url.slashed_of_not_mem hbackslash] at hordinary
  obtain ⟨hblank, hend⟩ := Url.cleanBehind_eq_self_iff.1 hclean
  refine ⟨fun c hc hmem => ?_, hend, hordinary⟩
  simp only [List.mem_cons, List.not_mem_nil, or_false] at hmem
  rcases hmem with rfl | rfl | rfl | hmem
  · exact hmark hc
  · exact hhash hc
  · exact hbackslash hc
  · exact hblank c hc (by simpa using hmem)

theorem segmentsOf_of_isPlainId {id : String} (h : IsPlainId id) :
    splitTail (cleanBehind (nameOf id)) = (nameOf id, none, none) ∧
      segmentsOf id = splitAt '/' (nameOf id) := by
  have hclean : cleanBehind (nameOf id) = nameOf id := by
    refine Url.cleanBehind_eq_self_iff.2 ⟨fun c hc hmem => h.unmarked c hc ?_, h.visible_end⟩
    simp at hmem ⊢
    tauto
  have hsplit : splitTail (cleanBehind (nameOf id)) = (nameOf id, none, none) := by
    rw [hclean]
    exact Url.splitTail_of_not_mem (fun hc => h.unmarked _ hc (by simp))
      fun hc => h.unmarked _ hc (by simp)
  refine ⟨hsplit, ?_⟩
  unfold segmentsOf
  rw [hsplit, Url.slashed_of_not_mem fun hc => h.unmarked _ hc (by simp)]

theorem foundUrl_path (u : Url) (id : String) :
    (foundUrl u id).path = addSegments (trunkOf u) (segmentsOf id) := by
  simp only [foundUrl]

theorem sameServer_foundUrl (u : Url) (id : String) : u.SameServer (foundUrl u id) := by
  unfold foundUrl
  exact ⟨rfl, rfl, rfl, rfl, rfl⟩

/-- The characters that end a path are visible, so cleaning does not hide them. -/
theorem foundUrl_none_iff {u : Url} {id : String} :
    (foundUrl u id).query = none ∧ (foundUrl u id).fragment = none ↔
      '?' ∉ nameOf id ∧ '#' ∉ nameOf id := by
  unfold foundUrl
  dsimp only
  rw [Option.map_eq_none_iff, Option.map_eq_none_iff, Url.splitTail_none_iff,
    Url.mem_cleanBehind (by decide), Url.mem_cleanBehind (by decide)]

/-- An identifier arrives whole just if it is plain. -/
theorem foundUrl_eq_urlOf_iff {u : Url} {id : String} :
    foundUrl u id = urlOf u id ↔ IsPlainId id := by
  constructor
  · intro h
    obtain ⟨hmark, hhash⟩ := foundUrl_none_iff.1
      ⟨congrArg Url.query h, congrArg Url.fragment h⟩
    have hpath := congrArg Url.path h
    rw [foundUrl_path] at hpath
    exact isPlainId_of_path hmark hhash hpath
  · intro h
    obtain ⟨hsplit, hsegments⟩ := segmentsOf_of_isPlainId h
    unfold foundUrl
    rw [hsplit, hsegments, Url.addSegments_eq_append h.ordinary]
    rfl

end Policy

namespace Client

/-- A call on one policy addresses the server of the base URL. Its URL has neither a query nor a
fragment just if there is no `?` and no `#` in the identifier, and has the identifier whole behind
the endpoint of policies just if the identifier is plain. Its path is below that endpoint as long
as the segments of the identifier do not lead above it. -/
theorem resolve_policy {toAscii : Url.ToAscii} (hlaw : toAscii.Lawful) (s : Settings) (c : Client)
    (haccepted : s.baseUrl toAscii = .ok c.baseUrl) (hquery : c.baseUrl.query = none)
    (hfragment : c.baseUrl.fragment = none) (id raw : String) {d : Draft}
    (hd : d ∈ [(Policy.get id).draft, (Policy.put id raw).draft, (Policy.delete id).draft]) :
    ∃ v, c.resolve d.path toAscii = .ok v ∧ c.baseUrl.SameServer v ∧
      (v.query = none ∧ v.fragment = none ↔ '?' ∉ id.toList ∧ '#' ∉ id.toList) ∧
      (Url.staysInside (Policy.segmentsOf id) = true →
        ∃ below, below ≠ [] ∧ v.path = Policy.trunkOf c.baseUrl ++ below) ∧
      (v = Policy.urlOf c.baseUrl id ↔ Policy.IsPlainId id) := by
  obtain ⟨hu, htail⟩ := settled_of_baseUrl hlaw haccepted
  have hpath : d.path = Policy.path id := by
    simp only [List.mem_cons, List.not_mem_nil, or_false] at hd
    rcases hd with rfl | rfl | rfl <;> rfl
  have hresolve := Policy.resolve_id hu htail hquery hfragment id
  refine ⟨Policy.foundUrl c.baseUrl id, ?_, Policy.sameServer_foundUrl _ _, ?_, ?_,
    Policy.foundUrl_eq_urlOf_iff⟩
  · unfold resolve
    rw [hpath, hresolve]
    rfl
  · have hname : ∀ c : Char, (c == '/') = false → (c ∈ Policy.nameOf id ↔ c ∈ id.toList) :=
      fun c hc => @Text.mem_dropWhile _ (· == '/') id.toList c hc
    rw [← hname '?' rfl, ← hname '#' rfl]
    exact Policy.foundUrl_none_iff
  · intro hinside
    rw [Policy.foundUrl_path]
    exact Url.addSegments_of_staysInside (Url.splitAt_ne_nil '/' _) hinside _

/-- A policy in a directory, behind a prefix. -/
theorem resolve_policy_in_directory :
    let s : Settings := { url := "https://opa.test/a/b/" }
    let c : Client := ⟨⟨"https", "", none, "opa.test", none, ["a", "b", ""], none, none⟩,
      .standard, {}⟩
    s.baseUrl = .ok c.baseUrl ∧ Policy.IsPlainId "/team one/authz" ∧
      ∃ v, c.resolve (Policy.delete "/team one/authz").draft.path = .ok v ∧
        v.path = ["a", "b", "v1", "policies", "team%20one", "authz"] := by
  intro s c
  have haccepted : s.baseUrl = .ok c.baseUrl := by decide +kernel
  have hplain : Policy.IsPlainId "/team one/authz" :=
    ⟨by simp [Policy.nameOf], by simp [Policy.nameOf], by decide +kernel⟩
  obtain ⟨v, hv, -, -, -, hwhole⟩ := resolve_policy Url.lawful_lowerDomain s c haccepted rfl rfl
    "/team one/authz" "" (List.mem_cons_of_mem _ (List.mem_cons_of_mem _ List.mem_cons_self))
  refine ⟨haccepted, hplain, v, hv, ?_⟩
  rw [hwhole.2 hplain]
  decide +kernel

/-- Dot segments in an identifier lead out of the policies, so that a document is removed. -/
theorem resolve_policy_above :
    let s : Settings := { url := "http://opa.test/opa/" }
    let c : Client := ⟨⟨"http", "", none, "opa.test", none, ["opa", ""], none, none⟩,
      .standard, {}⟩
    s.validate = .ok s ∧ s.baseUrl = .ok c.baseUrl ∧
      ∃ v, c.resolve (Policy.delete "../data/users").draft.path = .ok v ∧
        v.path = ["opa", "v1", "data", "users"] ∧
        ∀ below, v.path ≠ Policy.trunkOf c.baseUrl ++ below := by
  intro s c
  refine ⟨by decide +kernel, by decide +kernel, ⟨"http", "", none, "opa.test", none,
    ["opa", "v1", "data", "users"], none, none⟩, by decide +kernel, rfl, fun below h => ?_⟩
  have hthird := congrArg (·[2]?) h
  have htrunk : Policy.trunkOf c.baseUrl = ["opa", "v1", "policies"] := by decide +kernel
  rw [htrunk] at hthird
  simp at hthird

end Client
end PolicyClient
