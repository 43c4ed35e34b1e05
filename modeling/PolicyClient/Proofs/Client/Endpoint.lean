/-
The endpoints of a server. A path of plain segments on a base URL gives the path of the base URL
with the endpoint behind it, just if the base URL has neither a query nor a fragment
(`resolve_endpoint`): the endpoint is put behind the text of the URL, so it becomes part of what
stands last there.
-/
import PolicyClient.Proofs.Client.Server
import PolicyClient.Proofs.Url.Tail

namespace PolicyClient

/-- The text without the slashes at its end. -/
def Text.withoutEndSlashes (s : String) : String :=
  String.ofList (dropEndWhile (· == '/') s.toList)

/-- The text without the slashes in front of it. -/
def Text.withoutFrontSlashes (s : String) : String :=
  String.ofList (s.toList.dropWhile (· == '/'))

namespace Url

variable {toAscii : ToAscii} {u : Url}

/-! ## Paths below a URL -/

/-- The path without the empty segments at its end. -/
def trunk (u : Url) : List String :=
  Text.dropEndWhile (· == "") u.path

theorem mem_of_mem_trunk {segment : String} (h : segment ∈ u.trunk) : segment ∈ u.path :=
  (List.rdropWhile_prefix _ _).subset h

/-- Without the slashes at its end, a path has no empty segments there. -/
theorem dropEndWhile_pathChars {path : List String}
    (h : ∀ segment ∈ path, SettledSegment segment) :
    Text.dropEndWhile (· == '/') (pathChars path) =
      pathChars (Text.dropEndWhile (· == "") path) := by
  induction path using List.reverseRecOn with
  | nil => rfl
  | append_singleton path last ih =>
    rw [List.forall_mem_append] at h
    have hchars : pathChars (path ++ [last]) = pathChars path ++ '/' :: last.toList := by
      rw [pathChars_append]
      simp [pathChars]
    rw [Text.dropEndWhile_concat, hchars]
    by_cases hlast : last = ""
    · rw [hlast, if_pos (beq_self_eq_true ""), String.toList_empty, Text.dropEndWhile_concat,
        if_pos (beq_self_eq_true '/'), ih h.1]
    · have hne : last.toList ≠ [] := fun hnil => hlast (String.toList_eq_nil_iff.1 hnil)
      rw [if_neg (by simpa using hlast), ← hchars]
      refine Text.dropEndWhile_of_last fun c hc => ?_
      rw [hchars, ← List.singleton_append, ← List.append_assoc,
        List.getLast?_append_of_ne_nil _ hne] at hc
      have hplain := (h.2 last List.mem_cons_self).plain c (List.mem_of_getLast? hc)
      simpa using hplain.1

theorem pathText_trunk (hu : u.SettledTail) :
    Text.withoutEndSlashes u.pathText = String.ofList (pathChars u.trunk) := by
  unfold Text.withoutEndSlashes trunk
  rw [toList_pathText, dropEndWhile_pathChars hu.path]

/-- On a URL without query and fragment, the segments of a path are added to its own. -/
theorem resolve_below (hu : u.Settled toAscii) (htail : u.SettledTail) (hquery : u.query = none)
    (hfragment : u.fragment = none) (path : String) :
    let behind := splitTail (cleanBehind (path.toList.dropWhile (· == '/')))
    u.resolve path toAscii = .ok { u with
      path := addSegments u.trunk (splitAt '/' (slashed behind.1))
      query := behind.2.1.map fun q => String.ofList (encode inQuerySet q)
      fragment := behind.2.2.map fun f => String.ofList (encode inFragmentSet f) } := by
  intro behind
  have htrunk : ∀ segment ∈ u.trunk, SettledSegment segment := fun segment hsegment =>
    htail.path segment (mem_of_mem_trunk hsegment)
  have hchars : u.tailText = pathChars u.path := by
    rw [tailText_eq, hquery, hfragment]
    exact List.append_nil _
  have hfront : ∀ c ∈ pathChars u.trunk ++ ['/'], 0x20 < c.toNat ∧ c ≠ '?' ∧ c ≠ '#' := by
    rw [List.forall_mem_append]
    exact ⟨visible_pathChars htrunk, by simp⟩
  have hclean : cleanBehind (pathChars u.trunk ++ '/' :: path.toList.dropWhile (· == '/')) =
      (pathChars u.trunk ++ ['/']) ++ cleanBehind (path.toList.dropWhile (· == '/')) := by
    rw [← cleanBehind_append fun c hc => (hfront c hc).1, List.append_assoc, List.singleton_append]
  rw [hu.resolve_eq, hchars, dropEndWhile_pathChars htail.path]
  change Except.ok (u.withTail (cleanBehind (pathChars u.trunk ++ _))) = _
  rw [hclean]
  unfold withTail
  rw [splitTail_append fun c hc => (hfront c hc).2]
  dsimp only
  rw [List.append_assoc, List.singleton_append, parsePath_append htrunk]

/-- The segments of a text, each behind its slash, are the text encoded. -/
theorem pathChars_written (s : List Char) :
    pathChars (written (splitAt '/' s)) = '/' :: encode inPathSet s := by
  obtain ⟨part, parts, hsplit, hjoined, -⟩ := exists_splitAt '/' s
  have hparts : ∀ parts, pathChars (written parts) = encode inPathSet (parts.flatMap ('/' :: ·)) := by
    intro parts
    induction parts with
    | nil => rfl
    | cons part parts ih =>
      rw [List.flatMap_cons, encode_append, ← ih]
      show '/' :: ((String.ofList (encode inPathSet part)).toList ++ _) = _
      rw [String.toList_ofList]
      rfl
  rw [hsplit, hparts, ← hjoined]
  rfl

/-! ## Endpoints -/

/-- The characters of a plain segment: letters and digits of ASCII, `-` and `_`. -/
def isPlain (c : Char) : Bool :=
  c.isAlphanum || c == '-' || c == '_'

/-- A path of plain segments with slashes between them. -/
structure IsEndpoint (path : String) : Prop where
  plain : ∀ c ∈ path.toList, isPlain c = true ∨ c = '/'
  named : ∃ c ∈ path.toList, isPlain c = true

theorem toNat_of_isPlain {c : Char} (h : isPlain c = true) : c.toNat < 128 := by
  unfold isPlain at h
  simp only [Bool.or_eq_true, beq_iff_eq] at h
  rcases h with (h | rfl) | rfl
  · have := Text.toNat_of_isAlphanum h
    omega
  · decide
  · decide

/-- A plain character is encoded nowhere, ends nothing and is no part of a dot segment. -/
theorem settled_of_isPlain {c : Char} (h : isPlain c = true) :
    inPathSet c = false ∧ inQuerySet c = false ∧ inFragmentSet c = false ∧
      c ∉ ['?', '#', '\\', '.', '%', '/'] ∧ 0x20 < c.toNat := by
  have hall : ∀ n < 128, isPlain (Char.ofNat n) = true →
      inPathSet (Char.ofNat n) = false ∧ inQuerySet (Char.ofNat n) = false ∧
        inFragmentSet (Char.ofNat n) = false ∧
        Char.ofNat n ∉ ['?', '#', '\\', '.', '%', '/'] ∧ 0x20 < (Char.ofNat n).toNat := by
    decide +kernel
  have hc := hall c.toNat (toNat_of_isPlain h)
  rw [Char.ofNat_toNat] at hc
  exact hc h

/-- An endpoint is put behind a path as it is. -/
theorem addSegments_endpoint {s : List Char} (h : ∀ c ∈ s, isPlain c = true ∨ c = '/')
    (path : List String) :
    pathChars (addSegments path (splitAt '/' (slashed s))) = pathChars path ++ '/' :: s := by
  have hslashed : slashed s = s := by
    refine slashed_of_not_mem fun hc => ?_
    rcases h _ hc with hc | hc <;> cases hc
  have hordinary : ∀ part ∈ splitAt '/' s, isDotSegment part = false := by
    intro part hpart
    rw [← Bool.not_eq_true]
    intro hdot
    have hplain : ∀ c ∈ part, isPlain c = true := fun c hc =>
      (h c (mem_of_mem_splitAt hpart hc).1).resolve_right (mem_of_mem_splitAt hpart hc).2
    rcases mem_of_isDotSegment hdot with hmem | hmem <;> cases hplain _ hmem
  have hencode : encode inPathSet s = s := by
    refine encode_of_forall fun c hc => ?_
    rcases h c hc with hc | rfl
    · exact (settled_of_isPlain hc).1
    · decide
  rw [hslashed, addSegments_eq_append hordinary, pathChars_append, pathChars_written, hencode]

/-- An endpoint has nothing in it that is cleaned away or ends the path. -/
theorem endpoint_visible {s : List Char} (h : ∀ c ∈ s, isPlain c = true ∨ c = '/') :
    cleanBehind s = s ∧ splitTail s = (s, none, none) := by
  have hplain : ∀ c ∈ s, c ∉ ['?', '#'] ∧ 0x20 < c.toNat := by
    intro c hc
    rcases h c hc with hc | rfl
    · obtain ⟨-, -, -, hmem, hvisible⟩ := settled_of_isPlain hc
      exact ⟨fun hc => hmem (by simp at hc ⊢; tauto), hvisible⟩
    · decide
  constructor
  · exact cleanBehind_of_visible fun c hc => (hplain c hc).2
  · exact splitTail_of_not_mem (fun hc => (hplain _ hc).1 (by simp))
      fun hc => (hplain _ hc).1 (by simp)

/-! ## Endpoints behind a query or a fragment -/

/-- What a path becomes when it is put behind the text of a part. -/
def extended (part path : String) : String :=
  Text.withoutEndSlashes part ++ "/" ++ Text.withoutFrontSlashes path

theorem toList_extended (part path : String) : (extended part path).toList =
    Text.dropEndWhile (· == '/') part.toList ++ '/' :: path.toList.dropWhile (· == '/') := by
  simp [extended, Text.withoutEndSlashes, Text.withoutFrontSlashes]

theorem not_inSet_of_mem_extended {inSet : Char → Bool} (hslash : inSet '/' = false)
    (hplain : ∀ c, isPlain c = true → inSet c = false) {part path : String}
    (hpart : ∀ c ∈ part.toList, inSet c = false)
    (hpath : ∀ c ∈ path.toList, isPlain c = true ∨ c = '/') :
    ∀ c ∈ (extended part path).toList, inSet c = false := by
  rw [toList_extended, List.forall_mem_append, List.forall_mem_cons]
  refine ⟨fun c hc => hpart c ((List.rdropWhile_prefix _ _).subset hc), hslash, fun c hc => ?_⟩
  rcases hpath c ((List.dropWhile_sublist _).subset hc) with hc | rfl
  · exact hplain c hc
  · exact hslash

theorem dropEndWhile_part (front part : List Char) {mark : Char} (hmark : (mark == '/') = false) :
    Text.dropEndWhile (· == '/') (front ++ mark :: part) =
      front ++ mark :: Text.dropEndWhile (· == '/') part := by
  have hlast : ∀ c ∈ (front ++ [mark]).getLast?, (c == '/') = false := by
    rw [List.getLast?_concat]
    rintro _ ⟨⟩
    exact hmark
  rw [List.append_cons, Text.dropEndWhile_append hlast, ← List.append_cons]

/-- A tail that is settled is found as it is. -/
theorem resolve_of_tailText (hu : u.Settled toAscii) {w : Url} (hw : w.SettledTail) {path : String}
    (h : Text.dropEndWhile (· == '/') u.tailText ++ '/' :: path.toList.dropWhile (· == '/') =
      w.tailText) :
    u.resolve path toAscii =
      .ok { u with path := w.path, query := w.query, fragment := w.fragment } := by
  rw [hu.resolve_eq, h, cleanBehind_of_visible hw.visible, hw.withTail_tailText]

theorem resolve_query (hu : u.Settled toAscii) (htail : u.SettledTail) {q : String}
    (hquery : u.query = some q) (hfragment : u.fragment = none) {path : String}
    (hpath : ∀ c ∈ path.toList, isPlain c = true ∨ c = '/') :
    u.resolve path toAscii = .ok { u with query := some (extended q path) } := by
  have hw : SettledTail { u with query := some (extended q path) } := by
    refine ⟨htail.path_ne, htail.path, ?_, htail.fragment⟩
    rintro _ ⟨⟩
    exact not_inSet_of_mem_extended (by decide) (fun c hc => (settled_of_isPlain hc).2.1)
      (htail.query q hquery) hpath
  refine resolve_of_tailText hu hw ?_
  rw [tailText_eq, tailText_eq, hquery, hfragment]
  dsimp only [Option.map_some, Option.map_none, Option.getD_some, Option.getD_none]
  rw [List.append_nil, List.append_nil, dropEndWhile_part _ _ rfl, toList_extended]
  simp

theorem resolve_fragment (hu : u.Settled toAscii) (htail : u.SettledTail) {f : String}
    (hfragment : u.fragment = some f) {path : String}
    (hpath : ∀ c ∈ path.toList, isPlain c = true ∨ c = '/') :
    u.resolve path toAscii = .ok { u with fragment := some (extended f path) } := by
  have hw : SettledTail { u with fragment := some (extended f path) } := by
    refine ⟨htail.path_ne, htail.path, htail.query, ?_⟩
    rintro _ ⟨⟩
    exact not_inSet_of_mem_extended (by decide) (fun c hc => (settled_of_isPlain hc).2.2.1)
      (htail.fragment f hfragment) hpath
  refine resolve_of_tailText hu hw ?_
  rw [tailText_eq, tailText_eq, hfragment]
  dsimp only [Option.map_some, Option.getD_some]
  rw [← List.append_assoc, dropEndWhile_part _ _ rfl, toList_extended]
  simp

/-- On a URL without query and fragment, an endpoint goes behind the path. -/
theorem resolve_path (hu : u.Settled toAscii) (htail : u.SettledTail) (hquery : u.query = none)
    (hfragment : u.fragment = none) {path : String}
    (hpath : ∀ c ∈ path.toList, isPlain c = true ∨ c = '/') :
    ∃ v, u.resolve path toAscii = .ok v ∧ u.SameServer v ∧
      v.pathText = extended u.pathText path ∧ v.query = none ∧ v.fragment = none := by
  have hbehind : ∀ c ∈ path.toList.dropWhile (· == '/'), isPlain c = true ∨ c = '/' :=
    fun c hc => hpath c ((List.dropWhile_sublist _).subset hc)
  obtain ⟨hclean, hsplit⟩ := endpoint_visible hbehind
  refine ⟨_, resolve_below hu htail hquery hfragment path, ⟨rfl, rfl, rfl, rfl, rfl⟩, ?_, ?_, ?_⟩
  · rw [← String.toList_inj, toList_pathText, hclean, hsplit, addSegments_endpoint hbehind]
    unfold extended
    rw [pathText_trunk htail]
    simp [Text.withoutFrontSlashes]
  · rw [hclean, hsplit]
    rfl
  · rw [hclean, hsplit]
    rfl

/-- A path is not what an endpoint makes of it. -/
theorem ne_extended {path : String} (hpath : IsEndpoint path) (part : String) :
    part ≠ extended part path := by
  intro h
  obtain ⟨c, hc, hplain⟩ := hpath.named
  have hslash : (c == '/') = false := by
    rw [beq_eq_false_iff_ne]
    rintro rfl
    cases hplain
  have hparts := congrArg String.toList h
  rw [toList_extended] at hparts
  -- only slashes were taken off the end, and the endpoint has something else in it
  have hrest : part.toList.rtakeWhile (· == '/') = '/' :: path.toList.dropWhile (· == '/') := by
    have hwhole : Text.dropEndWhile (· == '/') part.toList ++ part.toList.rtakeWhile (· == '/') =
        part.toList := List.rdropWhile_append_rtakeWhile
    exact List.append_cancel_left (hwhole.trans hparts)
  have hbehind : c ∈ path.toList.dropWhile (· == '/') :=
    (@Text.mem_dropWhile _ (· == '/') path.toList c hslash).2 hc
  have hmem : c ∈ part.toList.rtakeWhile (· == '/') := by
    rw [hrest]
    exact List.mem_cons_of_mem _ hbehind
  rw [List.mem_rtakeWhile_imp hmem] at hslash
  cases hslash

end Url

namespace Client

theorem settled_of_baseUrl {toAscii : Url.ToAscii} (hlaw : toAscii.Lawful) {s : Settings} {u : Url}
    (h : s.baseUrl toAscii = .ok u) : u.Settled toAscii ∧ u.SettledTail := by
  have hparse : Url.parse s.url toAscii = .ok u := by
    unfold Settings.baseUrl at h
    cases hurl : Url.parse s.url toAscii with
    | error e => rw [hurl] at h; cases h
    | ok v => rw [hurl] at h; cases h; rfl
  exact ⟨Url.settled_of_parse hlaw hparse, Url.settledTail_of_parse hparse⟩

/-- The URL of an endpoint is one of the same server. It has the path of the base URL, without the
slashes at its end, with a slash and the endpoint behind it, just if the base URL has neither a
query nor a fragment. Otherwise the endpoint goes to the end of the fragment, or of the query if
there is no fragment, and the path is that of the base URL. -/
theorem resolve_endpoint {toAscii : Url.ToAscii} (hlaw : toAscii.Lawful) (s : Settings) (c : Client)
    (haccepted : s.baseUrl toAscii = .ok c.baseUrl) {path : String} (hpath : Url.IsEndpoint path) :
    ∃ v, c.resolve path toAscii = .ok v ∧ c.baseUrl.SameServer v ∧
      (v.pathText = Text.withoutEndSlashes c.baseUrl.pathText ++ "/" ++
          Text.withoutFrontSlashes path ↔ c.baseUrl.query = none ∧ c.baseUrl.fragment = none) ∧
      (c.baseUrl.query = none → c.baseUrl.fragment = none → v.query = none ∧ v.fragment = none) ∧
      (∀ q, c.baseUrl.query = some q → c.baseUrl.fragment = none → v = { c.baseUrl with
        query := some (Text.withoutEndSlashes q ++ "/" ++ Text.withoutFrontSlashes path) }) ∧
      (∀ f, c.baseUrl.fragment = some f → v = { c.baseUrl with
        fragment := some (Text.withoutEndSlashes f ++ "/" ++ Text.withoutFrontSlashes path) }) := by
  obtain ⟨hu, htail⟩ := settled_of_baseUrl hlaw haccepted
  have hresolve : ∀ v, c.baseUrl.resolve path toAscii = .ok v → c.resolve path toAscii = .ok v := by
    intro v hv
    unfold resolve
    rw [hv]
    rfl
  have hne := Url.ne_extended hpath c.baseUrl.pathText
  cases hfragment : c.baseUrl.fragment with
  | some f =>
    refine ⟨_, hresolve _ (Url.resolve_fragment hu htail hfragment hpath.plain),
      ⟨rfl, rfl, rfl, rfl, rfl⟩, ⟨fun h => absurd h hne, nofun⟩, nofun, nofun, ?_⟩
    rintro _ ⟨⟩
    rfl
  | none =>
    cases hquery : c.baseUrl.query with
    | some q =>
      refine ⟨_, hresolve _ (Url.resolve_query hu htail hquery hfragment hpath.plain),
        ⟨rfl, rfl, rfl, rfl, rfl⟩, ⟨fun h => absurd h hne, nofun⟩, nofun, ?_, nofun⟩
      rintro _ ⟨⟩ -
      rfl
    | none =>
      obtain ⟨v, hv, hserver, htext, hnone⟩ :=
        Url.resolve_path hu htail hquery hfragment hpath.plain
      exact ⟨v, hresolve v hv, hserver, ⟨fun _ => ⟨rfl, rfl⟩, fun _ => htext⟩, fun _ _ => hnone,
        nofun, nofun⟩

/-- A path behind a prefix that ends in slashes. -/
theorem resolve_endpoint_gateway :
    let s : Settings := { url := "https://Gateway.test/opa/x%20y//" }
    let c : Client := ⟨⟨"https", "", none, "gateway.test", none, ["opa", "x%20y", "", ""], none,
      none⟩, .standard, {}⟩
    s.baseUrl = .ok c.baseUrl ∧ Url.IsEndpoint "/v1/data/authz_2/allow" ∧
      ∃ v, c.resolve "/v1/data/authz_2/allow" = .ok v ∧
        v.pathText = "/opa/x%20y/v1/data/authz_2/allow" := by
  intro s c
  have haccepted : s.baseUrl = .ok c.baseUrl := by decide +kernel
  have hpath : Url.IsEndpoint "/v1/data/authz_2/allow" :=
    ⟨by simp [Url.isPlain], 'v', by decide +kernel⟩
  obtain ⟨v, hv, -, htext, -⟩ :=
    resolve_endpoint Url.lawful_lowerDomain s c haccepted hpath
  exact ⟨haccepted, hpath, v, hv, (htext.2 ⟨rfl, rfl⟩).trans (by decide +kernel)⟩

/-- On a base URL with a query, the endpoint is not reached. -/
theorem resolve_endpoint_behind_query :
    let s : Settings := { url := "http://opa.test/opa?tenant=a" }
    let c : Client := ⟨⟨"http", "", none, "opa.test", none, ["opa"], some "tenant=a", none⟩,
      .standard, {}⟩
    s.validate = .ok s ∧ s.baseUrl = .ok c.baseUrl ∧ Url.IsEndpoint "v1/data/authz/allow" ∧
      ∃ v, c.resolve "v1/data/authz/allow" = .ok v ∧ v.pathText = "/opa" ∧
        Text.withoutEndSlashes c.baseUrl.pathText ++ "/" ++
          Text.withoutFrontSlashes "v1/data/authz/allow" = "/opa/v1/data/authz/allow" ∧
        v.query = some "tenant=a/v1/data/authz/allow" := by
  intro s c
  exact ⟨by decide +kernel, by decide +kernel, ⟨by simp [Url.isPlain], 'v', by decide +kernel⟩,
    ⟨"http", "", none, "opa.test", none, ["opa"], some "tenant=a/v1/data/authz/allow", none⟩,
    by decide +kernel⟩

end Client
end PolicyClient
