/-
Every request of a client goes to its server (`resolve_sameServer`). The URL of the server was read
once, so its parts are settled; a path is put behind them, and reading the whole again finds them as
they were, whatever the path.
-/
import PolicyClient.Client.Basic
import PolicyClient.Proofs.Url.Authority

namespace PolicyClient

namespace Url

variable {toAscii : ToAscii}

/-! ## Settled URLs -/

theorem parseUser_settled (s : List Char) :
    (∀ c ∈ (parseUser s).1.toList, inUserSet c = false) ∧
      ∀ p ∈ (parseUser s).2, p ≠ "" ∧ ∀ c ∈ p.toList, inUserSet c = false := by
  have hencoded : ∀ t : List Char, ∀ c ∈ (String.ofList (encode inUserSet t)).toList,
      inUserSet c = false := by
    intro t c hc
    rw [String.toList_ofList] at hc
    exact not_inSet_of_mem_encode escapable_inUserSet hc
  unfold parseUser
  split
  · exact ⟨hencoded s, nofun⟩
  · exact ⟨hencoded _, nofun⟩
  · next name password hne _ =>
    refine ⟨hencoded _, ?_⟩
    rintro _ ⟨⟩
    refine ⟨?_, hencoded _⟩
    intro hempty
    have hnil : encode inUserSet password = [] := by
      rw [← String.toList_ofList (l := encode inUserSet password), hempty, String.toList_empty]
    exact encode_ne_nil hne hnil

theorem parsePort_settled {scheme : String} {s : List Char} {port : Option Nat}
    (h : parsePort scheme s = .ok port) :
    ∀ p ∈ port, p ≤ 65535 ∧ defaultPort? scheme ≠ some p := by
  unfold parsePort at h
  dsimp only at h
  split_ifs at h
  split at h
  · cases h
  · split_ifs at h with hlarge hdefault
    · cases h
      nofun
    · cases h
      rintro _ ⟨⟩
      exact ⟨Nat.not_lt.1 hlarge, (not_or.1 hdefault).2⟩

/-- What is read is settled. -/
theorem settled_of_parse (hlaw : toAscii.Lawful) {input : String} {u : Url}
    (h : parse input toAscii = .ok u) : u.Settled toAscii := by
  obtain ⟨scheme, s, hscheme, hparse⟩ := exists_parseSpecial h
  obtain ⟨rfl, ⟨user, huser⟩, ⟨host, hhost⟩, hport, -⟩ := parseSpecial_eq_ok hparse
  obtain ⟨husername, hpassword⟩ := parseUser_settled user
  rw [huser] at husername hpassword
  obtain ⟨htext, hagain⟩ := specialHost_settled hlaw hhost
  refine ⟨hscheme, husername, hpassword, htext, hagain, ?_⟩
  rcases hport with hnone | ⟨digits, hdigits⟩
  · rw [hnone]
    nofun
  · exact parsePort_settled hdigits

/-! ## Paths on a server -/

/-- A path is put behind the tail of a settled URL: the slashes that are cut off in between stand
behind the server. -/
theorem Settled.resolve_eq {u : Url} (hu : u.Settled toAscii) (path : String) :
    u.resolve path toAscii = .ok (u.withTail (cleanBehind
      (Text.dropEndWhile (· == '/') u.tailText ++ '/' :: path.toList.dropWhile (· == '/')))) := by
  have hlast : ∀ c ∈ (u.scheme.toList ++ ':' :: '/' :: '/' :: u.authority).getLast?,
      (c == '/') = false := by
    intro c hc
    have hmem : c ∈ u.authority := by
      rw [List.getLast?_append_of_ne_nil _ (List.cons_ne_nil _ _),
        List.getLast?_cons_cons, List.getLast?_cons_cons] at hc
      obtain ⟨a, authority, ha⟩ := List.exists_cons_of_ne_nil hu.authority_ne_nil
      rw [ha, List.getLast?_cons_cons, ← ha] at hc
      exact List.mem_of_getLast? hc
    have hplain := (hu.plain_authority c hmem).1
    simp only [endsAuthority, Bool.or_eq_false_iff] at hplain
    exact hplain.1.1.1
  have htext : u.text.toList =
      (u.scheme.toList ++ ':' :: '/' :: '/' :: u.authority) ++ u.tailText := by
    rw [toList_text]
    simp
  have hhead : ∀ c ∈ (Text.dropEndWhile (· == '/') u.tailText ++
      '/' :: path.toList.dropWhile (· == '/')).head?, c = '/' ∨ c = '?' ∨ c = '#' := by
    intro c hc
    cases htail : Text.dropEndWhile (· == '/') u.tailText with
    -- nothing is left of the tail, so the slash in front of the path ends the server
    | nil => rw [htail] at hc; cases hc; exact .inl rfl
    | cons a rest =>
      rw [htail] at hc
      cases hc
      exact head_tailText (Text.head?_dropEndWhile (by rw [htail]; rfl))
  unfold resolve
  dsimp only
  rw [htext, Text.dropEndWhile_append hlast, List.append_assoc, parse_authority hu hhead]
  rfl

/-- A path on a settled URL gives a URL of the same server. -/
theorem resolve_of_settled {u : Url} (hu : u.Settled toAscii) (path : String) :
    ∃ v, u.resolve path toAscii = .ok v ∧ u.SameServer v :=
  ⟨_, hu.resolve_eq path, u.sameServer_withTail _⟩

end Url

namespace Client

/-- Whatever the path, a client whose URL has been accepted has a URL for it, and that is one of the
same server and the same user. -/
theorem resolve_sameServer {toAscii : Url.ToAscii} (hlaw : toAscii.Lawful) (s : Settings)
    (c : Client) (haccepted : s.baseUrl toAscii = .ok c.baseUrl) (path : String) :
    ∃ u, c.resolve path toAscii = .ok u ∧ c.baseUrl.SameServer u := by
  have hparse : Url.parse s.url toAscii = .ok c.baseUrl := by
    unfold Settings.baseUrl at haccepted
    cases h : Url.parse s.url toAscii with
    | error e => rw [h] at haccepted; cases haccepted
    | ok u => rw [h] at haccepted; cases haccepted; rfl
  obtain ⟨u, hu, hsame⟩ := Url.resolve_of_settled (Url.settled_of_parse hlaw hparse) path
  refine ⟨u, ?_, hsame⟩
  unfold resolve
  rw [hu]
  rfl

/-- A path that looks like another server. -/
theorem resolve_sameServer_backslash :
    let s : Settings := { url := "HTTP://user:p@ss@EXAMPLE.com:8080/opa" }
    let c : Client := ⟨⟨"http", "user", some "p%40ss", "example.com", some 8080, ["opa"], none,
      none⟩, .standard, {}⟩
    s.baseUrl = .ok c.baseUrl ∧
      ∃ u, c.resolve "\\@evil.org:80/../../.." = .ok u ∧ c.baseUrl.SameServer u := by
  intro s c
  have haccepted : s.baseUrl = .ok c.baseUrl := by decide +kernel
  exact ⟨haccepted, resolve_sameServer Url.lawful_lowerDomain s c haccepted _⟩

end Client
end PolicyClient
