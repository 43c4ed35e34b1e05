/-
What stands in front of the path of a URL: the user, the host and the port, as `Url.text` writes
them. Whatever follows them, they are read back (`parse_authority`), because nothing in them can be
taken for their end, and reading changes none of them a second time. Path, query and fragment are
then those of the text behind them.
-/
import PolicyClient.Proofs.Text.Blank
import PolicyClient.Proofs.Url.Host

namespace PolicyClient.Url

variable {toAscii : ToAscii}

/-- The URLs name one server, and the same user on it. -/
structure SameServer (u v : Url) : Prop where
  scheme : u.scheme = v.scheme
  username : u.username = v.username
  password : u.password = v.password
  host : u.host = v.host
  port : u.port = v.port

/-- The parts in front of the path are as reading leaves them. -/
structure Settled (toAscii : ToAscii) (u : Url) : Prop where
  scheme : u.scheme = "http" ∨ u.scheme = "https"
  username : ∀ c ∈ u.username.toList, inUserSet c = false
  password : ∀ p ∈ u.password, p ≠ "" ∧ ∀ c ∈ p.toList, inUserSet c = false
  host_text : HostText u.host.toList
  host : specialHost u.host.toList toAscii = .ok u.host
  port : ∀ p ∈ u.port, p ≤ 65535 ∧ defaultPort? u.scheme ≠ some p

/-! ## The text of a URL -/

/-- The port behind its colon. -/
def portText : Option Nat → List Char
  | none => []
  | some port => ':' :: Nat.toDigits 10 port

/-- The user, the host and the port. -/
def authority (u : Url) : List Char :=
  u.userText.toList ++ (u.host.toList ++ portText u.port)

/-- The path, the query and the fragment. -/
def tailText (u : Url) : List Char :=
  u.pathText.toList ++ (match u.query with
    | some query => '?' :: query.toList
    | none => []) ++
  (match u.fragment with
    | some fragment => '#' :: fragment.toList
    | none => [])

theorem toList_text (u : Url) : u.text.toList =
    u.scheme.toList ++ ':' :: '/' :: '/' :: (u.authority ++ u.tailText) := by
  have hcolon : (toString ":").toList = [':'] := String.toList_ofList
  unfold text authority tailText portText
  cases u.port <;> cases u.query <;> cases u.fragment <;> simp [hcolon]

theorem head_tailText {u : Url} {c : Char} (h : c ∈ u.tailText.head?) :
    c = '/' ∨ c = '?' ∨ c = '#' := by
  unfold tailText pathText at h
  cases hpath : u.path with
  | cons segment path => simp [hpath] at h; exact .inl h.symm
  | nil =>
    rw [hpath] at h
    cases hquery : u.query with
    | some query => simp [hquery] at h; exact .inr (.inl h.symm)
    | none =>
      cases hfragment : u.fragment with
      | some fragment => simp [hquery, hfragment] at h; exact .inr (.inr h.symm)
      | none => simp [hquery, hfragment] at h

/-! ## Nothing in front of the path ends it -/

theorem plain_of_not_inUserSet {c : Char} (h : inUserSet c = false) :
    endsAuthority true c = false ∧ 0x20 < c.toNat ∧ c ≠ ':' ∧ c ≠ '@' := by
  have hne : ∀ d, inUserSet d = true → c ≠ d := fun d hd =>
    ne_of_apply_ne inUserSet (by simp [h, hd])
  have hvisible : 0x20 < c.toNat := visible_of_not_inSet
    (fun c hc => by simp [inUserSet, inPathSet, inFragmentSet, hc]) (by decide) h
  refine ⟨?_, hvisible, hne ':' (by decide), hne '@' (by decide)⟩
  simp [endsAuthority, hne '/' (by decide), hne '?' (by decide), hne '#' (by decide),
    hne '\\' (by decide)]

theorem mem_userText {u : Url} {c : Char} (h : c ∈ u.userText.toList) :
    c ∈ u.username.toList ∨ (∃ p ∈ u.password, c ∈ p.toList) ∨ c = ':' ∨ c = '@' := by
  unfold userText at h
  cases hpassword : u.password with
  | some p =>
    simp only [hpassword, String.toList_append, List.mem_append] at h
    rcases h with ((h | h) | h) | h
    · exact .inl h
    · exact .inr (.inr (.inl (by simpa using h)))
    · exact .inr (.inl ⟨p, rfl, h⟩)
    · exact .inr (.inr (.inr (by simpa using h)))
  | none =>
    simp only [hpassword] at h
    split_ifs at h
    · cases h
    · rw [String.toList_append, List.mem_append] at h
      rcases h with h | h
      · exact .inl h
      · exact .inr (.inr (.inr (by simpa using h)))

theorem digit_of_mem_portText {port : Option Nat} {c : Char} (h : c ∈ portText port) :
    c = ':' ∨ c.isDigit = true := by
  cases port with
  | none => cases h
  | some port =>
    rcases List.mem_cons.1 h with rfl | h
    · exact .inl rfl
    · exact .inr (Nat.isDigit_of_mem_toDigits (by decide) (by decide) h)

theorem Settled.plain_authority {u : Url} (hu : u.Settled toAscii) :
    ∀ c ∈ u.authority, endsAuthority true c = false ∧ 0x20 < c.toNat := by
  intro c hc
  rcases List.mem_append.1 hc with hc | hc
  · rcases mem_userText hc with hc | ⟨p, hp, hc⟩ | rfl | rfl
    · have hplain := plain_of_not_inUserSet (hu.username c hc)
      exact ⟨hplain.1, hplain.2.1⟩
    · have hplain := plain_of_not_inUserSet ((hu.password p hp).2 c hc)
      exact ⟨hplain.1, hplain.2.1⟩
    · decide
    · decide
  · rcases List.mem_append.1 hc with hc | hc
    · have hplain := hu.host_text.plain c hc
      exact ⟨hplain.1, hplain.2.2⟩
    · rcases digit_of_mem_portText hc with rfl | hdigit
      · decide
      · have hplain := (HostText.domain (List.cons_ne_nil c [])
          (by simpa using allowed_of_digit (.inl hdigit))).plain c List.mem_cons_self
        exact ⟨hplain.1, hplain.2.2⟩

theorem Settled.authority_ne_nil {u : Url} (hu : u.Settled toAscii) : u.authority ≠ [] := by
  intro h
  exact hu.host_text.ne_nil (List.append_eq_nil_iff.1 (List.append_eq_nil_iff.1 h).2).1

/-! ## The user -/

theorem splitLastAt?_of_not_mem {s : List Char} (h : '@' ∉ s) : splitLastAt? s = none := by
  induction s with
  | nil => rfl
  | cons c s ih =>
    have hc : c ≠ '@' := fun hc => h (hc ▸ List.mem_cons_self)
    rw [splitLastAt?, ih fun hmem => h (List.mem_cons_of_mem c hmem)]
    exact if_neg hc

theorem splitLastAt?_append {server : List Char} (h : '@' ∉ server) (user : List Char) :
    splitLastAt? (user ++ '@' :: server) = some (user, server) := by
  induction user with
  | nil =>
    rw [List.nil_append, splitLastAt?, splitLastAt?_of_not_mem h]
    rfl
  | cons c user ih => rw [List.cons_append, splitLastAt?, ih]

theorem parseUser_name {name : String} (h : ∀ c ∈ name.toList, inUserSet c = false) :
    parseUser name.toList = (name, none) := by
  have hcolon : ':' ∉ name.toList := fun hc => (plain_of_not_inUserSet (h _ hc)).2.2.1 rfl
  unfold parseUser
  rw [Text.splitFirst?_of_not_mem hcolon]
  dsimp only
  rw [encode_of_forall h, String.ofList_toList]

theorem parseUser_password {name password : String} (h : ∀ c ∈ name.toList, inUserSet c = false)
    (hne : password ≠ "") (hpassword : ∀ c ∈ password.toList, inUserSet c = false) :
    parseUser (name.toList ++ ':' :: password.toList) = (name, some password) := by
  have hcolon : ':' ∉ name.toList := fun hc => (plain_of_not_inUserSet (h _ hc)).2.2.1 rfl
  have hnil : password.toList ≠ [] := fun hnil =>
    hne (String.toList_inj.1 (hnil.trans String.toList_empty.symm))
  obtain ⟨c, cs, hcons⟩ := List.exists_cons_of_ne_nil hnil
  unfold parseUser
  rw [Text.splitFirst?_append hcolon, hcons]
  dsimp only
  rw [← hcons, encode_of_forall hpassword, encode_of_forall h, String.ofList_toList,
    String.ofList_toList]

/-- The user is read back, and what is left is the host and the port. -/
theorem Settled.read_user {u : Url} (hu : u.Settled toAscii) :
    ∃ user, (splitLastAt? u.authority).getD ([], u.authority) =
        (user, u.host.toList ++ portText u.port) ∧
      parseUser user = (u.username, u.password) := by
  have hserver : '@' ∉ u.host.toList ++ portText u.port := by
    intro h
    rcases List.mem_append.1 h with h | h
    · exact (hu.host_text.plain _ h).2.1 rfl
    · rcases digit_of_mem_portText h with h | h <;> cases h
  have hsplit : ∀ user, (splitLastAt? (user ++ '@' :: (u.host.toList ++ portText u.port))).getD
      ([], user ++ '@' :: (u.host.toList ++ portText u.port)) =
        (user, u.host.toList ++ portText u.port) := by
    intro user
    rw [splitLastAt?_append hserver]
    rfl
  unfold authority userText
  cases hpassword : u.password with
  | some p =>
    obtain ⟨hne, hp⟩ := hu.password p hpassword
    have htext : (u.username ++ ":" ++ p ++ "@").toList ++ (u.host.toList ++ portText u.port) =
        (u.username.toList ++ ':' :: p.toList) ++ '@' :: (u.host.toList ++ portText u.port) := by
      simp
    dsimp only
    rw [htext]
    exact ⟨_, hsplit _, parseUser_password hu.username hne hp⟩
  | none =>
    dsimp only
    split_ifs with hempty
    · refine ⟨[], ?_, ?_⟩
      · rw [String.toList_empty, List.nil_append, splitLastAt?_of_not_mem hserver]
        rfl
      · rw [hempty]
        rfl
    · have htext : (u.username ++ "@").toList ++ (u.host.toList ++ portText u.port) =
          u.username.toList ++ '@' :: (u.host.toList ++ portText u.port) := by simp
      rw [htext]
      exact ⟨_, hsplit _, parseUser_name hu.username⟩

/-! ## The port -/

theorem parsePort_toDigits {scheme : String} {port : Nat} (hle : port ≤ 65535)
    (hdefault : defaultPort? scheme ≠ some port) :
    parsePort scheme (Nat.toDigits 10 port) = .ok (some port) := by
  have hdigit : ∀ c ∈ Nat.toDigits 10 port, c.isDigit = true := fun c hc =>
    Nat.isDigit_of_mem_toDigits (by decide) (by decide) hc
  have htake : (Nat.toDigits 10 port).takeWhile (· != '\\') = Nat.toDigits 10 port := by
    refine List.takeWhile_eq_self_iff.2 fun c hc => ?_
    have hne : c ≠ '\\' := by
      rintro rfl
      cases hdigit _ hc
    simpa using hne
  unfold parsePort
  dsimp only
  rw [htake, if_neg (by simpa using hdigit), Text.natOfDigits?_toDigits (by decide) (by decide)]
  dsimp only
  rw [if_neg (by omega), if_neg (not_or.2 ⟨Nat.toDigits_ne_nil, hdefault⟩)]

/-! ## Reading -/

/-- A URL with the path, the query and the fragment of a text. -/
def withTail (u : Url) (tail : List Char) : Url :=
  { u with
    path := parsePath (splitTail tail).1
    query := (splitTail tail).2.1.map fun q => String.ofList (encode inQuerySet q)
    fragment := (splitTail tail).2.2.map fun f => String.ofList (encode inFragmentSet f) }

theorem sameServer_withTail (u : Url) (tail : List Char) : u.SameServer (u.withTail tail) :=
  ⟨rfl, rfl, rfl, rfl, rfl⟩

/-- What a URL of a special scheme is made of. -/
theorem parseSpecial_eq_ok {scheme : String} {s : List Char} {u : Url}
    (h : parseSpecial scheme s toAscii = .ok u) :
    u.scheme = scheme ∧ (∃ user, parseUser user = (u.username, u.password)) ∧
      (∃ host, specialHost host toAscii = .ok u.host) ∧
      (u.port = none ∨ ∃ digits, parsePort scheme digits = .ok u.port) ∧
      ∃ tail, u.withTail tail = u := by
  unfold parseSpecial at h
  generalize s.span (fun c => !endsAuthority true c) = sides at h
  obtain ⟨authority, behind⟩ := sides
  dsimp only at h
  generalize (splitLastAt? authority).getD ([], authority) = sides at h
  obtain ⟨user, server⟩ := sides
  dsimp only at h
  generalize splitHost false server = sides at h
  obtain ⟨host, port⟩ := sides
  dsimp only at h
  cases hhost : specialHost host toAscii with
  | error e => rw [hhost] at h; cases h
  | ok text =>
    rw [hhost] at h
    cases port with
    | nil =>
      cases h
      exact ⟨rfl, ⟨user, rfl⟩, ⟨host, hhost⟩, .inl rfl, behind, rfl⟩
    | cons colon digits =>
      cases hport : parsePort scheme digits with
      | error e => simp only [hport] at h; cases h
      | ok port =>
        simp only [hport] at h
        cases h
        exact ⟨rfl, ⟨user, rfl⟩, ⟨host, hhost⟩, .inr ⟨digits, hport⟩, behind, rfl⟩

/-- A URL that is read is one of `http` or `https`. -/
theorem exists_parseSpecial {input : String} {u : Url} (h : parse input toAscii = .ok u) :
    ∃ scheme s, (scheme = "http" ∨ scheme = "https") ∧ parseSpecial scheme s toAscii = .ok u := by
  unfold parse at h
  split at h
  · cases h
  · next scheme rest _ =>
    by_cases hspecial : isSpecial scheme = true
    · rw [if_pos hspecial] at h
      cases hparse : parseSpecial scheme (rest.dropWhile fun c => c == '/' || c == '\\')
          toAscii with
      | error e => rw [hparse] at h; cases h
      | ok v =>
        rw [hparse] at h
        change (if scheme = "http" ∨ scheme = "https" then _ else _) = _ at h
        split_ifs at h with hscheme
        cases h
        exact ⟨scheme, _, hscheme, hparse⟩
    -- other schemes are refused whatever follows them
    · rw [if_neg hspecial] at h
      split_ifs at h
      · cases hfile : checkFile rest toAscii <;> rw [hfile] at h <;> cases h
      · split at h
        · next behind _ =>
          cases hcheck : checkOpaque scheme behind <;> rw [hcheck] at h <;> cases h
        · cases h

/-- Behind the slashes, the server is read back up to the first character that ends it. -/
theorem parseSpecial_authority {u : Url} (hu : u.Settled toAscii) {tail : List Char}
    (htail : ∀ c ∈ tail.head?, endsAuthority true c = true) :
    parseSpecial u.scheme (u.authority ++ tail) toAscii = .ok (u.withTail tail) := by
  have hspan : (u.authority ++ tail).span (fun c => !endsAuthority true c) =
      (u.authority, tail) := by
    refine span_of_stop (fun a ha => ?_) (fun a ha => ?_)
    · rw [(hu.plain_authority a ha).1]; rfl
    · rw [htail a ha]; rfl
  obtain ⟨user, hsplit, huser⟩ := hu.read_user
  have hempty : splitHost false (portText u.port) = ([], portText u.port) := by
    cases u.port <;> rfl
  have hhost := hu.host_text.splitHost_append hempty
  unfold parseSpecial withTail
  rw [hspan]
  dsimp only
  rw [hsplit]
  dsimp only
  rw [hhost, huser]
  dsimp only
  rw [hu.host]
  cases hp : u.port with
  | none => rfl
  | some port =>
    simp only [portText, parsePort_toDigits (hu.port port hp).1 (hu.port port hp).2]
    rfl

/-- What cleaning leaves of a text behind visible characters: neither control characters nor spaces
at the end, and no tabs and line ends. -/
def cleanBehind (s : List Char) : List Char :=
  (Text.dropEndWhile (·.toNat ≤ 0x20) s).filter fun c => c != '\t' && c != '\n' && c != '\r'

theorem kept_of_visible {c : Char} (hc : 0x20 < c.toNat) :
    (c != '\t' && c != '\n' && c != '\r') = true := by
  have hne : ∀ d : Char, d.toNat ≤ 0x20 → c ≠ d := by
    rintro d hd rfl
    omega
  simp [hne '\t' (by decide), hne '\n' (by decide), hne '\r' (by decide)]

/-- Visible characters are not cleaned away. -/
theorem cleanBehind_append {front : List Char} (hfront : ∀ c ∈ front, 0x20 < c.toNat)
    (rest : List Char) : cleanBehind (front ++ rest) = front ++ cleanBehind rest := by
  have hblank : ∀ c ∈ front.getLast?, decide (c.toNat ≤ 0x20) = false := fun c hc => by
    simpa using hfront c (List.mem_of_getLast? hc)
  unfold cleanBehind
  rw [Text.dropEndWhile_append hblank, List.filter_append,
    List.filter_eq_self.2 fun c hc => kept_of_visible (hfront c hc)]

theorem cleanBehind_of_visible {s : List Char} (h : ∀ c ∈ s, 0x20 < c.toNat) :
    cleanBehind s = s := by
  have hs := cleanBehind_append h []
  rw [List.append_nil] at hs
  exact hs.trans (List.append_nil s)

theorem mem_cleanBehind {s : List Char} {c : Char} (hc : 0x20 < c.toNat) :
    c ∈ cleanBehind s ↔ c ∈ s := by
  have hvisible : decide (c.toNat ≤ 0x20) = false := by simpa using hc
  unfold cleanBehind
  rw [List.mem_filter, and_iff_left (kept_of_visible hc),
    @Text.mem_dropEndWhile _ (fun c => decide (c.toNat ≤ 0x20)) s c hvisible]

theorem cleanBehind_sublist (s : List Char) : (cleanBehind s).Sublist s :=
  List.filter_sublist.trans (List.rdropWhile_prefix _ _).sublist

/-- A text is left alone if it has no tabs and line ends in it and a visible character at its end. -/
theorem cleanBehind_eq_self_iff {s : List Char} : cleanBehind s = s ↔
    (∀ c ∈ s, c ∉ ['\t', '\n', '\r']) ∧ ∀ c ∈ s.getLast?, 0x20 < c.toNat := by
  have hkept : ∀ c : Char,
      (c != '\t' && c != '\n' && c != '\r') = true ↔ c ∉ ['\t', '\n', '\r'] := by
    intro c
    simp [and_assoc]
  constructor
  · intro h
    have hfilter : ∀ c ∈ s, c ∉ ['\t', '\n', '\r'] := by
      intro c hc
      rw [← h] at hc
      exact (hkept c).1 (List.mem_filter.1 hc).2
    have hdrop : Text.dropEndWhile (fun c => decide (c.toNat ≤ 0x20)) s = s := by
      refine (List.rdropWhile_prefix _ _).sublist.eq_of_length_le ?_
      have := (@List.filter_sublist _ (fun c => c != '\t' && c != '\n' && c != '\r')
        (Text.dropEndWhile (fun c => decide (c.toNat ≤ 0x20)) s)).length_le
      exact (congrArg List.length h).symm.le.trans this
    refine ⟨hfilter, fun c hc => ?_⟩
    obtain ⟨hne, rfl⟩ := List.mem_getLast?_eq_getLast hc
    simpa using List.rdropWhile_eq_self_iff.1 hdrop hne
  · rintro ⟨hfilter, hlast⟩
    unfold cleanBehind
    rw [Text.dropEndWhile_of_last fun c hc => by simpa using hlast c hc]
    exact List.filter_eq_self.2 fun c hc => (hkept c).2 (hfilter c hc)

/-- What has no white space in front is only cleaned behind. -/
theorem clean_eq_cleanBehind {s : List Char} (h : ∀ c ∈ s.head?, 0x20 < c.toNat) :
    clean s = cleanBehind s := by
  have hhead : s.dropWhile (fun c => decide (c.toNat ≤ 0x20)) = s :=
    Text.dropWhile_of_head fun c hc => by simpa using h c hc
  unfold clean
  rw [hhead]
  rfl

theorem Settled.scheme_plain {u : Url} (hu : u.Settled toAscii) : ∀ a ∈ u.scheme.toList,
    0x20 < a.toNat ∧ (a.isAlphanum || a == '+' || a == '-' || a == '.') = true := by
  have hletters : ∀ a ∈ ['h', 't', 't', 'p', 's'],
      0x20 < a.toNat ∧ (a.isAlphanum || a == '+' || a == '-' || a == '.') = true := by simp
  have hhttp : "http".toList = ['h', 't', 't', 'p'] := String.toList_ofList
  have hhttps : "https".toList = ['h', 't', 't', 'p', 's'] := String.toList_ofList
  intro a ha
  refine hletters a ?_
  rcases hu.scheme with h | h <;> rw [h] at ha
  · rw [hhttp] at ha
    exact List.mem_append_left ['s'] ha
  · rwa [hhttps] at ha

theorem Settled.splitScheme?_append {u : Url} (hu : u.Settled toAscii) (rest : List Char) :
    splitScheme? (u.scheme.toList ++ ':' :: rest) = some (u.scheme, rest) := by
  unfold splitScheme?
  rw [span_of_stop (fun a ha => (hu.scheme_plain a ha).2) (by rintro _ ⟨⟩; decide)]
  rcases hu.scheme with h | h <;> rw [h] <;> rfl

/-- Of the slashes behind the scheme, none belongs to the server. -/
theorem Settled.dropWhile_slashes {u : Url} (hu : u.Settled toAscii) (rest : List Char) :
    ('/' :: '/' :: (u.authority ++ rest)).dropWhile (fun c => c == '/' || c == '\\') =
      u.authority ++ rest := by
  rw [List.dropWhile_cons_of_pos rfl, List.dropWhile_cons_of_pos rfl]
  refine Text.dropWhile_of_head fun a ha => ?_
  obtain ⟨b, authority, hb⟩ := List.exists_cons_of_ne_nil hu.authority_ne_nil
  have hplain := (hu.plain_authority b (by rw [hb]; exact List.mem_cons_self)).1
  rw [hb] at ha
  cases ha
  simp only [endsAuthority, Bool.or_eq_false_iff] at hplain ⊢
  exact ⟨hplain.1.1.1, by simpa using hplain.2⟩

theorem Settled.visible_front {u : Url} (hu : u.Settled toAscii) :
    ∀ c ∈ u.scheme.toList ++ ':' :: '/' :: '/' :: u.authority, 0x20 < c.toNat := by
  intro c hc
  simp only [List.mem_append, List.mem_cons] at hc
  rcases hc with hc | rfl | rfl | rfl | hc
  · exact (hu.scheme_plain c hc).1
  · decide
  · decide
  · decide
  · exact (hu.plain_authority c hc).2

/-- A text that begins with the scheme and the server of a settled URL is a URL of that server, with
what follows as its tail. -/
theorem parse_authority {u : Url} (hu : u.Settled toAscii) {tail : List Char}
    (htail : ∀ c ∈ tail.head?, c = '/' ∨ c = '?' ∨ c = '#') :
    parse (String.ofList ((u.scheme.toList ++ ':' :: '/' :: '/' :: u.authority) ++ tail)) toAscii =
      .ok (u.withTail (cleanBehind tail)) := by
  have hscheme : u.scheme.toList ≠ [] := by
    rcases hu.scheme with h | h <;> rw [h] <;> simp
  have hclean : clean ((u.scheme.toList ++ ':' :: '/' :: '/' :: u.authority) ++ tail) =
      u.scheme.toList ++ ':' :: '/' :: '/' :: (u.authority ++ cleanBehind tail) := by
    rw [clean_eq_cleanBehind, cleanBehind_append hu.visible_front]
    · simp
    · intro c hc
      refine hu.visible_front c (List.mem_append_left _ ?_)
      rw [List.append_assoc, List.head?_append_of_ne_nil _ hscheme] at hc
      exact List.mem_of_mem_head? hc
  -- the character that ends the server is visible, so cleaning leaves it there
  have hends : ∀ c ∈ (cleanBehind tail).head?, endsAuthority true c = true := by
    cases tail with
    | nil => nofun
    | cons c rest =>
      have hc := htail c rfl
      have hfront : ∀ a ∈ [c], 0x20 < a.toNat := by
        rintro a ha
        rw [List.mem_singleton.1 ha]
        rcases hc with rfl | rfl | rfl <;> decide
      rw [← List.singleton_append, cleanBehind_append hfront]
      rintro _ ⟨⟩
      rcases hc with rfl | rfl | rfl <;> decide
  have hspecial : isSpecial u.scheme = true := by
    rcases hu.scheme with h | h <;> rw [h] <;> rfl
  unfold parse
  rw [String.toList_ofList, hclean, hu.splitScheme?_append]
  dsimp only
  rw [if_pos hspecial, hu.dropWhile_slashes, parseSpecial_authority hu hends]
  show (if u.scheme = "http" ∨ u.scheme = "https" then _ else _) = _
  rw [if_pos hu.scheme]
  rfl

end PolicyClient.Url
