/-
A host that has been read is read as itself again (`specialHost_settled`): a domain is in ASCII
already and has nothing to decode, and addresses are read back from their text. Nothing in a host
can be taken for the end of it.
-/
import PolicyClient.Url.Basic
import PolicyClient.Proofs.Text.Letter
import PolicyClient.Proofs.Url.Address
import PolicyClient.Proofs.Url.Percent

namespace PolicyClient.Url

/-! ## Domains in ASCII -/

/-- What writing domains in ASCII is relied upon for: a domain that is written so is left alone, and
so are digits and points. -/
structure ToAscii.Lawful (toAscii : ToAscii) : Prop where
  settled : ∀ domain ascii, toAscii domain = some ascii → toAscii ascii = some ascii
  digits : ∀ domain, (∀ c ∈ domain, c.isDigit = true ∨ c = '.') → toAscii domain = some domain

theorem lawful_lowerDomain : lowerDomain.Lawful where
  settled := by
    rintro domain _ ⟨⟩
    unfold lowerDomain
    rw [List.map_map]
    exact congrArg some (List.map_congr_left fun c _ => Char.toLower_toLower_eq_toLower c)
  digits := by
    intro domain h
    have hsame : ∀ c ∈ domain, Char.toLower c = c := by
      intro c hc
      refine Char.toLower_eq_of_not_isUpper ?_
      rcases h c hc with hdigit | rfl
      · have := Text.isDigit_iff.1 hdigit
        rw [Text.isUpper_iff]
        omega
      · decide
    exact congrArg some ((List.map_congr_left hsame).trans (List.map_id _))

/-! ## The characters of a host -/

/-- A host as it is written: without the characters that no domain holds, or between brackets. -/
inductive HostText : List Char → Prop
  | domain {domain : List Char} (ne : domain ≠ [])
      (allowed : ∀ c ∈ domain, isForbiddenInDomain c = false) : HostText domain
  | bracketed (groups : List Nat) : HostText ('[' :: ((ipv6Text groups).toList ++ [']']))

theorem mem_ipv6Text {groups : List Nat} {c : Char} (h : c ∈ (ipv6Text groups).toList) :
    c = ':' ∨ ∃ d < 16, c = Nat.digitChar d := by
  have hgroups : ∀ gs, c ∈ (groupText gs).toList → c = ':' ∨ ∃ d < 16, c = Nat.digitChar d := by
    intro gs hc
    cases gs with
    | nil => cases hc
    | cons g gs =>
      rw [toList_groupText_cons, joined, List.mem_append, List.mem_flatMap] at hc
      rcases hc with hc | ⟨p, hp, hc⟩
      · exact .inr (Text.mem_toDigits (by decide) hc)
      · rcases List.mem_cons.1 hc with rfl | hc
        · exact .inl rfl
        · obtain ⟨g, -, rfl⟩ := List.mem_map.1 hp
          exact .inr (Text.mem_toDigits (by decide) hc)
  unfold ipv6Text at h
  dsimp only at h
  split_ifs at h
  · exact hgroups _ h
  · simp only [String.toList_append, List.mem_append] at h
    rcases h with (h | h) | h
    · exact hgroups _ h
    · exact .inl (by simpa using h)
    · exact hgroups _ h

theorem ne_of_allowed {c d : Char} (hc : isForbiddenInDomain c = false)
    (hd : isForbiddenInDomain d = true) : c ≠ d :=
  ne_of_apply_ne isForbiddenInDomain (by simp [hc, hd])

theorem allowed_of_digit {c : Char} (h : c.isDigit = true ∨ c = '.') :
    isForbiddenInDomain c = false := by
  rcases h with h | rfl
  · have hnat := Text.isDigit_iff.1 h
    have hall : ∀ n, 48 ≤ n → n ≤ 57 → isForbiddenInDomain (Char.ofNat n) = false := by
      intro n hlow hhigh
      interval_cases n <;> decide
    rw [← Char.ofNat_toNat c]
    exact hall _ hnat.1 hnat.2
  · decide

namespace HostText

variable {s rest : List Char}

theorem ne_nil (h : HostText s) : s ≠ [] := by
  cases h with
  | domain ne _ => exact ne
  | bracketed groups => exact List.cons_ne_nil _ _

/-- No character of a host ends it, or is white space. -/
theorem plain (h : HostText s) :
    ∀ c ∈ s, endsAuthority true c = false ∧ c ≠ '@' ∧ 0x20 < c.toNat := by
  cases h with
  | domain _ allowed =>
    intro c hc
    have hallowed := allowed c hc
    have hne : ∀ d, isForbiddenInDomain d = true → c ≠ d := fun d => ne_of_allowed hallowed
    refine ⟨?_, hne '@' (by decide), ?_⟩
    · simp [endsAuthority, hne '/' (by decide), hne '?' (by decide), hne '#' (by decide),
        hne '\\' (by decide)]
    · simp only [isForbiddenInDomain, Bool.or_eq_false_iff, decide_eq_false_iff_not] at hallowed
      omega
  | bracketed groups =>
    have hdigit : ∀ d < 16, endsAuthority true (Nat.digitChar d) = false ∧
        Nat.digitChar d ≠ '@' ∧ 0x20 < (Nat.digitChar d).toNat := by decide
    intro c hc
    simp only [List.mem_cons, List.mem_append, List.not_mem_nil, or_false] at hc
    rcases hc with rfl | hc | rfl
    · decide
    · rcases mem_ipv6Text hc with rfl | ⟨d, hd, rfl⟩
      · decide
      · exact hdigit d hd
    · decide

/-! ## The host in front of a port -/

theorem splitHost_domain (hs : ∀ c ∈ s, c ≠ ':' ∧ c ≠ '[' ∧ c ≠ ']')
    (hrest : splitHost false rest = ([], rest)) : splitHost false (s ++ rest) = (s, rest) := by
  induction s with
  | nil => exact hrest
  | cons c s ih =>
    obtain ⟨hcolon, hopen, hclose⟩ := hs c List.mem_cons_self
    have hmore := ih fun a ha => hs a (List.mem_cons_of_mem c ha)
    rw [List.cons_append, splitHost, if_neg (fun h => hcolon h.1)]
    simp only [if_neg hopen, if_neg hclose, hmore]

theorem splitHost_bracketed {inner : List Char} (hinner : ∀ c ∈ inner, c ≠ '[' ∧ c ≠ ']')
    (hrest : splitHost false rest = ([], rest)) :
    splitHost true (inner ++ ']' :: rest) = (inner ++ [']'], rest) := by
  induction inner with
  | nil =>
    rw [List.nil_append, splitHost, if_neg (by simp)]
    simp [hrest]
  | cons c inner ih =>
    obtain ⟨hopen, hclose⟩ := hinner c List.mem_cons_self
    have hmore := ih fun a ha => hinner a (List.mem_cons_of_mem c ha)
    rw [List.cons_append, splitHost, if_neg (by simp)]
    simp only [if_neg hopen, if_neg hclose, hmore, List.cons_append]

theorem splitHost_append (h : HostText s) (hrest : splitHost false rest = ([], rest)) :
    splitHost false (s ++ rest) = (s, rest) := by
  cases h with
  | domain _ allowed =>
    refine splitHost_domain (fun c hc => ?_) hrest
    have hne : ∀ d, isForbiddenInDomain d = true → c ≠ d := fun d => ne_of_allowed (allowed c hc)
    exact ⟨hne ':' (by decide), hne '[' (by decide), hne ']' (by decide)⟩
  | bracketed groups =>
    have hinner : ∀ c ∈ (ipv6Text groups).toList, c ≠ '[' ∧ c ≠ ']' := by
      have hdigit : ∀ d < 16, Nat.digitChar d ≠ '[' ∧ Nat.digitChar d ≠ ']' := by decide
      intro c hc
      rcases mem_ipv6Text hc with rfl | ⟨d, hd, rfl⟩
      · decide
      · exact hdigit d hd
    rw [List.cons_append, List.append_assoc, List.singleton_append, splitHost, if_neg (by decide)]
    simp only [if_true, splitHost_bracketed hinner hrest]

end HostText

/-! ## Reading a host again -/

variable {toAscii : ToAscii}

theorem specialHost_of_allowed {domain : List Char} (hne : domain ≠ [])
    (hallowed : ∀ c ∈ domain, isForbiddenInDomain c = false)
    (hascii : toAscii domain = some domain) :
    specialHost domain toAscii = asciiHost domain := by
  have hmem : ∀ d, isForbiddenInDomain d = true → d ∉ domain := fun d hd hmem =>
    ne_of_allowed (hallowed d hmem) hd rfl
  have hdecode : (Utf8.text? (decode domain)).bind (fun domain => toAscii domain.toList) =
      some domain := by
    rw [decode_of_not_mem (hmem '%' (by decide)), Utf8.text?_encodeChars, Option.bind_some,
      String.toList_ofList, hascii]
  unfold specialHost
  split
  · exact absurd rfl hne
  · exact absurd List.mem_cons_self (hmem '[' (by decide))
  · rw [hdecode]

/-- A domain in ASCII is a host as it is, or an IPv4 address. -/
theorem asciiHost_eq_ok {domain : List Char} {host : String} (h : asciiHost domain = .ok host) :
    domain ≠ [] ∧ (∀ c ∈ domain, isForbiddenInDomain c = false) ∧
      (host = String.ofList domain ∨ ∃ address, host = ipv4Text address) := by
  unfold asciiHost at h
  split_ifs at h with hforbidden hne hnumber
  · refine ⟨hne, by simpa using hforbidden, .inr ?_⟩
    split at h
    · cases h; exact ⟨_, rfl⟩
    · cases h
  · cases h
    exact ⟨hne, by simpa using hforbidden, .inl rfl⟩

theorem mem_ipv4Text {address : Nat} {c : Char} (h : c ∈ (ipv4Text address).toList) :
    c.isDigit = true ∨ c = '.' := by
  have hdigits : ∀ i, c ∈ byteDigits address i → c.isDigit = true := fun i hc =>
    Nat.isDigit_of_mem_toDigits (by decide) (by decide) hc
  rw [toList_ipv4Text] at h
  simp only [joined, List.flatMap_cons, List.flatMap_nil, List.mem_append, List.mem_cons,
    List.not_mem_nil, or_false] at h
  rcases h with h | (rfl | h) | (rfl | h) | rfl | h
  · exact .inl (hdigits _ h)
  · exact .inr rfl
  · exact .inl (hdigits _ h)
  · exact .inr rfl
  · exact .inl (hdigits _ h)
  · exact .inr rfl
  · exact .inl (hdigits _ h)

theorem asciiHost_ipv4Text (address : Nat) :
    asciiHost (ipv4Text address).toList = .ok (ipv4Text address) := by
  obtain ⟨same, hread, hsame⟩ := ipv4?_ipv4Text address
  have hallowed : (ipv4Text address).toList.any isForbiddenInDomain = false := by
    simpa using fun c hc => allowed_of_digit (mem_ipv4Text hc)
  have hne : (ipv4Text address).toList ≠ [] := by
    rw [toList_ipv4Text]
    exact fun hnil => Nat.toDigits_ne_nil (List.append_eq_nil_iff.1 hnil).1
  unfold asciiHost
  rw [if_neg (by rw [hallowed]; decide), if_neg hne, if_pos (endsInNumber_ipv4Text address), hread]
  exact congrArg _ hsame

theorem bracketedHost_ipv6Text {groups : List Nat} (hlength : groups.length = 8)
    (h : ∀ g ∈ groups, g < 65536) : bracketedHost ((ipv6Text groups).toList ++ [']']) =
      .ok ("[" ++ ipv6Text groups ++ "]") := by
  unfold bracketedHost
  rw [if_pos List.getLast?_concat, List.dropLast_concat, ipv6?_ipv6Text hlength h]

/-- A host that has been read is read as itself. -/
theorem specialHost_settled (hlaw : toAscii.Lawful) {s : List Char} {host : String}
    (h : specialHost s toAscii = .ok host) :
    HostText host.toList ∧ specialHost host.toList toAscii = .ok host := by
  unfold specialHost at h
  split at h
  · cases h
  · unfold bracketedHost at h
    split_ifs at h
    split at h
    · next groups hgroups =>
      cases h
      obtain ⟨hlength, hlt⟩ := groups_of_ipv6? hgroups
      have htext : ("[" ++ ipv6Text groups ++ "]").toList =
          '[' :: ((ipv6Text groups).toList ++ [']']) := by simp
      rw [htext]
      exact ⟨.bracketed groups, bracketedHost_ipv6Text hlength hlt⟩
    · cases h
  · split at h
    · cases h
    · next domain hdomain =>
      obtain ⟨text, -, hascii⟩ := Option.bind_eq_some_iff.1 hdomain
      -- an IPv4 address is not the domain it was read from, so it is read on its own
      obtain ⟨hne, hallowed, rfl | ⟨address, rfl⟩⟩ := asciiHost_eq_ok h
      · rw [String.toList_ofList]
        exact ⟨.domain hne hallowed,
          (specialHost_of_allowed hne hallowed (hlaw.settled _ _ hascii)).trans h⟩
      · have hdigits := fun c (hc : c ∈ (ipv4Text address).toList) => mem_ipv4Text hc
        have hallowed := fun c hc => allowed_of_digit (hdigits c hc)
        have hne : (ipv4Text address).toList ≠ [] := (asciiHost_eq_ok (asciiHost_ipv4Text address)).1
        exact ⟨.domain hne hallowed, (specialHost_of_allowed hne hallowed
          (hlaw.digits _ hdigits)).trans (asciiHost_ipv4Text address)⟩

end PolicyClient.Url
