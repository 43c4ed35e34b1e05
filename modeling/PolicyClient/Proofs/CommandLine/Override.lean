/-
A URL among the arguments, over the one in a file. The settings that the client is built from are those
of the file with the other URL, but the file is checked as it stands before its URL is replaced
(`client_of_file`). So the URL of the file still counts: the client is the one of the replaced URL as
long as the file would do by itself, and its own fault is reported otherwise (`client_of_override`).
How the file is written does not matter, so any reader of settings may read it.
-/
import Mathlib
import PolicyClient.CommandLine.Run

namespace PolicyClient

variable {toAscii : Url.ToAscii}

/-! ## Valid settings -/

namespace Settings

/-- The timeout that is zero, the one of the connection before that of the request. -/
def limitFault? (s : Settings) : Option SettingsFault :=
  if s.connectTimeout = 0 then some .noConnectTimeout
  else if s.requestTimeout = 0 then some .noRequestTimeout
  else none

/-- Settings are checked for their URL first, and then for their timeouts. -/
theorem validate_eq (s : Settings) (toAscii : Url.ToAscii) :
    s.validate toAscii = match s.baseUrl toAscii with
      | .error e => .error e
      | .ok _ => match s.limitFault? with
        | some fault => .error (.settings fault)
        | none => .ok s := by
  unfold validate limitFault?
  rcases s.baseUrl toAscii with e | base
  · rfl
  · by_cases hconnect : s.connectTimeout = 0
    · simp only [hconnect, if_true]; rfl
    · by_cases hrequest : s.requestTimeout = 0
      · simp only [hconnect, hrequest, if_false, if_true]; rfl
      · simp only [hconnect, hrequest, if_false]; rfl

/-- The fault of a URL names the URL. -/
theorem url_of_baseUrl {s : Settings} {e : ClientError} (h : s.baseUrl toAscii = .error e) :
    ∃ fault, e = .url s.url fault := by
  unfold baseUrl at h
  rcases hparse : Url.parse s.url toAscii with fault | base
  · rw [hparse] at h; cases h; exact ⟨fault, rfl⟩
  · rw [hparse] at h; cases h

end Settings

namespace ClientOptions

theorem build_eq (o : ClientOptions) (toAscii : Url.ToAscii) :
    o.build toAscii = match o.effective.baseUrl toAscii with
      | .error e => .error e
      | .ok base => match o.effective.limitFault? with
        | some fault => .error (.settings fault)
        | none => .ok ⟨base, o.registry, o.effective.logging⟩ := by
  unfold build
  rw [Settings.validate_eq]
  rcases hbase : o.effective.baseUrl toAscii with e | base
  · rfl
  · cases o.effective.limitFault? with
    | some fault => rfl
    | none =>
      change (o.effective.baseUrl toAscii).bind _ = _
      rw [hbase]; rfl

end ClientOptions

namespace CommandLine

/-! ## The client of a file -/

/-- The error of a client that a failure is about. -/
def Failure.client? : Failure → Option ClientError
  | .settings _ error => some error
  | .client error => some error
  | _ => none

namespace Arguments

/-- What the client is built from, given the settings of the file. -/
def options (a : Arguments) (settings : Settings) : ClientOptions :=
  { settings, url := a.url, logging := if a.quiet then some .none else none }

/-- The same arguments without a URL. -/
def withoutUrl (a : Arguments) : Arguments :=
  { a with url := none }

variable {read : Settings.Reader} {a : Arguments} {files : Files} {path text u : String}
  {s : Settings}

/-- The settings of a file are checked as they stand, before the arguments take their place. -/
theorem client_of_file (hpath : a.config = some path) (htext : files.text path = .ok text)
    (hread : read text = .ok s) :
    a.client files toAscii read = match s.validate toAscii with
      | .error e => .error (.settings path e)
      | .ok _ => ((a.options s).build toAscii).mapError .client := by
  unfold client loadSettings Settings.load
  rw [hpath]
  dsimp only
  rw [htext]
  dsimp only
  rw [hread]
  have hload : (do
      (← (Except.ok s : Except SettingsFault Settings).mapError .settings).validate toAscii) =
        s.validate toAscii := rfl
  rw [hload, Settings.validate_eq]
  rcases s.baseUrl toAscii with e | base
  · rfl
  · cases s.limitFault? <;> rfl

/-- The client is built from the settings of the file with the URL of the arguments. -/
theorem effective_options (hurl : a.url = some u) (s : Settings) :
    (a.options s).effective = (a.withoutUrl.options { s with url := u }).effective := by
  unfold options withoutUrl ClientOptions.effective
  rw [hurl]; rfl

theorem build_options (hurl : a.url = some u) (s : Settings) (toAscii : Url.ToAscii) :
    (a.options s).build toAscii = (a.withoutUrl.options { s with url := u }).build toAscii := by
  rw [ClientOptions.build_eq, ClientOptions.build_eq, effective_options hurl]; rfl

/-- What the settings of a file come to, once the arguments have replaced their URL. -/
theorem client_of_overridden (hpath : a.config = some path) (htext : files.text path = .ok text)
    (hread : read text = .ok s) (hurl : a.url = some u) :
    a.client files toAscii read = match s.baseUrl toAscii with
      | .error e => .error (.settings path e)
      | .ok _ => match s.limitFault? with
        | some fault => .error (.settings path (.settings fault))
        | none => ((a.withoutUrl.options { s with url := u }).build toAscii).mapError .client := by
  rw [client_of_file hpath htext hread, build_options hurl, Settings.validate_eq]
  rcases s.baseUrl toAscii with e | base
  · rfl
  · cases s.limitFault? <;> rfl

/-- The replaced settings have the timeouts of the file, and the URL of the arguments. -/
theorem build_replaced (s : Settings) (u : String) (toAscii : Url.ToAscii) :
    (a.withoutUrl.options { s with url := u }).build toAscii =
      match { s with url := u }.baseUrl toAscii with
      | .error e => .error e
      | .ok base => match s.limitFault? with
        | some fault => .error (.settings fault)
        | none => .ok ⟨base, .standard, (a.options s).effective.logging⟩ :=
  ClientOptions.build_eq _ _

/-- The error is the same, or the client, just if no fault of the file comes before that of its
replacement. -/
theorem same_outcome_iff (hpath : a.config = some path) (htext : files.text path = .ok text)
    (hread : read text = .ok s) (hurl : a.url = some u) :
    (a.client files toAscii read).mapError Failure.client? =
        ((a.withoutUrl.options { s with url := u }).build toAscii).mapError some ↔
      (∃ base, s.baseUrl toAscii = .ok base) ∧
        (s.limitFault? = none ∨ ∃ base, { s with url := u }.baseUrl toAscii = .ok base) ∨
      u = s.url := by
  rw [client_of_overridden hpath htext hread hurl]
  have hbuild := build_replaced (a := a) s u toAscii
  rcases hbase : s.baseUrl toAscii with e | base
  · constructor
    · -- the fault names the URL of the file, so that the same fault is one of the same URL
      intro h
      obtain ⟨fault, rfl⟩ := Settings.url_of_baseUrl hbase
      rw [hbuild] at h
      rcases hnew : { s with url := u }.baseUrl toAscii with e' | base'
      · obtain ⟨fault', rfl⟩ := Settings.url_of_baseUrl hnew
        rw [hnew] at h
        cases h; exact .inr rfl
      · rw [hnew] at h
        cases hlimit : s.limitFault? <;> rw [hlimit] at h <;> cases h
    · rintro (⟨⟨_, h⟩, _⟩ | rfl)
      · cases h
      · rw [hbuild, hbase]; rfl
  · constructor
    · intro h
      refine .inl ⟨⟨base, rfl⟩, ?_⟩
      rcases hlimit : s.limitFault? with _ | fault
      · exact .inl rfl
      · rcases hnew : { s with url := u }.baseUrl toAscii with e' | base'
        · obtain ⟨fault', rfl⟩ := Settings.url_of_baseUrl hnew
          rw [hbuild, hnew] at h
          dsimp only at h
          rw [hlimit] at h; cases h
        · exact .inr ⟨base', hnew⟩
    · intro h
      have hnew : s.limitFault? = none ∨ ∃ base, { s with url := u }.baseUrl toAscii = .ok base := by
        rcases h with ⟨-, hnew⟩ | rfl
        · exact hnew
        · exact .inr ⟨base, hbase⟩
      rcases hlimit : s.limitFault? with _ | fault
      · dsimp only
        cases (a.withoutUrl.options { s with url := u }).build toAscii <;> rfl
      · obtain ⟨base', hnew⟩ := hnew.resolve_left (by rw [hlimit]; simp)
        rw [hbuild, hnew]
        dsimp only
        rw [hlimit]; rfl

/-- A URL in the arguments replaces the one of the file in the settings that the client is built from.
The file is checked before that. If it would do by itself, the outcome is that of the replaced
settings, a client or an error; otherwise its own fault is reported. Both tell of the same error, or
give the same client, just if the URL of the file is one of a server and the fault of a timeout, if
there is one, is not behind a fault of the new URL; or if the URL is replaced by itself. Two files that
differ in their URLs only, both of servers, have the same outcome. -/
theorem client_of_override (hpath : a.config = some path) (htext : files.text path = .ok text)
    (hread : read text = .ok s) (hurl : a.url = some u) :
    let replaced := a.withoutUrl.options { s with url := u }
    (a.options s).effective = replaced.effective ∧
    (∀ v, s.validate toAscii = .ok v →
      a.client files toAscii read = (replaced.build toAscii).mapError .client) ∧
    (∀ e, s.validate toAscii = .error e →
      a.client files toAscii read = .error (.settings path e)) ∧
    ((a.client files toAscii read).mapError Failure.client? = (replaced.build toAscii).mapError some ↔
      (∃ base, s.baseUrl toAscii = .ok base) ∧
        (s.limitFault? = none ∨ ∃ base, { s with url := u }.baseUrl toAscii = .ok base) ∨
      u = s.url) ∧
    ∀ other file s', Files.text other path = .ok file → read file = .ok s' →
      s' = { s with url := s'.url } → (∃ base, s.baseUrl toAscii = .ok base) →
      (∃ base, s'.baseUrl toAscii = .ok base) →
        a.client other toAscii read = a.client files toAscii read := by
  intro replaced
  refine ⟨effective_options hurl s, fun v hv => ?_, fun e he => ?_,
    same_outcome_iff hpath htext hread hurl, ?_⟩
  · rw [client_of_file hpath htext hread, hv, build_options hurl]
  · rw [client_of_file hpath htext hread, he]
  · rintro other file s' htext' hread' hsame ⟨base, hbase⟩ ⟨base', hbase'⟩
    rw [client_of_overridden hpath htext hread hurl, client_of_overridden hpath htext' hread' hurl,
      hbase, hbase', hsame]
    rfl

/-- Lists the policies of `http://opa:8181`, with settings from a file. -/
def listPoliciesOfOpa : Arguments :=
  ⟨some "http://opa:8181", some "c.yaml", false, .listPolicies⟩

/-- The same file under every name. -/
def everyFile (text : String) : Files :=
  fun _ => .ok (Utf8.encode text)

theorem baseUrl_opa : Settings.baseUrl { url := "http://opa:8181" } =
    .ok ⟨"http", "", none, "opa", some 8181, [""], none, none⟩ := by decide +kernel

/-- A file that would do by itself. -/
theorem client_of_override_sound :
    let files := everyFile "url: https://config:8443\nconnect_timeout_secs: 7"
    ∃ s, listPoliciesOfOpa.config = some "c.yaml" ∧
      files.text "c.yaml" = .ok "url: https://config:8443\nconnect_timeout_secs: 7" ∧
      Settings.ofText "url: https://config:8443\nconnect_timeout_secs: 7" = .ok s ∧
      listPoliciesOfOpa.url = some "http://opa:8181" ∧ s.validate = .ok s ∧
      listPoliciesOfOpa.client files =
        .ok ⟨⟨"http", "", none, "opa", some 8181, [""], none, none⟩, .standard, .verbose⟩ := by
  intro files
  have htext : files.text "c.yaml" = .ok "url: https://config:8443\nconnect_timeout_secs: 7" := by
    decide +kernel
  have hread : Settings.ofText "url: https://config:8443\nconnect_timeout_secs: 7" =
      .ok { url := "https://config:8443", connectTimeout := 7 } := by decide +kernel
  have hvalid : Settings.validate { url := "https://config:8443", connectTimeout := 7 } =
      .ok { url := "https://config:8443", connectTimeout := 7 } := by decide +kernel
  have hurl : listPoliciesOfOpa.url = some "http://opa:8181" := rfl
  obtain ⟨-, hbuilt, -⟩ := client_of_override rfl htext hread hurl
  refine ⟨_, rfl, htext, hread, hurl, hvalid, ?_⟩
  rw [hbuilt _ hvalid, build_replaced]
  dsimp only
  rw [show Settings.baseUrl { url := "http://opa:8181", connectTimeout := 7 } = _ from baseUrl_opa]
  rfl

/-- The URL of the file is none, so the file is refused, though its URL is not to be used. -/
theorem client_of_override_broken :
    let files := everyFile "url: not a url"
    let s : Settings := { url := "not a url" }
    listPoliciesOfOpa.config = some "c.yaml" ∧ files.text "c.yaml" = .ok "url: not a url" ∧
      Settings.ofText "url: not a url" = .ok s ∧ listPoliciesOfOpa.url = some "http://opa:8181" ∧
      listPoliciesOfOpa.client files = .error (.settings "c.yaml" (.url "not a url" .noBase)) ∧
      (listPoliciesOfOpa.withoutUrl.options { s with url := "http://opa:8181" }).build =
        .ok ⟨⟨"http", "", none, "opa", some 8181, [""], none, none⟩, .standard, .verbose⟩ := by
  intro files s
  have htext : files.text "c.yaml" = .ok "url: not a url" := by decide +kernel
  have hread : Settings.ofText "url: not a url" = .ok s := by decide +kernel
  have hbase : s.baseUrl = .error (.url "not a url" .noBase) := by decide +kernel
  refine ⟨rfl, htext, hread, rfl, ?_, ?_⟩
  · rw [client_of_overridden rfl htext hread rfl, hbase]
  · rw [build_replaced, baseUrl_opa]; rfl

end Arguments
end CommandLine
end PolicyClient
