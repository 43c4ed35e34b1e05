/-
The headers that go on the wire (`prepare_headers`): what the settings in effect come to, whatever
the order of the steps in which a request was put together.
-/
import PolicyClient.Proofs.Client.Charset
import PolicyClient.Proofs.Http.Draft

namespace PolicyClient.Client

open RequestHeaders (Setting contentTypeAfter acceptAfter)

/-- The content type goes on the wire just if there is a body, reads back as the one that the body
is written for, and is the only header of its name. The accepted types follow unless there are none
or the caller set a header of their own. Behind them come the caller's headers in effect. -/
theorem prepare_headers (c : Client) (method path : String) {parts : List Draft.Part}
    {steps : List Draft.Step} {r : Request} (hbuilt : ∀ part ∈ parts, part.Built)
    (hsteps : parts.mapM Draft.Part.step = .ok steps)
    (h : c.prepare ((Draft.of method path).applyAll steps) = .ok r) :
    let settings := Draft.inEffect parts
    let contentType := contentTypeAfter settings
    let accepted := acceptAfter settings
    let own := settings.filterMap Setting.own?
    let body := Draft.lastBody parts
    let typePair := if body.isSome then [("Content-Type", contentType.render)] else []
    r.headers = typePair ++
        (if accepted ≠ [] ∧ ∀ e ∈ own, Text.sameName e.1 "Accept" = false then
          [("Accept", MediaType.renderList accepted)] else []) ++ own ∧
      r.headers.filter (Text.sameName ·.1 "Content-Type") = typePair ∧
      MediaType.parse contentType.render = .ok contentType ∧
      c.registry.write (some contentType) body = .ok r.body := by
  intro settings contentType accepted own body typePair
  obtain ⟨hspoiled, -, hwrite, -, hheaders⟩ := prepare_eq_ok h
  have hdefault : (Draft.of method path).headers = .after [] := rfl
  obtain ⟨hafter, hbody⟩ :=
    Draft.applyAll_parts (Fallible.mapM_eq_ok_iff.1 hsteps) hdefault hspoiled
  have hlast : ((Draft.of method path).applyAll steps).body = body := by
    rw [hbody]
    exact Option.or_none
  rw [hafter, hlast] at hheaders hwrite
  have hproper : ∀ s ∈ settings, s.Built := Draft.built_foldl_effect hbuilt (by simp)
  refine ⟨?_, ?_, ?_, hwrite⟩
  · rw [hheaders]
    exact RequestHeaders.pairs_after settings body.isSome
  · rw [hheaders]
    exact RequestHeaders.filter_pairs settings body.isSome
  · exact MediaType.parse_render_of_built (RequestHeaders.built_contentTypeAfter hproper)

/-- Headers given whole between others, with an `Accept` of the caller's own. -/
theorem prepare_headers_replaced :
    let latin1 : MediaType := ⟨"text", "plain", [("charset", "latin1")], some .windows1252⟩
    let given : RequestHeaders := ⟨.applicationJson, [latin1], [("X-Id", "7")]⟩
    let parts : List Draft.Part := [.set (.header "X-Trace" "1"),
      .replace [.header "X-Id" "7", .accept [latin1]],
      .set (.header "content-TYPE" "text/plain;charset=latin1"), .body (.text "é"),
      .set (.header "ACCEPT" "*/*")]
    let steps : List Draft.Step := [.header "X-Trace" "1", .headers given,
      .header "content-TYPE" "text/plain;charset=latin1", .body (.text "é"),
      .header "ACCEPT" "*/*"]
    let c : Client := ⟨⟨"http", "", none, "opa", none, [""], none, none⟩, .standard, {}⟩
    (∀ part ∈ parts, part.Built) ∧ parts.mapM Draft.Part.step = .ok steps ∧
      ∃ r, c.prepare ((Draft.of "PUT" "v1/policies/a").applyAll steps) = .ok r ∧
        r.headers = [("Content-Type", "text/plain;charset=latin1"), ("X-Id", "7"),
          ("ACCEPT", "*/*")] ∧
        MediaType.parse latin1.render = .ok latin1 ∧ r.body = [0xE9] := by
  intro latin1 given parts steps c
  have hbuilt : ∀ part ∈ parts, part.Built := by
    simp [parts, Draft.Part.Built, Setting.Built]
  have hsteps : parts.mapM Draft.Part.step = .ok steps := rfl
  have hprepare : c.prepare ((Draft.of "PUT" "v1/policies/a").applyAll steps) =
      .ok ⟨"PUT", ⟨"http", "", none, "opa", none, ["v1", "policies", "a"], none, none⟩,
        [("Content-Type", "text/plain;charset=latin1"), ("X-Id", "7"), ("ACCEPT", "*/*")],
        [0xE9]⟩ := by decide +kernel
  obtain ⟨-, -, hparse, -⟩ := prepare_headers c "PUT" "v1/policies/a" hbuilt hsteps hprepare
  have hlatin1 : contentTypeAfter (Draft.inEffect parts) = latin1 := by decide +kernel
  rw [hlatin1] at hparse
  exact ⟨hbuilt, hsteps, _, hprepare, rfl, hparse, rfl⟩

end PolicyClient.Client
