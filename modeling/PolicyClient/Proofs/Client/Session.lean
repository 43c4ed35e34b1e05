/-
Operations one after the other. Each sends one request at most, and is answered by the response
whose turn it is (`performAll_session`). What an operation leaves behind is how many responses are
left, so the outcomes of those behind it depend on no more than that.
-/
import PolicyClient.Api.Compilation
import PolicyClient.Api.Data
import PolicyClient.Api.Policies
import PolicyClient.Api.Queries
import PolicyClient.Proofs.Http.Draft

namespace PolicyClient

/-! ## Operations -/

/-- An operation of a client, by the type of its value. What is put as a document may turn out to
be none, and a request may be put together by hand. -/
inductive Operation : Type → Type 1
  | listPolicies : Operation (List Policy)
  | getPolicy (id : String) : Operation Policy
  | putPolicy (id raw : String) : Operation Unit
  | deletePolicy (id : String) : Operation Unit
  | putData (location : String) (data : Except ConversionError Document) : Operation Unit
  | getData {α : Type} (form : Form α) (location : String) : Operation (Option α)
  | ask (query : String) : Operation (List Members)
  | compile (compilation : Compilation) : Operation Residue
  | request {α : Type} (method path : String) (steps : List Draft.Step) (decoder : Decoder α) :
    Operation α

namespace Operation

/-- The call of an operation. There is none for what is no document. -/
def call : {α : Type} → Operation α → Except ConversionError (Call α)
  | _, .listPolicies => .ok Policy.list
  | _, .getPolicy id => .ok (Policy.get id)
  | _, .putPolicy id raw => .ok (Policy.put id raw)
  | _, .deletePolicy id => .ok (Policy.delete id)
  | _, .putData location data => data.map (Data.put location)
  | _, .getData form location => .ok (Data.get form location)
  | _, .ask query => .ok (AdHoc.ask query)
  | _, .compile compilation => .ok compilation.call
  | _, .request method path steps decoder =>
    .ok ⟨(Draft.of method path).applyAll steps, decoder⟩

/-- The steps that are taken by hand. -/
def steps : {α : Type} → Operation α → List Draft.Step
  | _, .request _ _ steps _ => steps
  | _, _ => []

/-- Some header step sets a content type that is no media type. -/
def Spoiled {α : Type} (op : Operation α) : Prop :=
  ∃ step ∈ op.steps, step.Spoils

end Operation

/-- An operation of any value. -/
abbrev Operation.Any : Type 1 := Σ α : Type, Operation α

/-- The outcome of an operation of any value. -/
abbrev Outcome : Type 1 := Σ α : Type, Except ClientError α

namespace Client

/-- The outcome of an operation, and the network after it. -/
def perform {α : Type} (c : Client) (op : Operation α) (s : Script) :
    Except ClientError α × Script :=
  match op.call with
  | .error e => (.error (.conversion e), s)
  | .ok call => c.run call s

/-- The outcomes of operations one after the other, and the network after them. -/
def performAll (c : Client) : List Operation.Any → Script → List Outcome × Script
  | [], s => ([], s)
  | op :: ops, s =>
    let first := c.perform op.2 s
    let rest := c.performAll ops first.2
    (⟨op.1, first.1⟩ :: rest.1, rest.2)

/-- The URL of an operation does not resolve. -/
def Unresolved {α : Type} (c : Client) (op : Operation α) : Prop :=
  ∃ call e, op.call = .ok call ∧ c.resolve call.draft.path = .error e

/-- The body of an operation is no document, or no converter makes bytes of it. -/
def Unconverted {α : Type} (c : Client) (op : Operation α) : Prop :=
  (∃ e, op.call = .error e) ∨ ∃ call e, op.call = .ok call ∧
    c.registry.write (some call.draft.headers.contentType) call.draft.body = .error e

/-- The request of an operation does not come about. -/
def Unsendable {α : Type} (c : Client) (op : Operation α) : Prop :=
  op.Spoiled ∨ c.Unresolved op ∨ c.Unconverted op

/-- The outcome of a request, by the response to it. -/
def answered {α : Type} (c : Client) (decoder : Decoder α) : Option Response → Except ClientError α
  | none => .error (.transport (.connection "no response queued"))
  | some response => c.receive decoder response

variable {c : Client} {α β : Type} {s t : Script}

/-! ## When there is a request -/

theorem prepare_fails_iff {d : Draft} : (∃ e, c.prepare d = .error e) ↔
    d.spoiled.isSome = true ∨ (∃ e, c.resolve d.path = .error e) ∨
      ∃ e, c.registry.write (some d.headers.contentType) d.body = .error e := by
  unfold prepare
  cases d.spoiled with
  | some e => exact ⟨fun _ => .inl rfl, fun _ => ⟨_, rfl⟩⟩
  | none =>
    cases hurl : c.resolve d.path with
    | error e => exact ⟨fun _ => .inr (.inl ⟨e, rfl⟩), fun _ => ⟨e, rfl⟩⟩
    | ok url =>
      cases hbody : c.registry.write (some d.headers.contentType) d.body with
      | error e => exact ⟨fun _ => .inr (.inr ⟨e, rfl⟩), fun _ => ⟨.conversion e, rfl⟩⟩
      | ok bytes =>
        refine ⟨?_, ?_⟩
        · rintro ⟨e, h⟩
          cases h
        · rintro (h | ⟨e, h⟩ | ⟨e, h⟩) <;> cases h

/-- Only what is put together by hand is ever spoiled. -/
theorem spoiled_iff {op : Operation α} {call : Call α} (h : op.call = .ok call) :
    call.draft.spoiled.isSome = true ↔ op.Spoiled := by
  have hnone : ∀ (d : Draft), d.spoiled = none →
      (d.spoiled.isSome = true ↔ ∃ step ∈ ([] : List Draft.Step), step.Spoils) := by
    intro d hd
    simp [hd]
  cases op with
  | putData location data =>
    cases data with
    | error e => cases h
    | ok d => cases h; exact hnone _ rfl
  | request method path steps decoder =>
    cases h
    exact Draft.applyAll_spoiled_iff.trans (by simp [Draft.of, Operation.Spoiled, Operation.steps])
  | _ => cases h; exact hnone _ rfl

theorem unsendable_iff {op : Operation α} : c.Unsendable op ↔
    (∃ e, op.call = .error e) ∨ ∃ call e, op.call = .ok call ∧ c.prepare call.draft = .error e := by
  unfold Unsendable Unresolved Unconverted
  cases hcall : op.call with
  | error e => simp
  | ok call =>
    have hfails := @prepare_fails_iff c call.draft
    rw [spoiled_iff hcall] at hfails
    simpa using hfails.symm

/-! ## One operation -/

/-- An operation either fails without a look at the network, or has one exchange with it. -/
theorem perform_cases (c : Client) (op : Operation α) :
    (c.Unsendable op ∧ ∃ e, ∀ s, c.perform op s = (.error e, s)) ∨
    (¬ c.Unsendable op ∧ ∃ call r, op.call = .ok call ∧ c.prepare call.draft = .ok r ∧
      ∀ s, c.perform op s = (c.answered call.decoder s.responses.head?,
        ⟨s.responses.tail, s.sent ++ [r]⟩)) := by
  rw [unsendable_iff]
  unfold perform
  cases hcall : op.call with
  | error e => exact .inl ⟨.inl ⟨e, rfl⟩, _, fun s => rfl⟩
  | ok call =>
    dsimp only
    unfold run
    cases hprepare : c.prepare call.draft with
    | error e => exact .inl ⟨.inr ⟨call, e, rfl, hprepare⟩, e, fun s => rfl⟩
    | ok r =>
      refine .inr ⟨?_, call, r, rfl, hprepare, fun s => ?_⟩
      · rintro (⟨e, h⟩ | ⟨call', e, h, herror⟩)
        · cases h
        · cases h
          rw [hprepare] at herror
          cases herror
      · obtain ⟨_ | ⟨response, responses⟩, sent⟩ := s <;> rfl

theorem sent_perform (c : Client) (op : Operation α) (s : Script) :
    s.sent <+: (c.perform op s).2.sent := by
  obtain ⟨-, e, h⟩ | ⟨-, call, r, -, -, h⟩ := c.perform_cases op
  · rw [h]
  · rw [h]
    exact List.prefix_append _ _

/-- The outcome depends on the responses that are left, and so do those left behind it. -/
theorem perform_congr (op : Operation α) (h : s.responses = t.responses) :
    (c.perform op s).1 = (c.perform op t).1 ∧
      (c.perform op s).2.responses = (c.perform op t).2.responses := by
  obtain ⟨-, e, hop⟩ | ⟨-, call, r, -, -, hop⟩ := c.perform_cases op
  · rw [hop, hop]
    exact ⟨rfl, h⟩
  · rw [hop, hop, h]
    exact ⟨rfl, rfl⟩

/-! ## All operations -/

/-- Each request has taken one response, as long as there were any. -/
def Served (responses : List Response) (s : Script) : Prop :=
  s.responses = responses.drop s.sent.length

theorem Served.perform {responses : List Response} (h : Served responses s) (op : Operation α) :
    Served responses (c.perform op s).2 := by
  obtain ⟨-, e, hop⟩ | ⟨-, call, r, -, -, hop⟩ := c.perform_cases op
  · rw [hop]
    exact h
  · rw [hop]
    unfold Served at h ⊢
    rw [h, List.tail_drop, List.length_append, List.length_singleton]

theorem Served.performAll {responses : List Response} (h : Served responses s)
    (ops : List Operation.Any) : Served responses (c.performAll ops s).2 := by
  induction ops generalizing s with
  | nil => exact h
  | cons op ops ih => exact ih (h.perform op.2)

theorem sent_performAll (c : Client) (ops : List Operation.Any) (s : Script) :
    s.sent <+: (c.performAll ops s).2.sent := by
  induction ops generalizing s with
  | nil => exact List.prefix_rfl
  | cons op ops ih => exact (c.sent_perform op.2 s).trans (ih _)

theorem performAll_congr (ops : List Operation.Any) (h : s.responses = t.responses) :
    (c.performAll ops s).1 = (c.performAll ops t).1 := by
  induction ops generalizing s t with
  | nil => rfl
  | cons op ops ih =>
    obtain ⟨houtcome, hleft⟩ := perform_congr op.2 h
    show _ :: _ = _ :: _
    rw [houtcome, ih hleft]

theorem performAll_append (ops ops' : List Operation.Any) (s : Script) :
    c.performAll (ops ++ ops') s =
      ((c.performAll ops s).1 ++ (c.performAll ops' (c.performAll ops s).2).1,
        (c.performAll ops' (c.performAll ops s).2).2) := by
  induction ops generalizing s with
  | nil => rfl
  | cons op ops ih =>
    rw [List.cons_append, performAll, performAll, ih]
    rfl

theorem length_performAll (ops : List Operation.Any) (s : Script) :
    (c.performAll ops s).1.length = ops.length := by
  induction ops generalizing s with
  | nil => rfl
  | cons op ops ih => exact congrArg (· + 1) (ih _)

/-- Only the operations behind one are behind its outcome. -/
theorem drop_performAll (before after : List Operation.Any) (op : Operation α) (s : Script) :
    (c.performAll (before ++ ⟨α, op⟩ :: after) s).1.drop (before.length + 1) =
      (c.performAll after (c.perform op (c.performAll before s).2).2).1 := by
  rw [performAll_append, ← @length_performAll c before s, List.drop_length_add_append]
  rfl

/-- A response of any other status is refused with its status. -/
theorem receive_of_status (decoder : Decoder α) {response : Response}
    (h : response.status < 200 ∨ 299 < response.status) :
    c.receive decoder response =
      .error (.status response.status (Utf8.lossy response.body)) := by
  have hsuccess : response.isSuccess = false := by
    unfold Response.isSuccess
    simp only [UInt16.lt_iff_toNat_lt, UInt16.le_iff_toNat_le, Bool.and_eq_false_iff,
      decide_eq_false_iff_not] at h ⊢
    change response.status.toNat < 200 ∨ 299 < response.status.toNat at h
    change ¬ 200 ≤ response.status.toNat ∨ ¬ response.status.toNat < 300
    omega
  unfold receive
  rw [hsuccess]
  rfl

/-- At any place of any session, the outcome of the operation stands there. An operation that
cannot be sent fails and the network does not see it; any other sends its one request, and its
outcome is that of the response whose turn it is. The outcomes behind it do not change if another
operation takes its place that sends as many requests. -/
theorem performAll_session (c : Client) (responses : List Response)
    (before after : List Operation.Any) {α : Type} (op : Operation α) :
    let start : Script := ⟨responses, []⟩
    let reached := (c.performAll before start).2
    let outcome := (c.perform op reached).1
    let next := (c.perform op reached).2
    let all := c.performAll (before ++ ⟨α, op⟩ :: after) start
    (all.1[before.length]? = some ⟨α, outcome⟩ ∧ next.sent <+: all.2.sent) ∧
      (c.Unsendable op → next.sent = reached.sent ∧ ∃ e, outcome = .error e) ∧
      (¬ c.Unsendable op → ∃ call r, op.call = .ok call ∧ c.prepare call.draft = .ok r ∧
        next.sent = reached.sent ++ [r] ∧
        outcome = c.answered call.decoder responses[reached.sent.length]? ∧
        ∀ response, responses[reached.sent.length]? = some response →
          response.status < 200 ∨ 299 < response.status →
            outcome = .error (.status response.status (Utf8.lossy response.body))) ∧
      ∀ {β : Type} (other : Operation β),
        (c.perform other reached).2.sent.length = next.sent.length →
          (c.performAll (before ++ ⟨β, other⟩ :: after) start).1.drop (before.length + 1) =
            all.1.drop (before.length + 1) := by
  intro start reached outcome next all
  -- the responses that the operation finds are told by the requests sent before it
  have hstart : Served responses start := rfl
  have hserved : Served responses reached := hstart.performAll before
  have hall : all = ((c.performAll before start).1 ++ ⟨α, outcome⟩ :: (c.performAll after next).1,
      (c.performAll after next).2) := performAll_append before _ start
  refine ⟨⟨?_, ?_⟩, ?_, ?_, ?_⟩
  · rw [hall, ← @length_performAll c before start]
    dsimp only
    rw [List.getElem?_append_right (Nat.le_refl _), Nat.sub_self, List.getElem?_cons_zero]
  · rw [hall]
    exact c.sent_performAll after next
  · intro hop
    obtain ⟨-, e, h⟩ | ⟨hnot, -⟩ := c.perform_cases op
    · exact ⟨congrArg (·.2.sent) (h reached), e, congrArg (·.1) (h reached)⟩
    · exact absurd hop hnot
  · intro hop
    obtain ⟨hnot, -⟩ | ⟨-, call, r, hcall, hprepare, h⟩ := c.perform_cases op
    · exact absurd hnot hop
    · have hanswer : reached.responses.head? = responses[reached.sent.length]? := by
        rw [hserved, List.head?_drop]
      have houtcome : outcome = c.answered call.decoder responses[reached.sent.length]? := by
        rw [← hanswer]
        exact congrArg (·.1) (h reached)
      refine ⟨call, r, hcall, hprepare, congrArg (·.2.sent) (h reached), houtcome, ?_⟩
      intro response hresponse hstatus
      rw [houtcome, hresponse]
      exact receive_of_status call.decoder hstatus
  · intro β other hlength
    rw [drop_performAll, drop_performAll]
    refine performAll_congr after ?_
    have hother : Served responses (c.perform other reached).2 := hserved.perform other
    have hop : Served responses next := hserved.perform op
    rw [hother, hop, hlength]

end Client
end PolicyClient
