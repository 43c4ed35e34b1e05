/-
Documents that are stored and looked up again. What is put at a path comes back with its numbers spelled
anew, but null comes back as nothing at all, since nothing is what null and a missing result are both
taken for (`get_after_put`).
-/
import Mathlib
import PolicyClient.Api.Data
import PolicyClient.Proofs.Body.RoundTrip
import PolicyClient.Proofs.Body.Support
import PolicyClient.Proofs.Client.Server
import PolicyClient.Proofs.Document.Rebuild
import PolicyClient.Proofs.Document.Spaced

namespace PolicyClient

open Charset (Codecs)
open Document (Within IsMember)

/-! ## Results -/

namespace Form

variable {α : Type} {form : Form α} {d : Document}

theorem optional_eq_none_iff : optional form d = .ok none ↔ d = .null := by
  cases d with
  | null => exact iff_of_true rfl rfl
  | _ =>
    refine iff_of_false (fun h => ?_) nofun
    obtain ⟨_, -, hsome⟩ := Fallible.map_eq_ok.1 h
    cases hsome

/-- The record that a result comes in. -/
def dataResponse (form : Form α) : Form (Option α) :=
  single "DataResponse" ⟨"result", optional form, some none, none⟩

/-- No result is one that is missing from an object, or null. -/
theorem dataResponse_eq_none_iff : dataResponse form d = .ok none ↔
    d = .array [.null] ∨ ∃ members, d = .object members ∧
      (Members.get? members "result" = none ∨ Members.get? members "result" = some .null) := by
  cases d with
  | object members =>
    simp only [dataResponse, single, Field.ofMembers]
    cases hget : Members.get? members "result" with
    | none => simp [hget]
    | some d => simp [hget, optional_eq_none_iff]
  | array items =>
    match items with
    | [] => exact iff_of_false nofun (by simp)
    | [d] =>
      have hone : dataResponse form (.array [d]) = optional form d := by
        show (optional form d).bind (fun value => .ok value) = _
        cases optional form d <;> rfl
      simp [hone, optional_eq_none_iff]
    | d :: e :: items =>
      refine iff_of_false (fun h => ?_) (by simp)
      obtain ⟨_, -, h⟩ := Fallible.bind_eq_ok.1 h
      obtain ⟨_, hlength, -⟩ := Fallible.bind_eq_ok.1 h
      simp [checkLength] at hlength
  | _ => exact iff_of_false nofun (by simp)

end Form

/-- What a document comes back as: null as nothing, any other with its numbers spelled anew. -/
def Document.returned : Document → Option Document
  | .null => none
  | d => some d.rebuilt

/-! ## Requests and responses -/

theorem Registry.write_document (codecs : Codecs) (d : Document) :
    (standard codecs).write (some .applicationJson) (some (.json d)) = .ok (Utf8.encode d.print) := by
  unfold write
  dsimp only
  rw [writer?_standard]
  rfl

theorem Registry.read_document (codecs : Codecs) {bytes : Bytes} {d : Document}
    (h : Document.ofBytes bytes = .ok d) :
    (standard codecs).read (some .applicationJson) bytes .json = .ok (.json d) := by
  unfold read
  rw [reader?_standard_json, if_pos (by decide +kernel)]
  show Converter.readJson bytes .json = _
  rw [Converter.readJson, h]

variable {codecs : Codecs} {c : Client} {r : Response}

namespace Client

theorem prepare_put (hregistry : c.registry = .standard codecs) {path : String} {u : Url}
    (h : c.resolve (Data.path path) = .ok u) (d : Document) :
    ∃ headers, c.prepare (Data.put path d).draft = .ok ⟨"PUT", u, headers, Utf8.encode d.print⟩ := by
  have hwrite := Registry.write_document codecs d
  rw [← hregistry] at hwrite
  unfold prepare
  rw [show c.resolve (Data.put path d).draft.path = .ok u from h,
    show c.registry.write (some (Data.put path d).draft.headers.contentType)
      (Data.put path d).draft.body = _ from hwrite]
  exact ⟨_, rfl⟩

theorem prepare_get {α : Type} {path : String} {u : Url} (h : c.resolve (Data.path path) = .ok u)
    (form : Form α) :
    ∃ headers, c.prepare (Data.get form path).draft = .ok ⟨"GET", u, headers, []⟩ := by
  unfold prepare
  rw [show c.resolve (Data.get form path).draft.path = .ok u from h]
  exact ⟨_, rfl⟩

end Client

/-- The value of a response is taken from the document that its body is read as. -/
theorem Decoder.run_form_eq_ok_iff {α : Type} {registry : Registry} {r : Response} {form : Form α} {a : α} :
    (Decoder.form form).run registry r = .ok a ↔ ∃ type d, contentType r = .ok type ∧
      registry.read type r.body .json = .ok (.json d) ∧ form d = .ok a := by
  have hrun : (Decoder.form form).run registry r =
      ((contentType r).mapError .mediaType >>= fun type =>
        ((registry.read type r.body .json).mapError .conversion) >>= fun body =>
          (body.toDocument.mapError .conversion) >>= fun d =>
            (form d).mapError fun e => .conversion (.reading (.form e))) := rfl
  rw [hrun]
  simp only [Fallible.bind_eq_ok, Fallible.mapError_eq_ok]
  constructor
  · rintro ⟨type, htype, body, hbody, d, hd, ha⟩
    cases body with
    | json value => cases hd; exact ⟨type, _, htype, hbody, ha⟩
    | text value => cases hd
    | binary value => cases hd
  · rintro ⟨type, d, htype, hbody, ha⟩
    exact ⟨type, htype, .json d, hbody, d, rfl, ha⟩

namespace Client

theorem receive_form_eq_ok_iff {α : Type} {form : Form α} {a : α} :
    c.receive (.form form) r = .ok a ↔ r.isSuccess = true ∧ ∃ type d,
      Decoder.contentType r = .ok type ∧ c.registry.read type r.body .json = .ok (.json d) ∧
      form d = .ok a := by
  unfold receive
  split_ifs with hsuccess
  · rw [Decoder.run_form_eq_ok_iff, and_iff_right hsuccess]
  · exact iff_of_false nofun fun h => hsuccess h.1

/-- The answer to a call for a document, where the body of the response has the document for its
result. -/
theorem run_get (hregistry : c.registry = .standard codecs) {path : String} {u : Url}
    (hresolve : c.resolve (Data.path path) = .ok u) (hsuccess : r.isSuccess = true)
    (htype : r.header? "content-type" = some "application/json") {d : Document}
    (hd : d.Readable 126) (hbody : IsMember "result" (Utf8.encode d.print) r.body)
    (responses : List Response) (sent : List Request) :
    (c.run (Data.get Form.document path) ⟨r :: responses, sent⟩).1 =
      .ok d.returned := by
  obtain ⟨headers, hprepare⟩ := prepare_get hresolve Form.document
  have hdecoded : Decoder.contentType r = .ok (some .applicationJson) := by
    rw [Decoder.contentType, htype]
    decide +kernel
  have hread := Registry.read_document codecs (Document.ofBytes_of_isMember hd (by decide) hbody)
  unfold run
  rw [hprepare]
  refine receive_form_eq_ok_iff.2 ⟨hsuccess, _, _, hdecoded, hregistry ▸ hread, ?_⟩
  show Form.optional Form.document d = _
  cases d with
  | null => rfl
  | _ => exact (congrArg (·.map some) (Document.rebuild_of_readable hd))

/-- What is put at a path goes over the network as its text. Where the server answers with that as the
result, and the document can be read inside the object that it comes in, it comes back with its numbers
spelled anew, except for null, which comes back as nothing; so it comes back as it was just if it is
not null and every number in it, at any depth, keeps its spelling. There is no value just where a
successful response has no result or null for it. -/
theorem get_after_put (hregistry : c.registry = .standard codecs) {s : Settings}
    (haccepted : s.baseUrl = .ok c.baseUrl) (path : String) {v : Document} (hv : v.Readable 126) :
    (∃ put get, c.prepare (Data.put path v).draft = .ok put ∧
      c.prepare (Data.get Form.document path).draft = .ok get ∧ put.url = get.url ∧
      put.body = Utf8.encode v.print ∧
      ∀ r : Response, r.isSuccess = true → r.header? "content-type" = some "application/json" →
        IsMember "result" put.body r.body → ∀ responses sent,
        let outcome := (c.run (Data.get Form.document path) ⟨r :: responses, sent⟩).1
        outcome = .ok v.returned ∧
        (outcome = .ok (some v) ↔ v ≠ .null ∧ ∀ n, Within (.number n) v → n.rebuilt = n)) ∧
    ∀ r : Response, c.receive (Data.get Form.document path).decoder r = .ok none ↔
      r.isSuccess = true ∧ ∃ type d, Decoder.contentType r = .ok type ∧
        c.registry.read type r.body .json = .ok (.json d) ∧
        (d = .array [.null] ∨ ∃ members, d = .object members ∧
          (Members.get? members "result" = none ∨ Members.get? members "result" = some .null)) := by
  obtain ⟨u, hresolve, -⟩ := resolve_sameServer Url.lawful_lowerDomain s c haccepted (Data.path path)
  obtain ⟨headers, hput⟩ := prepare_put hregistry hresolve v
  obtain ⟨headers', hget⟩ := prepare_get hresolve Form.document
  refine ⟨⟨_, _, hput, hget, rfl, rfl, fun r hsuccess htype hbody responses sent => ?_⟩, fun r => ?_⟩
  · have hrun := run_get hregistry hresolve hsuccess htype hv hbody responses sent
    refine ⟨hrun, ?_⟩
    rw [hrun, ← Document.rebuilt_eq_iff]
    cases v with
    | null => exact iff_of_false nofun fun h => h.1 rfl
    | _ => simp [Document.returned]
  · rw [show (Data.get Form.document path).decoder = .form (Form.dataResponse Form.document) from rfl,
      receive_form_eq_ok_iff]
    simp only [Form.dataResponse_eq_none_iff]

/-- A client with the default settings. -/
def localClient : Client :=
  ⟨⟨"http", "", none, "localhost", some 8181, [""], none, none⟩, .standard, .verbose⟩

theorem localClient_registry : localClient.registry = .standard .ascii := rfl

theorem localClient_accepted : Settings.baseUrl {} = .ok localClient.baseUrl := by
  decide +kernel

/-- A response with a JSON body. -/
def jsonResponse (text : String) : Response :=
  ⟨200, [("Content-Type", "application/json")], Utf8.encode text⟩

/-- What the client puts at the path `a` is the result that the response has. -/
def Stored (v : Document) (r : Response) : Prop :=
  r.isSuccess = true ∧ r.header? "content-type" = some "application/json" ∧
    ∃ put, localClient.prepare (Data.put "a" v).draft = .ok put ∧ IsMember "result" put.body r.body

theorem localClient_resolves : ∃ u, localClient.resolve (Data.path "a") = .ok u := by
  obtain ⟨u, hresolve, -⟩ := resolve_sameServer Url.lawful_lowerDomain {} localClient localClient_accepted
    (Data.path "a")
  exact ⟨u, hresolve⟩

theorem stored_iff {v : Document} : Stored v r ↔ r.isSuccess = true ∧
    r.header? "content-type" = some "application/json" ∧
    IsMember "result" (Utf8.encode v.print) r.body := by
  obtain ⟨u, hresolve⟩ := localClient_resolves
  obtain ⟨headers, hput⟩ := prepare_put localClient_registry hresolve v
  refine and_congr_right fun _ => and_congr_right fun _ => ⟨?_, fun hbody => ⟨_, hput, hbody⟩⟩
  rintro ⟨put, hput', hbody⟩
  rw [hput] at hput'
  cases hput'; exact hbody

theorem run_of_stored {v : Document} (hv : v.Readable 126) (h : Stored v r) :
    (localClient.run (Data.get Form.document "a") ⟨[r], []⟩).1 = .ok v.returned := by
  obtain ⟨u, hresolve⟩ := localClient_resolves
  obtain ⟨hsuccess, htype, hbody⟩ := stored_iff.1 h
  exact run_get localClient_registry hresolve hsuccess htype hv hbody [] []

/-- One and a half with a zero behind it comes back as it was. -/
theorem get_after_put_price :
    let price : Numeral := ⟨false, [.last 1], some [.last 5, .zero], none,
      by decide, by decide, by decide, by decide⟩
    let v : Document := .object [("price", .number price)]
    let r := jsonResponse "\x7b\"result\": \x7b\"price\":1.50\x7d\x7d"
    v.Readable 126 ∧ Stored v r ∧
      (localClient.run (Data.get Form.document "a") ⟨[r], []⟩).1 = .ok (some v) := by
  intro price v r
  have hv : v.Readable 126 :=
    .object (List.pairwise_singleton _ _) (by rintro m ⟨⟩; decide)
      (List.forall_mem_singleton.2 (.number _ _))
  have hkept : v.rebuilt = v := by
    have hprice : price.rebuilt = price := Numeral.rebuilt_eq (.inr rfl) (by decide)
    show Document.object [("price", .number price.rebuilt)] = _
    rw [hprice]
  have hstored : Stored v r := by
    refine stored_iff.2 ⟨rfl, rfl, [], [], [], [0x20], [], [], ?_⟩
    decide +kernel
  refine ⟨hv, hstored, ?_⟩
  obtain ⟨⟨put, get, hput, -, -, -, hget⟩, -⟩ :=
    get_after_put localClient_registry localClient_accepted "a" hv
  obtain ⟨hsuccess, htype, put', hput', hresult⟩ := hstored
  rw [hput] at hput'
  cases hput'
  exact (hget r hsuccess htype hresult [] []).2.2 ⟨nofun, v.rebuilt_eq_iff.1 hkept⟩

/-- Null comes back as nothing; minus zero loses its sign, and a millionth is written with an
exponent. -/
theorem get_after_put_altered :
    let minusZero : Numeral := ⟨true, [.zero], none, none, by decide, by decide, by decide, by decide⟩
    let millionth : Numeral := ⟨false, [.zero], some [.zero, .zero, .zero, .zero, .zero, .last 1], none,
      by decide, by decide, by decide, by decide⟩
    let respelled : Numeral := ⟨false, [.last 1], none, some (true, [.last 6]),
      by decide, by decide, by decide, by decide⟩
    let nothing := jsonResponse "\x7b\"result\": null\x7d"
    let numbers := jsonResponse "\x7b\"result\": [-0,0.000001]\x7d"
    Stored .null nothing ∧
    (localClient.run (Data.get Form.document "a") ⟨[nothing], []⟩).1 = .ok none ∧
    Stored (.array [.number minusZero, .number millionth]) numbers ∧
    (localClient.run (Data.get Form.document "a") ⟨[numbers], []⟩).1 =
      .ok (some (.array [.ofNat 0, .number respelled])) := by
  intro minusZero millionth respelled nothing numbers
  have hnothing : Stored .null nothing := by
    refine stored_iff.2 ⟨rfl, rfl, [], [], [], [0x20], [], [], ?_⟩
    decide +kernel
  have hnumbers : Stored (.array [.number minusZero, .number millionth]) numbers := by
    refine stored_iff.2 ⟨rfl, rfl, [], [], [], [0x20], [], [], ?_⟩
    decide +kernel
  have hreadable : (Document.array [.number minusZero, .number millionth]).Readable 126 :=
    .array (List.forall_mem_cons.2 ⟨.number _ _, List.forall_mem_singleton.2 (.number _ _)⟩)
  refine ⟨hnothing, run_of_stored (.null _) hnothing, hnumbers, (run_of_stored hreadable hnumbers).trans ?_⟩
  have hzero : minusZero.rebuilt = .ofNat 0 := by decide +kernel
  have hmillionth : millionth.rebuilt = respelled := by decide +kernel
  show Except.ok (some (Document.array [.number minusZero.rebuilt, .number millionth.rebuilt])) = _
  rw [hzero, hmillionth]
  rfl

end Client
end PolicyClient
