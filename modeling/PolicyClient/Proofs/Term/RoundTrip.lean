/-
Terms that are written and read again. A document of a proper term holds that term with its numbers
settled, and the settled term is written as the same document (`stable_of_proper`); every term that
a document holds is proper (`proper_of_ofDocument`).
-/
import PolicyClient.Proofs.Term.Settled

namespace PolicyClient

open Fallible

/-! ## Stable trees -/

/-- The document of a tree holds the tree in its settled form, which has the same document. -/
def Stable {α : Type} (decode : Document → Except DecodeError α)
    (encode : α → Except Document.ReadError Document) (settle : α → α) (a : α) : Prop :=
  ∀ w, encode a = .ok w → decode w = .ok (settle a) ∧ encode (settle a) = .ok w

/-- Documents of stable trees are read and written again one by one. -/
theorem mapM_of_stable {α : Type} {decode : Document → Except DecodeError α}
    {encode : α → Except Document.ReadError Document} {settle : α → α} {as : List α}
    {ws : List Document} (h : ∀ a ∈ as, Stable decode encode settle a) (hw : as.mapM encode = .ok ws) :
    ws.mapM decode = .ok (as.map settle) ∧ (as.map settle).mapM encode = .ok ws := by
  have hall := (List.forall₂_and_left _ _).2 ⟨h, mapM_eq_ok_iff.1 hw⟩
  constructor
  · rw [mapM_eq_ok_iff, List.forall₂_map_right_iff]
    exact (hall.imp fun a w haw => (haw.1 w haw.2).1).flip
  · rw [mapM_eq_ok_iff, List.forall₂_map_left_iff]
    exact hall.imp fun a w haw => (haw.1 w haw.2).2

namespace Term

theorem ofDocuments_eq_mapM (ds : List Document) : ofDocuments ds = ds.mapM ofDocument := by
  induction ds with
  | nil => rfl
  | cons d ds ih => rw [ofDocuments, ih, List.mapM_cons]

theorem toDocuments_eq_mapM (ts : List Term) : toDocuments ts = ts.mapM toDocument := by
  induction ts with
  | nil => rfl
  | cons t ts ih => rw [toDocuments, ih, List.mapM_cons]

/-! ## What is read -/

/-- Terms are read from an array under `value`. -/
theorem termsValue_eq_ok {type : String} {members : Members} {ts : List Term}
    (h : termsValue type members = .ok ts) :
    ∃ items, ("value", .array items) ∈ members ∧ ofDocuments items = .ok ts := by
  induction members with
  | nil => cases h
  | cons member members ih =>
    obtain ⟨key, value⟩ := member
    rw [termsValue.eq_def] at h
    dsimp only at h
    split at h
    · next hkey =>
      split at h
      · next items => exact ⟨items, by rw [hkey]; simp, h⟩
      · cases h
    · obtain ⟨items, hmem, hitems⟩ := ih h
      exact ⟨items, List.mem_cons_of_mem _ hmem, hitems⟩

theorem headed_eq_ok {type : String} {build : Term → List Term → Term} {ts : List Term} {t : Term}
    (h : headed type build ts = .ok t) : ∃ u us, ts = u :: us ∧ t = build u us := by
  cases ts with
  | nil => cases h
  | cons u us => exact ⟨u, us, rfl, (Except.ok.inj h).symm⟩

/-- Every term that a document holds is proper. -/
theorem proper_of_ofDocument {d : Document} {t : Term} (h : ofDocument d = .ok t) : Proper t := by
  induction d using Document.induct_items generalizing t with
  | other d hd =>
    cases d with
    | object members => exact absurd rfl (hd members)
    | _ => cases h
  | object members ih =>
    -- the terms below are read from an array among the members
    have hterms : ∀ type ts, termsValue type members = .ok ts → ∀ t ∈ ts, Proper t := by
      intro type ts hts t ht
      obtain ⟨items, hmem, hitems⟩ := termsValue_eq_ok hts
      rw [ofDocuments_eq_mapM] at hitems
      obtain ⟨d, hd, hdt⟩ := mem_of_mapM hitems ht
      exact ih _ items hmem d hd hdt
    rw [ofDocument] at h
    split at h
    · cases h
    · next type _ =>
      split_ifs at h
      · obtain ⟨ts, hts, h⟩ := bind_eq_ok.1 h
        obtain ⟨root, keys, rfl, rfl⟩ := headed_eq_ok h
        have := hterms _ _ hts
        exact .ref (this root (by simp)) fun k hk => this k (by simp [hk])
      · obtain ⟨ts, hts, h⟩ := bind_eq_ok.1 h
        obtain ⟨function, args, rfl, rfl⟩ := headed_eq_ok h
        have := hterms _ _ hts
        exact .call (this function (by simp)) fun a ha => this a (by simp [ha])
      · obtain ⟨name, -, rfl⟩ := map_eq_ok.1 h; exact .var name
      · obtain ⟨value, -, rfl⟩ := map_eq_ok.1 h; exact .numeric value
      · obtain ⟨value, -, rfl⟩ := map_eq_ok.1 h; exact .text value
      · obtain ⟨value, -, rfl⟩ := map_eq_ok.1 h; exact .bool value
      · cases h; exact .null
      · obtain ⟨ts, hts, rfl⟩ := map_eq_ok.1 h; exact .array (hterms _ _ hts)
      · obtain ⟨ts, hts, rfl⟩ := map_eq_ok.1 h; exact proper_setOf (hterms _ _ hts)
    · cases h

/-! ## What is written -/

theorem ofDocument_tagged_ref (items : List Document) :
    ofDocument (tagged "ref" (.array items)) = ofDocuments items >>= headed "ref" .ref := by
  simp [tagged, ofDocument, Members.get?, termsValue]

theorem ofDocument_tagged_call (items : List Document) :
    ofDocument (tagged "call" (.array items)) = ofDocuments items >>= headed "call" .call := by
  simp [tagged, ofDocument, Members.get?, termsValue]

theorem ofDocument_tagged_array (items : List Document) :
    ofDocument (tagged "array" (.array items)) = (ofDocuments items).map .array := by
  simp [tagged, ofDocument, Members.get?, termsValue]

theorem ofDocument_tagged_set (items : List Document) :
    ofDocument (tagged "set" (.array items)) = (ofDocuments items).map setOf := by
  simp [tagged, ofDocument, Members.get?, termsValue]

theorem ofDocument_tagged_number {n : Numeral} {d : Decimal} (h : n.decimal? = some d) :
    ofDocument (tagged "number" (.number n)) = .ok (.numeric d) := by
  simp [tagged, ofDocument, Members.get?, numberValue, h, Except.map]

theorem toDocuments_of_stable {ts : List Term} {ws : List Document}
    (h : ∀ t ∈ ts, Stable ofDocument toDocument settled t) (hw : toDocuments ts = .ok ws) :
    ofDocuments ws = .ok (settledAll ts) ∧ toDocuments (settledAll ts) = .ok ws := by
  rw [toDocuments_eq_mapM] at hw
  rw [ofDocuments_eq_mapM, toDocuments_eq_mapM, settledAll_eq_map]
  exact mapM_of_stable h hw

/-- A proper term is read back from its document with its numbers settled. -/
theorem stable_of_proper {t : Term} (ht : Proper t) : Stable ofDocument toDocument settled t := by
  induction ht with
  | ref _ _ ihroot ihkeys =>
    intro w hw
    rw [toDocument] at hw
    obtain ⟨rootDoc, hroot, hw⟩ := bind_eq_ok.1 hw
    obtain ⟨keyDocs, hkeys, hw⟩ := bind_eq_ok.1 hw
    cases hw
    obtain ⟨hroot1, hroot2⟩ := ihroot rootDoc hroot
    obtain ⟨hkeys1, hkeys2⟩ := toDocuments_of_stable ihkeys hkeys
    constructor
    · rw [ofDocument_tagged_ref, ofDocuments, hroot1, hkeys1]; rfl
    · rw [settled, toDocument, hroot2, hkeys2]; rfl
  | call _ _ ihfunction ihargs =>
    intro w hw
    rw [toDocument] at hw
    obtain ⟨functionDoc, hfunction, hw⟩ := bind_eq_ok.1 hw
    obtain ⟨argDocs, hargs, hw⟩ := bind_eq_ok.1 hw
    cases hw
    obtain ⟨hfunction1, hfunction2⟩ := ihfunction functionDoc hfunction
    obtain ⟨hargs1, hargs2⟩ := toDocuments_of_stable ihargs hargs
    constructor
    · rw [ofDocument_tagged_call, ofDocuments, hfunction1, hargs1]; rfl
    · rw [settled, toDocument, hfunction2, hargs2]; rfl
  | var name =>
    rintro _ ⟨⟩
    exact ⟨by simp [tagged, ofDocument, Members.get?, textValue, Except.map, settled], rfl⟩
  | numeric d =>
    intro w hw
    rw [toDocument] at hw
    obtain ⟨n, hn, rfl⟩ := map_eq_ok.1 hw
    constructor
    · rw [ofDocument_tagged_number (Decimal.decimal?_of_numeral hn), settled]
    · rw [settled, toDocument, Decimal.numeral_settled hn]; rfl
  | text value =>
    rintro _ ⟨⟩
    exact ⟨by simp [tagged, ofDocument, Members.get?, textValue, Except.map, settled], rfl⟩
  | bool value =>
    rintro _ ⟨⟩
    exact ⟨by simp [tagged, ofDocument, Members.get?, boolValue, Except.map, settled], rfl⟩
  | null =>
    rintro _ ⟨⟩
    exact ⟨by simp [ofDocument, Members.get?, settled], rfl⟩
  | array _ ihitems =>
    intro w hw
    rw [toDocument] at hw
    obtain ⟨itemDocs, hitems, rfl⟩ := map_eq_ok.1 hw
    obtain ⟨hitems1, hitems2⟩ := toDocuments_of_stable ihitems hitems
    constructor
    · rw [ofDocument_tagged_array, hitems1]; rfl
    · rw [settled, toDocument, hitems2]; rfl
  | set _ hunequal ihitems =>
    intro w hw
    rw [toDocument] at hw
    obtain ⟨itemDocs, hitems, rfl⟩ := map_eq_ok.1 hw
    obtain ⟨hitems1, hitems2⟩ := toDocuments_of_stable ihitems hitems
    constructor
    -- settling keeps unequal terms unequal, so the set is read without loss
    · rw [ofDocument_tagged_set, hitems1, settled, settledAll_eq_map]
      show Except.ok (setOf _) = _
      rw [setOf, distinct_of_unequal (unequal_map_settled.2 hunequal)]
    · rw [settled, toDocument, hitems2]; rfl

end Term
end PolicyClient
