/-
What the search ranges over. The variable that it finds stands at a position of a term, and ranges
over the keys of the collection there (`standsAt_of_nextRange`). No assignment is passed over: where
a term is defined under an extension of the bindings, the extension binds the variable found, to one
of those keys (`bound_of_nextRange`).

The second fact rests on two others: a term defined under an extension has all its parts defined
there, and where a document steps down by a key, the key is one of those that the search tries.
-/
import PolicyClient.Proofs.Decimal.Digits
import PolicyClient.Proofs.Evaluation.Extension

namespace PolicyClient

/-! ## Keys and steps -/

/-- A key that leads somewhere is one of the keys of the document. -/
theorem Document.mem_keys_of_step {current key next : Document} (h : current.step key = some next) :
    key ∈ current.keys := by
  unfold step at h
  split at h
  · next members name => exact List.mem_map.2 ⟨_, Members.mem_of_get? h, rfl⟩
  · next items index =>
    split at h
    · next i hi =>
      obtain ⟨hlt, -⟩ := List.getElem?_eq_some_iff.1 h
      rw [Numeral.eq_ofNat_of_word? hi]
      exact List.mem_map.2 ⟨i.toNat, List.mem_range.2 hlt, rfl⟩
    · cases h
  · cases h

/-! ## Parts of defined terms -/

namespace Term

variable {b σ : Bindings}

theorem resolve_ref_eq_some {root : Term} {keys : List Term} {d : Document}
    (h : resolve b (.ref root keys) = .ok (some d)) :
    ∃ start, resolve b root = .ok (some start) ∧ walk b start keys = .ok (some d) := by
  rw [resolve_ref] at h
  split at h
  · cases h
  · cases h
  · next start hr => exact ⟨start, hr, h⟩

theorem walk_cons_eq_some {current : Document} {key : Term} {keys : List Term} {d : Document} :
    walk b current (key :: keys) = .ok (some d) ↔
      ∃ k next, resolve b key = .ok (some k) ∧ current.step k = some next ∧
        walk b next keys = .ok (some d) := by
  rw [walk_cons]
  constructor
  · intro h
    split at h
    · cases h
    · cases h
    · next k hk =>
      split at h
      · cases h
      · next next hs => exact ⟨k, next, hk, hs, h⟩
  · rintro ⟨k, next, hk, hs, h⟩
    rw [hk]; dsimp only; rw [hs]; exact h

theorem walk_append {before : List Term} {current d : Document}
    (h : walk b current before = .ok (some d)) (keys : List Term) :
    walk b current (before ++ keys) = walk b d keys := by
  induction before generalizing current with
  | nil => rw [walk] at h; cases h; rfl
  | cons key before ih =>
    obtain ⟨k, next, hk, hs, hw⟩ := walk_cons_eq_some.1 h
    rw [List.cons_append, walk_cons, hk]
    dsimp only
    rw [hs]
    exact ih hw

theorem resolveAll_eq_some {ts : List Term} {ds : List Document}
    (h : resolveAll b ts = .ok (some ds)) : ∀ t ∈ ts, ∃ d, resolve b t = .ok (some d) := by
  induction ts generalizing ds with
  | nil => intro t ht; cases ht
  | cons t ts ih =>
    rw [resolveAll_cons] at h
    split at h
    · cases h
    · cases h
    · next d hd =>
      obtain ⟨found, hf, hmap⟩ := Fallible.map_eq_ok.1 h
      obtain ⟨rest, rfl, -⟩ := Option.map_eq_some_iff.1 hmap
      exact List.forall_mem_cons.2 ⟨⟨d, hd⟩, ih hf⟩

/-- The items of a defined array or set are defined. -/
theorem items_eq_some {ts : List Term} {d : Document}
    (h : ((resolveAll b ts).map fun found => found.map Document.array) = .ok (some d)) :
    ∀ t ∈ ts, ∃ d, resolve b t = .ok (some d) := by
  obtain ⟨found, hf, hmap⟩ := Fallible.map_eq_ok.1 h
  obtain ⟨ds, rfl, -⟩ := Option.map_eq_some_iff.1 hmap
  exact resolveAll_eq_some hf

theorem applyTo_eq_some {function : Term} {operands : List Term} {d : Document}
    (h : applyTo b function operands = .ok (some d)) :
    ∀ t ∈ operands, ∃ d, resolve b t = .ok (some d) := by
  by_cases hlen : operands.length = 2
  · obtain ⟨left, right, rfl⟩ := List.length_eq_two.1 hlen
    rw [applyTo_pair] at h
    split at h
    · cases h
    · split at h
      · cases h
      · cases h
      · next l r hl hr => simpa using ⟨⟨l, hl⟩, ⟨r, hr⟩⟩
      · cases h
  · rw [applyTo_of_length_ne b function hlen] at h
    split at h <;> cases h

/-! ## The position of the variable found -/

/-- The reference to `root` by `keys` occurs in a term; functions of calls and roots of references
are passed over. -/
inductive Refers (root : Term) (keys : List Term) : Term → Prop
  | here : Refers root keys (.ref root keys)
  | key {r : Term} {ks : List Term} {k : Term} : k ∈ ks → Refers root keys k →
      Refers root keys (.ref r ks)
  | arg {f : Term} {args : List Term} {a : Term} : a ∈ args → Refers root keys a →
      Refers root keys (.call f args)
  | item {items : List Term} {t : Term} : t ∈ items → Refers root keys t →
      Refers root keys (.array items)
  | element {items : List Term} {t : Term} : t ∈ items → Refers root keys t →
      Refers root keys (.set items)

/-- The variable `name` stands as a key of a reference in a term, where the keys before it lead to
`collection`. -/
def StandsAt (b : Bindings) (name : String) (collection : Document) (t : Term) : Prop :=
  ∃ root before behind, Refers root (before ++ .var name :: behind) t ∧
    resolve b (.ref root before) = .ok (some collection)

theorem StandsAt.mono (hσ : σ.Extends b) {name : String} {collection : Document} {t : Term}
    (h : StandsAt b name collection t) : StandsAt σ name collection t := by
  obtain ⟨root, before, behind, hr, hc⟩ := h
  exact ⟨root, before, behind, hr, resolve_mono hσ _ _ hc⟩

theorem StandsAt.of_refers {name : String} {collection : Document} {t u : Term}
    (h : StandsAt b name collection u) (hut : ∀ root keys, Refers root keys u → Refers root keys t) :
    StandsAt b name collection t := by
  obtain ⟨root, before, behind, hr, hc⟩ := h
  exact ⟨root, before, behind, hut _ _ hr, hc⟩

theorem nextKeyRange_eq_some {current : Document} {keys : List Term} {range : Range}
    (h : nextKeyRange b current keys = .ok (some range)) :
    (∃ before name behind collection, keys = before ++ .var name :: behind ∧
      walk b current before = .ok (some collection) ∧ range = (name, collection.keys)) ∨
    ∃ k ∈ keys, nextRange b k = .ok (some range) := by
  induction keys generalizing current with
  | nil => simp [nextKeyRange] at h
  | cons key keys ih =>
    rcases nextKeyRange_cons_eq_some h with ⟨name, rfl, -, rfl⟩ | hn | ⟨k, next, hk, hs, hn⟩
    · exact .inl ⟨[], name, keys, current, rfl, by rw [walk], rfl⟩
    · exact .inr ⟨key, List.mem_cons_self, hn⟩
    · rcases ih hn with ⟨before, name, behind, c, rfl, hw, rfl⟩ | ⟨k', hk', hn'⟩
      · exact .inl ⟨key :: before, name, behind, c, rfl, walk_cons_eq_some.2 ⟨k, next, hk, hs, hw⟩, rfl⟩
      · exact .inr ⟨k', List.mem_cons_of_mem _ hk', hn'⟩

/-- The variable found stands at a position of the term, and ranges over the keys there. -/
theorem standsAt_of_nextRange (t : Term) {range : Range} (h : nextRange b t = .ok (some range)) :
    ∃ collection, StandsAt b range.1 collection t ∧ range.2 = collection.keys := by
  induction t using Term.induct with
  | ref root keys _ ih =>
    obtain ⟨start, hr, h⟩ := nextRange_ref_eq_some h
    rcases nextKeyRange_eq_some h with ⟨before, name, behind, c, rfl, hw, rfl⟩ | ⟨k, hk, hn⟩
    · exact ⟨c, ⟨root, before, behind, .here, by rw [resolve_ref, hr]; exact hw⟩, rfl⟩
    · obtain ⟨c, hc, hkeys⟩ := ih k hk hn
      exact ⟨c, hc.of_refers fun _ _ => .key hk, hkeys⟩
  | call function args _ ih =>
    obtain ⟨a, ha, hn⟩ := nextRangeAll_eq_some h
    obtain ⟨c, hc, hkeys⟩ := ih a ha hn
    exact ⟨c, hc.of_refers fun _ _ => .arg ha, hkeys⟩
  | array items ih =>
    obtain ⟨u, hu, hn⟩ := nextRangeAll_eq_some h
    obtain ⟨c, hc, hkeys⟩ := ih u hu hn
    exact ⟨c, hc.of_refers fun _ _ => .item hu, hkeys⟩
  | set items ih =>
    obtain ⟨u, hu, hn⟩ := nextRangeAll_eq_some h
    obtain ⟨c, hc, hkeys⟩ := ih u hu hn
    exact ⟨c, hc.of_refers fun _ _ => .element hu, hkeys⟩
  | _ => simp [nextRange] at h

/-! ## Defined terms have no variable left -/

/-- A key that can be looked up is no unbound variable. -/
theorem bound_of_resolve {key : Term} {r : Option Document} (h : resolve b key = .ok r) :
    ∀ name, key = .var name → b.get? name ≠ none := by
  rintro name rfl hfree
  rw [resolve, hfree] at h; cases h

theorem nextRangeAll_of_defined {ts : List Term} (h : ∀ t ∈ ts, nextRange b t = .ok none) :
    nextRangeAll b ts = .ok none := by
  induction ts with
  | nil => rfl
  | cons t ts ih =>
    obtain ⟨ht, hts⟩ := List.forall_mem_cons.1 h
    rw [nextRangeAll_cons, ht]; exact ih hts

/-- Keys that lead to a document are passed, if nothing is found inside them. -/
theorem nextKeyRange_append_of_passed {before : List Term}
    (hpassed : ∀ k ∈ before, ∀ d, resolve b k = .ok (some d) → nextRange b k = .ok none)
    {current d : Document} (h : walk b current before = .ok (some d)) (keys : List Term) :
    nextKeyRange b current (before ++ keys) = nextKeyRange b d keys := by
  induction before generalizing current with
  | nil => rw [walk] at h; cases h; rfl
  | cons key before ih =>
    obtain ⟨k, next, hk, hs, hw⟩ := walk_cons_eq_some.1 h
    -- a variable that has a document is bound, so the search goes down past it
    rw [List.cons_append, nextKeyRange_cons (bound_of_resolve hk), hpassed key List.mem_cons_self k hk, hk]
    dsimp only
    rw [hs]
    exact ih (fun k hk => hpassed k (List.mem_cons_of_mem _ hk)) hw

theorem nextRange_of_defined (t : Term) :
    ∀ d, resolve b t = .ok (some d) → nextRange b t = .ok none := by
  induction t using Term.induct with
  | ref root keys _ ih =>
    intro d h
    obtain ⟨start, hr, hw⟩ := resolve_ref_eq_some h
    have hkeys := nextKeyRange_append_of_passed ih hw []
    rw [List.append_nil] at hkeys
    rw [nextRange_ref, hr]
    exact hkeys
  | call function args _ ih =>
    intro d h
    refine nextRangeAll_of_defined fun a ha => ?_
    obtain ⟨v, hv⟩ := applyTo_eq_some h a ha
    exact ih a ha v hv
  | array items ih =>
    intro d h
    rw [resolve_array] at h
    refine nextRangeAll_of_defined fun u hu => ?_
    obtain ⟨v, hv⟩ := items_eq_some h u hu
    exact ih u hu v hv
  | set items ih =>
    intro d h
    rw [resolve_set] at h
    refine nextRangeAll_of_defined fun u hu => ?_
    obtain ⟨v, hv⟩ := items_eq_some h u hu
    exact ih u hu v hv
  | _ => intro d _; rfl

theorem nextKeyRange_append {before : List Term} {current d : Document}
    (h : walk b current before = .ok (some d)) (keys : List Term) :
    nextKeyRange b current (before ++ keys) = nextKeyRange b d keys :=
  nextKeyRange_append_of_passed (fun k _ => nextRange_of_defined k) h keys

/-! ## No assignment is passed over -/

theorem bound_of_nextKeyRange (hσ : σ.Extends b) {keys : List Term} {range : Range}
    (ih : ∀ k ∈ keys, ∀ d, resolve σ k = .ok (some d) → nextRange b k = .ok (some range) →
      ∃ key ∈ range.2, σ.get? range.1 = some key)
    {current d : Document} (hd : walk σ current keys = .ok (some d))
    (h : nextKeyRange b current keys = .ok (some range)) :
    ∃ key ∈ range.2, σ.get? range.1 = some key := by
  induction keys generalizing current with
  | nil => simp [nextKeyRange] at h
  | cons key keys ihk =>
    obtain ⟨k, next, hk, hs, hw⟩ := walk_cons_eq_some.1 hd
    rcases nextKeyRange_cons_eq_some h with ⟨name, rfl, -, rfl⟩ | hn | ⟨k', next', hk', hs', hn⟩
    · rw [resolve] at hk
      split at hk
      · next d hget => cases hk; exact ⟨k, Document.mem_keys_of_step hs, hget⟩
      · cases hk
    · exact ih key List.mem_cons_self k hk hn
    -- the key resolves to the same document under the extension, so both walks go on from there
    · have hkk : k = k' := by
        have := resolve_mono hσ key _ hk'
        rw [hk] at this; cases this; rfl
      subst hkk
      obtain rfl : next = next' := Option.some.inj (hs.symm.trans hs')
      exact ihk (fun k hk => ih k (List.mem_cons_of_mem _ hk)) hw hn

/-- Where a term is defined under an extension, the extension binds the variable found, and to one
of the documents that it ranges over. -/
theorem bound_of_nextRange (hσ : σ.Extends b) (t : Term) {range : Range} :
    ∀ d, resolve σ t = .ok (some d) → nextRange b t = .ok (some range) →
      ∃ key ∈ range.2, σ.get? range.1 = some key := by
  induction t using Term.induct with
  | ref root keys _ ih =>
    intro d hd h
    obtain ⟨start, hr, h⟩ := nextRange_ref_eq_some h
    obtain ⟨start', hr', hw⟩ := resolve_ref_eq_some hd
    rw [resolve_mono hσ root _ hr] at hr'
    cases hr'
    exact bound_of_nextKeyRange hσ ih hw h
  | call function args _ ih =>
    intro d hd h
    obtain ⟨a, ha, hn⟩ := nextRangeAll_eq_some h
    obtain ⟨v, hv⟩ := applyTo_eq_some hd a ha
    exact ih a ha v hv hn
  | array items ih =>
    intro d hd h
    rw [resolve_array] at hd
    obtain ⟨u, hu, hn⟩ := nextRangeAll_eq_some h
    obtain ⟨v, hv⟩ := items_eq_some hd u hu
    exact ih u hu v hv hn
  | set items ih =>
    intro d hd h
    rw [resolve_set] at hd
    obtain ⟨u, hu, hn⟩ := nextRangeAll_eq_some h
    obtain ⟨v, hv⟩ := items_eq_some hd u hu
    exact ih u hu v hv hn
  | _ => intro d _ h; simp [nextRange] at h

end Term
end PolicyClient
