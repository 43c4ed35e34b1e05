/-
Membership and iteration. Whether a collection has an element equal to an item can be asked in two
ways: by the operator of membership, or by an equality with a key left open, which the search tries.
The keys of a collection lead to its values, one each and in order (`map_step_keys`), so both ways
look at the same elements and give the same answer (`evaluate_membership`).
-/
import Mathlib
import PolicyClient.Proofs.Evaluation.Operators

namespace PolicyClient

/-! ## Collections -/

theorem Members.get?_of_mem {members : Members} (h : members.Sorted) {name : String} {d : Document}
    (hmem : (name, d) ∈ members) : members.get? name = some d := by
  induction members with
  | nil => cases hmem
  | cons entry rest ih =>
    obtain ⟨hfirst, hrest⟩ := List.pairwise_cons.1 h
    rw [get?]
    rcases List.mem_cons.1 hmem with rfl | hmem
    · rw [if_pos rfl]
    · rw [if_neg (hfirst _ hmem).ne]; exact ih hrest hmem

namespace Document

/-- The elements of a collection: its items, or the values of its members. -/
def values : Document → List Document
  | .array items => items
  | .object members => members.map (·.2)
  | _ => []

/-- An array or an object: as many items as a word can count, or one member for each key. -/
inductive IsCollection : Document → Prop
  | array {items : List Document} (hcount : items.length ≤ UInt64.size) : IsCollection (.array items)
  | object {members : Members} (hsorted : members.Sorted) : IsCollection (.object members)

theorem step_ofNat {items : List Document} {i : Nat} (h : i < UInt64.size) :
    (array items).step (ofNat i) = items[i]? := by
  have hword := Numeral.word?_ofNat (UInt64.ofNat i)
  rw [UInt64.toNat_ofNat_of_lt' h] at hword
  unfold step ofNat
  dsimp only
  rw [hword]
  dsimp only
  rw [UInt64.toNat_ofNat_of_lt' h]

/-- The keys of a collection lead to its elements, in order. -/
theorem map_step_keys {collection : Document} (h : collection.IsCollection) :
    collection.keys.map collection.step = collection.values.map some := by
  cases h with
  | @array items hcount =>
    rw [keys, values, List.map_map]
    refine List.ext_getElem (by simp) fun i hi hi' => ?_
    have hlt : i < items.length := by simpa using hi
    simp only [List.getElem_map, List.getElem_range, Function.comp_apply]
    rw [step_ofNat (hlt.trans_le hcount), List.getElem?_eq_getElem hlt]
  | @object members hsorted =>
    rw [keys, values, List.map_map, List.map_map]
    exact List.map_congr_left fun member hmember => Members.get?_of_mem hsorted hmember

/-- Going through the elements key by key passes each of them. -/
theorem any_step_keys {collection : Document} (h : collection.IsCollection) (p : Document → Bool) :
    (collection.keys.any fun key => (collection.step key).any p) = collection.values.any p :=
  calc (collection.keys.any fun key => (collection.step key).any p)
    _ = (collection.keys.map collection.step).any (Option.any p) := by rw [List.any_map]; rfl
    _ = (collection.values.map some).any (Option.any p) := by rw [map_step_keys h]
    _ = collection.values.any p := by rw [List.any_map]; rfl

theorem isMember_of_collection {collection : Document} (h : collection.IsCollection)
    (item : Document) : item.isMember collection = .ok (collection.values.any (item.same ·)) := by
  cases h with
  | array => rfl
  | object => rw [isMember, values, List.any_map]; rfl

end Document

/-! ## A reference with one more key -/

namespace Term

variable {b : Bindings} {collection k : Document} {root key : Term} {keys : List Term}

theorem resolve_concat (h : resolve b (.ref root keys) = .ok (some collection))
    (hk : resolve b key = .ok (some k)) :
    resolve b (.ref root (keys ++ [key])) = .ok (collection.step k) := by
  obtain ⟨start, hr, hw⟩ := resolve_ref_eq_some h
  have hlast : walk b start (keys ++ [key]) = .ok (collection.step k) := by
    rw [walk_append hw, walk_cons, hk]
    dsimp only
    cases collection.step k with
    | none => rfl
    | some next => show walk b next [] = _; rw [walk]
  rw [resolve_ref, hr]
  exact hlast

/-- Behind keys that lead to a collection, an unbound variable is the first to be found. -/
theorem nextRange_concat_open {name : String}
    (h : resolve b (.ref root keys) = .ok (some collection)) (hname : b.get? name = none) :
    nextRange b (.ref root (keys ++ [.var name])) = .ok (some (name, collection.keys)) := by
  obtain ⟨start, hr, hw⟩ := resolve_ref_eq_some h
  have hlast : nextKeyRange b start (keys ++ [.var name]) = .ok (some (name, collection.keys)) := by
    rw [nextKeyRange_append hw, nextKeyRange_open hname]
  rw [nextRange_ref, hr]
  exact hlast

end Term

/-! ## Two ways to ask -/

section

variable {b : Bindings} {item root : Term} {keys : List Term} {name : String}
  {d collection : Document}

/-- With the key bound, the equality is that of the item and the element. -/
theorem search_element {f : Term} (hf : f.operatorName? = some "eq")
    (hitem : item.resolve b = .ok (some d))
    (hpath : (Term.ref root keys).resolve b = .ok (some collection)) (hname : b.get? name = none)
    (index : UInt64) {key element : Document} (hstep : collection.step key = some element) :
    Expression.search [⟨index, [f, item, .ref root (keys ++ [.var name])]⟩] (b.bind name key) =
      .ok (d.same element) := by
  have hext := Bindings.bind_extends hname key
  have hvar : (Term.var name).resolve (b.bind name key) = .ok (some key) := by
    rw [Term.resolve, Bindings.get?_bind_self]
  have helement := Term.resolve_concat (Term.resolve_mono hext _ _ hpath) hvar
  rw [hstep] at helement
  exact Expression.evaluate_of_defined (Term.operator_of_name hf rfl)
    (Term.resolve_mono hext _ _ hitem) helement index

/-- An equality with an open key asks whether some element of the collection is equal to the item. -/
theorem gives_equal_some_element (hitem : item.resolve b = .ok (some d))
    (hpath : (Term.ref root keys).resolve b = .ok (some collection))
    (hcollection : collection.IsCollection) (hname : b.get? name = none) :
    Gives b "eq" item (.ref root (keys ++ [.var name])) (collection.values.any (d.same ·)) := by
  intro index f hf
  have hnext : Expression.nextRange b [⟨index, [f, item, .ref root (keys ++ [.var name])]⟩] =
      .ok (some (name, collection.keys)) := by
    have hoperands : Term.nextRangeAll b [item, .ref root (keys ++ [.var name])] =
        .ok (some (name, collection.keys)) := by
      rw [Term.nextRangeAll_cons, Term.nextRange_of_defined item d hitem, Term.nextRangeAll_cons,
        Term.nextRange_concat_open hpath hname]
    rw [Expression.nextRange_cons, Expression.operands, hoperands]
  -- the search asks the same of the element of each key
  have hsearch : ∀ key ∈ collection.keys,
      Expression.search [⟨index, [f, item, .ref root (keys ++ [.var name])]⟩] (b.bind name key) =
        pure ((collection.step key).any (d.same ·)) := by
    intro key hkey
    have hstep := List.mem_map_of_mem (f := collection.step) hkey
    rw [Document.map_step_keys hcollection] at hstep
    obtain ⟨element, -, hstep⟩ := List.mem_map.1 hstep
    rw [search_element hf hitem hpath hname index hstep.symm, ← hstep]; rfl
  rw [Expression.evaluate, Expression.search_of_range hnext, Fallible.anyM_congr hsearch,
    List.anyM_pure, Document.any_step_keys hcollection]
  rfl

end

/-- An item is a member of a collection exactly if it is equal to the element of some key, which an
equality with an open key searches for. -/
theorem evaluate_membership {b : Bindings} {item root : Term} {keys : List Term} {name : String}
    {d collection : Document} (hitem : item.resolve b = .ok (some d))
    (hpath : (Term.ref root keys).resolve b = .ok (some collection))
    (hcollection : collection.IsCollection) (hname : b.get? name = none) :
    Gives b "internal.member_2" item (.ref root keys) (collection.values.any (d.same ·)) ∧
      Gives b "eq" item (.ref root (keys ++ [.var name])) (collection.values.any (d.same ·)) :=
  ⟨gives_of_defined rfl hitem hpath (Document.isMember_of_collection hcollection d),
    gives_equal_some_element hitem hpath hcollection hname⟩

/-- An input with a list of tags and an object of flags. -/
def tagsAndFlags : Bindings :=
  .bind .empty "input" (.object [
    ("flags", .object [("archived", .bool false), ("shared", .bool true)]),
    ("tags", .array [.text "public", .text "draft"])])

/-- The tag `draft` and the flag `true` are found in both ways. -/
theorem evaluate_membership_tags_and_flags :
    (tagsAndFlags.get? "$01" = none ∧
      Gives tagsAndFlags "internal.member_2" (.text "draft") (.path "input" ["tags"]) true ∧
      Gives tagsAndFlags "eq" (.text "draft") (.ref (.var "input") [.text "tags", .var "$01"]) true) ∧
    Gives tagsAndFlags "internal.member_2" (.bool true) (.path "input" ["flags"]) true ∧
      Gives tagsAndFlags "eq" (.bool true) (.ref (.var "input") [.text "flags", .var "$01"]) true := by
  have hname : tagsAndFlags.get? "$01" = none := by decide
  have htags : (Document.array [.text "public", .text "draft"]).IsCollection := .array (by decide)
  have hflags : (Document.object [("archived", .bool false), ("shared", .bool true)]).IsCollection :=
    .object (List.pairwise_pair.2 (by decide))
  have hdraft : (Term.text "draft").resolve tagsAndFlags = .ok (some (.text "draft")) := by rw [Term.resolve]
  have htrue : (Term.bool true).resolve tagsAndFlags = .ok (some (.bool true)) := by rw [Term.resolve]
  exact ⟨⟨hname, evaluate_membership hdraft (by cbv) htags hname⟩,
    evaluate_membership htrue (by cbv) hflags hname⟩

end PolicyClient
