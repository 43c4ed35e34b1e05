/-
Equality of documents as the operators see it. It is symmetric and transitive on documents whose
objects list each key once (`same_comm`, `same_trans`), though objects are compared by their lengths
and one inclusion only. It is not reflexive: a number whose scale fits no word spells no decimal and is
equal to nothing, so exactly the documents without such a number are equal to themselves
(`same_self_iff`) and are found in the collections that they are elements of.
-/
import Mathlib
import PolicyClient.Proofs.Document.Keyed
import PolicyClient.Proofs.Evaluation.Membership

namespace PolicyClient
namespace Document

/-! ## Parts -/

/-- Every number, at any depth, spells a decimal. -/
def Comparable (d : Document) : Prop :=
  ∀ n, Within (.number n) d → n.ScaleFits

section

variable {d : Document} {items : List Document} {members : Members} {n : Numeral}

theorem Keyed.of_mem_values {collection : Document} (h : collection.Keyed)
    (hd : d ∈ collection.values) : d.Keyed := by
  cases collection with
  | array items => exact keyed_array.1 h d hd
  | object members =>
    obtain ⟨m, hm, rfl⟩ := List.mem_map.1 hd
    exact (keyed_object.1 h).2 m hm
  | _ => cases hd

theorem comparable_number : Comparable (.number n) ↔ n.ScaleFits := by
  refine ⟨fun h => h n .here, fun h m hw => ?_⟩
  cases hw
  exact h

theorem comparable_array : Comparable (.array items) ↔ ∀ d ∈ items, d.Comparable := by
  refine ⟨fun h d hd n hw => h n (.item hd hw), fun h n hw => ?_⟩
  cases hw with
  | item hd hw => exact h _ hd n hw

theorem comparable_object : Comparable (.object members) ↔ ∀ m ∈ members, m.2.Comparable := by
  refine ⟨fun h m hm n hw => h n (.member hm hw), fun h n hw => ?_⟩
  cases hw with
  | member hm hw => exact h _ hm n hw

end

/-! ## Equality one level down -/

/-- Two documents of one kind whose parts are equal. -/
inductive SameParts : Document → Document → Prop
  | null : SameParts .null .null
  | bool (value : Bool) : SameParts (.bool value) (.bool value)
  | number {m n : Numeral} {x y : Decimal} (hm : m.decimal? = some x) (hn : n.decimal? = some y)
    (hvalue : x.value = y.value) : SameParts (.number m) (.number n)
  | text (value : String) : SameParts (.text value) (.text value)
  | array {items items' : List Document}
    (hitems : List.Forall₂ (fun d e => d.same e = true) items items') :
    SameParts (.array items) (.array items')
  | object {members members' : Members} (hlength : members.length = members'.length)
    (hmembers : ∀ m ∈ members, ∃ e, members'.get? m.1 = some e ∧ m.2.same e = true) :
    SameParts (.object members) (.object members')

theorem sameNumber_iff {m n : Numeral} : same (.number m) (.number n) = true ↔
    ∃ x y, m.decimal? = some x ∧ n.decimal? = some y ∧ x.value = y.value := by
  rw [same, beq_iff_eq]
  unfold Numeral.compare?
  rcases m.decimal? with _ | x
  · simp
  · rcases n.decimal? with _ | y
    · simp
    · simpa using (Decimal.compare_compares x y).eq_eq

theorem sameItems_iff {ds es : List Document} :
    sameItems ds es = true ↔ List.Forall₂ (fun d e => d.same e = true) ds es := by
  induction ds generalizing es with
  | nil => cases es <;> simp [sameItems]
  | cons d ds ih => cases es <;> simp [sameItems, ih]

theorem sameMembers_iff {members members' : Members} : sameMembers members members' = true ↔
    ∀ m ∈ members, ∃ e, members'.get? m.1 = some e ∧ m.2.same e = true := by
  induction members with
  | nil => simp [sameMembers]
  | cons m members ih =>
    obtain ⟨key, d⟩ := m
    rw [sameMembers, Bool.and_eq_true, ih, List.forall_mem_cons]
    cases Members.get? members' key <;> simp

theorem same_iff {d e : Document} : d.same e = true ↔ SameParts d e := by
  constructor
  · intro h
    unfold same at h
    split at h
    case h_1 => exact .null
    case h_2 => rw [beq_iff_eq] at h; subst h; exact .bool _
    case h_3 m n =>
      obtain ⟨x, y, hm, hn, hvalue⟩ := sameNumber_iff.1 (by rw [same]; exact h)
      exact .number hm hn hvalue
    case h_4 => rw [beq_iff_eq] at h; subst h; exact .text _
    case h_5 => exact .array (sameItems_iff.1 h)
    case h_6 =>
      rw [Bool.and_eq_true, beq_iff_eq, sameMembers_iff] at h
      exact .object h.1 h.2
    case h_7 => cases h
  · intro h
    cases h with
    | null => rfl
    | bool value => rw [same, beq_self_eq_true]
    | number hm hn hvalue => exact sameNumber_iff.2 ⟨_, _, hm, hn, hvalue⟩
    | text value => rw [same, beq_self_eq_true]
    | array hitems => exact sameItems_iff.2 hitems
    | object hlength hmembers =>
      rw [same, beq_iff_eq.2 hlength, sameMembers_iff.2 hmembers]; rfl

/-! ## Equality of a document with itself -/

/-- What is equal to something has no number that spells no decimal. -/
theorem comparable_of_same {d e : Document} (h : d.same e = true) : d.Comparable := by
  induction d using induct generalizing e with
  | number m =>
    cases same_iff.1 h with
    | number hm _ _ => exact comparable_number.2 ((Numeral.exists_decimal_iff m).1 ⟨_, hm⟩)
  | array items ih =>
    cases same_iff.1 h with
    | array hitems =>
      obtain ⟨hlength, hplaces⟩ := List.forall₂_iff_get.1 hitems
      refine comparable_array.2 fun d hd => ?_
      obtain ⟨i, hi, rfl⟩ := List.getElem_of_mem hd
      exact ih _ hd (hplaces i hi (hlength ▸ hi))
  | object members ih =>
    cases same_iff.1 h with
    | object _ hmembers =>
      refine comparable_object.2 fun m hm => ?_
      obtain ⟨e, -, hme⟩ := hmembers m hm
      exact ih m hm hme
  | _ => intro n hw; cases hw

theorem same_self_iff {d : Document} (hd : d.Keyed) : d.same d = true ↔ d.Comparable := by
  refine ⟨comparable_of_same, fun h => same_iff.2 ?_⟩
  induction d using induct with
  | null => exact .null
  | bool value => exact .bool value
  | number n =>
    obtain ⟨x, hx⟩ := (Numeral.exists_decimal_iff n).2 (comparable_number.1 h)
    exact .number hx hx rfl
  | text value => exact .text value
  | array items ih =>
    exact .array (List.forall₂_same.2 fun d hmem =>
      same_iff.2 (ih d hmem (keyed_array.1 hd d hmem) (comparable_array.1 h d hmem)))
  | object members ih =>
    obtain ⟨hsorted, hvalues⟩ := keyed_object.1 hd
    exact .object rfl fun m hmem => ⟨m.2, Members.get?_of_mem hsorted hmem,
      same_iff.2 (ih m hmem (hvalues m hmem) (comparable_object.1 h m hmem))⟩

/-! ## Transitivity and symmetry -/

/-- Equality is transitive, whatever keys the objects list. -/
theorem same_trans {d e f : Document} (hde : d.same e = true) (hef : e.same f = true) :
    d.same f = true := by
  -- the first document fixes the kind of all three
  induction d using induct generalizing e f with
  | number m =>
    cases same_iff.1 hde with
    | number hm hn hvalue =>
      cases same_iff.1 hef with
      | number hn' hk hvalue' =>
        rw [hn] at hn'; cases hn'
        exact same_iff.2 (.number hm hk (hvalue.trans hvalue'))
  | array items ih =>
    cases same_iff.1 hde with
    | array hitems =>
      cases same_iff.1 hef with
      | array hitems' =>
        obtain ⟨hlength, hplaces⟩ := List.forall₂_iff_get.1 hitems
        obtain ⟨hlength', hplaces'⟩ := List.forall₂_iff_get.1 hitems'
        refine same_iff.2 (.array (List.forall₂_iff_get.2 ⟨hlength.trans hlength', fun i hi hi' => ?_⟩))
        have hmid : i < _ := hlength ▸ hi
        exact ih _ (List.get_mem _ _) (hplaces i hi hmid) (hplaces' i hmid hi')
  | object members ih =>
    cases same_iff.1 hde with
    | object hlength hmembers =>
      cases same_iff.1 hef with
      | object hlength' hmembers' =>
        refine same_iff.2 (.object (hlength.trans hlength') fun m hm => ?_)
        obtain ⟨e, he, hme⟩ := hmembers m hm
        obtain ⟨f, hf, hef⟩ := hmembers' _ (Members.mem_of_get? he)
        exact ⟨f, hf, ih m hm hme hef⟩
  | null => cases same_iff.1 hde; exact hef
  | bool value => cases same_iff.1 hde; exact hef
  | text value => cases same_iff.1 hde; exact hef

/-- One inclusion between the keys of two objects of one length gives the other. -/
theorem keys_subset_of_length_eq {members members' : Members} (hsorted : members.Sorted)
    (hlength : members.length = members'.length)
    (hkeys : members.map Prod.fst ⊆ members'.map Prod.fst) :
    members'.map Prod.fst ⊆ members.map Prod.fst := by
  have hnodup : (members.map Prod.fst).Nodup :=
    List.Pairwise.imp ne_of_lt (List.pairwise_map.2 hsorted)
  have hperm : (members.map Prod.fst).Perm (members'.map Prod.fst) :=
    (List.Nodup.subperm hnodup hkeys).perm_of_length_le (by simp [hlength])
  exact hperm.symm.subset

theorem same_symm {d e : Document} (hd : d.Keyed) (he : e.Keyed) (h : d.same e = true) :
    e.same d = true := by
  induction d using induct generalizing e with
  | number m =>
    cases same_iff.1 h with
    | number hm hn hvalue => exact same_iff.2 (.number hn hm hvalue.symm)
  | array items ih =>
    cases same_iff.1 h with
    | array hitems =>
      obtain ⟨hlength, hplaces⟩ := List.forall₂_iff_get.1 hitems
      refine same_iff.2 (.array (List.forall₂_iff_get.2 ⟨hlength.symm, fun i hi hi' => ?_⟩))
      exact ih _ (List.get_mem _ _) (keyed_array.1 hd _ (List.get_mem _ _))
        (keyed_array.1 he _ (List.get_mem _ _)) (hplaces i hi' hi)
  | object members ih =>
    cases same_iff.1 h with
    | @object _ members' hlength hmembers =>
      obtain ⟨hsorted, hvalues⟩ := keyed_object.1 hd
      obtain ⟨hsorted', hvalues'⟩ := keyed_object.1 he
      refine same_iff.2 (.object hlength.symm fun n hn => ?_)
      have hkeys : members.map Prod.fst ⊆ members'.map Prod.fst := by
        intro key hkey
        obtain ⟨m, hm, rfl⟩ := List.mem_map.1 hkey
        obtain ⟨e, hget, -⟩ := hmembers m hm
        exact List.mem_map.2 ⟨(m.1, e), Members.mem_of_get? hget, rfl⟩
      -- the key of each member on the right is one on the left, where its equal stands
      obtain ⟨m, hm, hkey⟩ := List.mem_map.1
        (keys_subset_of_length_eq hsorted hlength hkeys (List.mem_map_of_mem hn))
      obtain ⟨e, hget, hsame⟩ := hmembers m hm
      rw [hkey, Members.get?_of_mem hsorted' hn] at hget
      cases hget
      refine ⟨m.2, ?_, ih m hm (hvalues m hm) (hvalues' n hn) hsame⟩
      rw [← hkey]
      exact Members.get?_of_mem hsorted hm
  | null => cases same_iff.1 h; exact h
  | bool value => cases same_iff.1 h; exact h
  | text value => cases same_iff.1 h; exact h

theorem same_comm {d e : Document} (hd : d.Keyed) (he : e.Keyed) : d.same e = e.same d :=
  Bool.eq_iff_iff.2 ⟨same_symm hd he, same_symm he hd⟩

/-! ## Elements of collections -/

/-- An element is found in its collection exactly if it is equal to itself. -/
theorem any_same_values_iff {element collection : Document} (hkeyed : collection.Keyed)
    (helement : element ∈ collection.values) :
    collection.values.any (element.same ·) = true ↔ element.Comparable := by
  rw [List.any_eq_true]
  constructor
  · rintro ⟨other, -, hsame⟩
    exact comparable_of_same hsame
  · exact fun h => ⟨element, helement, (same_self_iff (hkeyed.of_mem_values helement)).2 h⟩

theorem isMember_of_mem_values {element collection : Document}
    (helement : element ∈ collection.values) (item : Document) :
    item.isMember collection = .ok (collection.values.any (item.same ·)) := by
  cases collection with
  | array items => rfl
  | object members => rw [isMember, values, List.any_map]; rfl
  | _ => cases helement

end Document

/-! ## Equality of operands -/

/-- A term stands for a document whose objects list their keys in order, as every document does that
is read (`Document.keyed_of_ofBytes`). -/
structure Term.IsValue (b : Bindings) (t : Term) (d : Document) : Prop where
  resolves : t.resolve b = .ok (some d)
  keyed : d.Keyed

/-- Equality of operands that have documents is symmetric and transitive, and `neq` is its negation. An
operand is equal to itself, and an element is found in its collection, exactly if every number in it
spells a decimal. -/
theorem evaluate_equality {b : Bindings} {x y z : Term} {d e f : Document} (hx : x.IsValue b d)
    (hy : y.IsValue b e) (hz : z.IsValue b f) :
    (∃ answer, Gives b "eq" x x answer ∧ (answer = true ↔ d.Comparable)) ∧
    (∃ answer, Gives b "eq" x y answer ∧ Gives b "eq" y x answer ∧ Gives b "neq" x y (!answer)) ∧
    (Gives b "eq" x y true → Gives b "eq" y z true → Gives b "eq" x z true) ∧
    ∀ t element, element ∈ e.values → t.resolve b = .ok (some element) →
      ∃ answer, Gives b "internal.member_2" t y answer ∧ (answer = true ↔ element.Comparable) := by
  have hequal : ∀ {l r : Term} {dl dr : Document}, l.IsValue b dl → r.IsValue b dr →
      Gives b "eq" l r (dl.same dr) := fun hl hr =>
    gives_of_defined rfl hl.resolves hr.resolves rfl
  refine ⟨⟨_, hequal hx hx, Document.same_self_iff hx.keyed⟩, ⟨_, hequal hx hy, ?_, ?_⟩,
    fun hxy hyz => ?_, fun t element helement ht => ?_⟩
  · rw [Document.same_comm hx.keyed hy.keyed]
    exact hequal hy hx
  · exact gives_of_defined rfl hx.resolves hy.resolves rfl
  · have hde := (hequal hx hy).inj hxy
    have hef := (hequal hy hz).inj hyz
    have h := hequal hx hz
    rwa [Document.same_trans hde hef] at h
  · exact ⟨_, gives_of_defined rfl ht hy.resolves (Document.isMember_of_mem_values helement element),
      Document.any_same_values_iff hy.keyed helement⟩

/-- A list of a number and an object with a number. -/
def sized (n size : Numeral) : Document :=
  .array [.number n, .object [("size", .number size)]]

theorem keyed_sized (n size : Numeral) : (sized n size).Keyed := by
  have hobject : Document.Keyed (.object [("size", .number size)]) :=
    Document.keyed_object.2 ⟨List.pairwise_singleton _ _,
      List.forall_mem_singleton.2 (Document.keyed_number size)⟩
  exact Document.keyed_array.2
    (List.forall_mem_cons.2 ⟨Document.keyed_number n, List.forall_mem_singleton.2 hobject⟩)

/-- The number `1.0`. -/
def onePointZero : Numeral :=
  { Numeral.ofNat 1 with fraction := some [.zero], fraction_ne := by decide }

/-- The number `1e1`. -/
def oneTimesTen : Numeral :=
  { Numeral.ofNat 1 with exponent := some (false, [.last 1]), exponent_ne := by decide }

/-- Three spellings of one list. -/
def threeSpellings : Bindings :=
  .bind (.bind (.bind .empty "x" (sized (.ofNat 1) oneTimesTen)) "y"
    (sized onePointZero (.ofNat 10))) "z" (sized onePointZero oneTimesTen)

/-- The three lists are equal to one another, and the object in the second is found there. -/
theorem evaluate_equality_spellings :
    ((Term.var "x").IsValue threeSpellings (sized (.ofNat 1) oneTimesTen) ∧
      (Term.var "y").IsValue threeSpellings (sized onePointZero (.ofNat 10)) ∧
      (Term.var "z").IsValue threeSpellings (sized onePointZero oneTimesTen)) ∧
    Gives threeSpellings "eq" (.var "x") (.var "y") true ∧
    Gives threeSpellings "eq" (.var "y") (.var "z") true ∧
    Gives threeSpellings "eq" (.var "x") (.var "z") true ∧
    Gives threeSpellings "internal.member_2" (.ref (.var "y") [.numeric (.ofInt 1)]) (.var "y") true := by
  have hx : (Term.var "x").IsValue threeSpellings _ := ⟨rfl, keyed_sized _ _⟩
  have hy : (Term.var "y").IsValue threeSpellings _ := ⟨rfl, keyed_sized _ _⟩
  have hz : (Term.var "z").IsValue threeSpellings _ := ⟨rfl, keyed_sized _ _⟩
  have hxy : Gives threeSpellings "eq" (.var "x") (.var "y") true :=
    gives_of_defined rfl hx.resolves hy.resolves (by cbv)
  have hyz : Gives threeSpellings "eq" (.var "y") (.var "z") true :=
    gives_of_defined rfl hy.resolves hz.resolves (by cbv)
  obtain ⟨-, -, htrans, hmember⟩ := evaluate_equality hx hy hz
  have hsize : Document.Comparable (.object [("size", .number (.ofNat 10))]) :=
    Document.comparable_object.2
      (List.forall_mem_singleton.2 (Document.comparable_number.2 (by decide +kernel)))
  obtain ⟨answer, hanswer, hiff⟩ := hmember (.ref (.var "y") [.numeric (.ofInt 1)]) _
    (List.mem_cons_of_mem _ List.mem_cons_self) (by cbv)
  rw [hiff.2 hsize] at hanswer
  exact ⟨⟨hx, hy, hz⟩, hxy, hyz, htrans hxy hyz, hanswer⟩

/-- The number `1e99999999999999999999`, whose scale fits no word. -/
def outOfScale : Numeral :=
  { Numeral.ofNat 1 with exponent := some (false, List.replicate 20 (.last 9)), exponent_ne := by decide }

/-- A number whose scale fits no word is not equal to itself, and not found in a list of it. -/
theorem evaluate_equality_outOfScale :
    Gives (.bind .empty "x" (.number outOfScale)) "eq" (.var "x") (.var "x") false ∧
      Gives (.bind .empty "x" (.number outOfScale)) "neq" (.var "x") (.var "x") true ∧
      Gives (.bind .empty "x" (.number outOfScale)) "internal.member_2" (.var "x")
        (.array [.var "x"]) false := by
  have hx : (Term.var "x").resolve (.bind .empty "x" (.number outOfScale)) =
      .ok (some (.number outOfScale)) := rfl
  have hlist : (Term.array [.var "x"]).resolve (.bind .empty "x" (.number outOfScale)) =
      .ok (some (.array [.number outOfScale])) := by cbv
  exact ⟨gives_of_defined rfl hx hx (by cbv), gives_of_defined rfl hx hx (by cbv),
    gives_of_defined rfl hx hlist (by cbv)⟩

end PolicyClient
