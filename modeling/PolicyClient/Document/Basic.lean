/-
Documents: the values that servers, bindings and queries exchange. Members of an object stand in
the order of their keys, each key once; `Members.insert` and `Members.ofList` keep it so.
-/
import PolicyClient.Document.Numeral

namespace PolicyClient

/-- A document. The members of an object are sorted by key. -/
inductive Document
  | null
  | bool (value : Bool)
  | number (value : Numeral)
  | text (value : String)
  | array (items : List Document)
  | object (members : List (String × Document))
  deriving Repr

/-- The members of an object. -/
abbrev Members := List (String × Document)

/-! ## Members -/

namespace Members

/-- The value of a key. -/
def get? : Members → String → Option Document
  | [], _ => none
  | (key, value) :: rest, name => if key = name then some value else get? rest name

/-- The members with `name` set to `value`, in the order of the keys. -/
def insert : Members → String → Document → Members
  | [], name, value => [(name, value)]
  | (key, old) :: rest, name, value =>
    if key = name then (name, value) :: rest
    else if name < key then (name, value) :: (key, old) :: rest
    else (key, old) :: insert rest name value

/-- The members listed, where a later value of a key replaces an earlier one. -/
def ofList (entries : List (String × Document)) : Members :=
  entries.foldl (fun members entry => members.insert entry.1 entry.2) []

/-- The members without a key. -/
def erase (members : Members) (name : String) : Members :=
  members.filter (·.1 ≠ name)

/-- The keys stand in order, each once. -/
def Sorted (members : Members) : Prop :=
  members.Pairwise (·.1 < ·.1)

theorem mem_of_get? {members : Members} {name : String} {d : Document}
    (h : members.get? name = some d) : (name, d) ∈ members := by
  induction members with
  | nil => cases h
  | cons entry rest ih =>
    obtain ⟨key, value⟩ := entry
    rw [get?] at h
    split at h
    · next hk => cases h; subst hk; exact List.mem_cons_self
    · exact List.mem_cons_of_mem _ (ih h)

end Members

namespace Document

instance : Inhabited Document := ⟨.null⟩

/-- Induction over documents, with the hypothesis for every item and every member. -/
@[elab_as_elim]
theorem induct {motive : Document → Prop} (null : motive .null) (bool : ∀ value, motive (.bool value))
    (number : ∀ value, motive (.number value)) (text : ∀ value, motive (.text value))
    (array : ∀ items, (∀ d ∈ items, motive d) → motive (.array items))
    (object : ∀ members, (∀ m ∈ members, motive m.2) → motive (.object members))
    (d : Document) : motive d := by
  refine @Document.rec motive (fun ds => ∀ d ∈ ds, motive d) (fun ms => ∀ m ∈ ms, motive m.2)
    (fun m => motive m.2) null bool number text array object ?_ ?_ ?_ ?_ ?_ d
  · intro d h; cases h
  · intro d ds hd hds e he
    rcases List.mem_cons.1 he with rfl | he
    · exact hd
    · exact hds e he
  · intro m h; cases h
  · intro m ms hm hms n hn
    rcases List.mem_cons.1 hn with rfl | hn
    · exact hm
    · exact hms n hn
  · intro key value hvalue; exact hvalue

/-- Induction over documents that nest through arrays in the members of objects: an object has the
hypothesis for the items of these arrays. -/
@[elab_as_elim]
theorem induct_items {motive : Document → Prop}
    (object : ∀ members, (∀ name items, (name, array items) ∈ members → ∀ d ∈ items, motive d) →
      motive (.object members))
    (other : ∀ d, (∀ members, d ≠ .object members) → motive d) (d : Document) : motive d := by
  -- the items of an array have the hypothesis one level before the array is used
  suffices hboth : motive d ∧ ∀ items, d = .array items → ∀ e ∈ items, motive e from hboth.1
  induction d using induct with
  | array items ih =>
    refine ⟨other _ nofun, ?_⟩
    rintro _ ⟨⟩ e he
    exact (ih e he).1
  | object members ih =>
    exact ⟨object members fun name items hm => (ih _ hm).2 items rfl, nofun⟩
  | _ => exact ⟨other _ nofun, nofun⟩

/-! ## Equality -/

mutual

/-- Equality of documents, number spellings included. -/
def beq : Document → Document → Bool
  | .null, .null => true
  | .bool a, .bool b => a == b
  | .number a, .number b => a == b
  | .text a, .text b => a == b
  | .array a, .array b => beqItems a b
  | .object a, .object b => beqMembers a b
  | _, _ => false

/-- Equality item by item. -/
def beqItems : List Document → List Document → Bool
  | [], [] => true
  | a :: as, b :: bs => beq a b && beqItems as bs
  | _, _ => false

/-- Equality member by member. -/
def beqMembers : List (String × Document) → List (String × Document) → Bool
  | [], [] => true
  | (k, a) :: as, (l, b) :: bs => k == l && beq a b && beqMembers as bs
  | _, _ => false

end

instance : BEq Document := ⟨beq⟩

/-! ## Kinds -/

/-- The name of the kind of a document. -/
def kind : Document → String
  | .null => "null"
  | .bool _ => "boolean"
  | .number _ => "number"
  | .text _ => "string"
  | .array _ => "array"
  | .object _ => "object"

/-- A natural number as a document. -/
def ofNat (n : Nat) : Document :=
  .number (.ofNat n)

/-- An object with the given members, sorted. -/
def ofMembers (entries : List (String × Document)) : Document :=
  .object (Members.ofList entries)

end Document
end PolicyClient
