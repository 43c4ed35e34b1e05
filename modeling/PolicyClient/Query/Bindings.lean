/-
Bindings: the documents that variables stand for. A name is bound once; binding it again replaces
its document.
-/
import PolicyClient.Document.Basic

namespace PolicyClient

/-- The documents of the bound variables, by name. -/
structure Bindings where
  members : Members

namespace Bindings

instance : Inhabited Bindings := ⟨⟨[]⟩⟩

/-- No variable is bound. -/
def empty : Bindings :=
  ⟨[]⟩

/-- The document of a variable, if it is bound. -/
def get? (b : Bindings) (name : String) : Option Document :=
  b.members.get? name

/-- The bindings with one variable bound to a document. -/
def bind (b : Bindings) (name : String) (value : Document) : Bindings :=
  ⟨b.members.insert name value⟩

/-- Whether no variable is bound. -/
def isEmpty (b : Bindings) : Bool :=
  b.members.isEmpty

end Bindings

/-! ## Looking up what was inserted -/

namespace Members

theorem get?_insert_self (members : Members) (name : String) (value : Document) :
    (members.insert name value).get? name = some value := by
  induction members with
  | nil => simp [insert, get?]
  | cons entry rest ih =>
    obtain ⟨key, old⟩ := entry
    unfold insert
    split
    · simp [get?]
    · split
      · simp [get?]
      · next h _ => simp [get?, h, ih]

theorem get?_insert_of_ne {members : Members} {name other : String} (value : Document)
    (h : name ≠ other) : (members.insert name value).get? other = members.get? other := by
  induction members with
  | nil => simp [insert, get?, h]
  | cons entry rest ih =>
    obtain ⟨key, old⟩ := entry
    unfold insert
    split
    · next hk => subst hk; simp [get?, h]
    · split
      · simp [get?, h]
      · simp [get?, ih]

end Members

namespace Bindings

theorem get?_bind_self (b : Bindings) (name : String) (value : Document) :
    (b.bind name value).get? name = some value :=
  Members.get?_insert_self b.members name value

theorem get?_bind_of_ne {b : Bindings} {name other : String} (value : Document)
    (h : name ≠ other) : (b.bind name value).get? other = b.get? other :=
  Members.get?_insert_of_ne value h

end Bindings
end PolicyClient
