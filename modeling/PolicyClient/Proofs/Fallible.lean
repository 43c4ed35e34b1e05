/-
Computations that fail with an error: when a sequence succeeds, and which element decides a
quantifier over a list. `mapM` succeeds if every element does; `anyM` and `allM` stop at the first
element that settles the answer, so an error shows only if no element before it has settled it.
-/
import Mathlib.Data.List.Forall2

namespace PolicyClient.Fallible

variable {ε δ α β γ : Type}

/-- The error of a computation, if it fails. -/
def error? : Except ε α → Option ε
  | .ok _ => none
  | .error e => some e

@[simp] theorem error?_ok (a : α) : error? (.ok a : Except ε α) = none := rfl

@[simp] theorem error?_error (e : ε) : error? (.error e : Except ε α) = some e := rfl

/-! ## Sequences -/

theorem bind_eq_ok {x : Except ε α} {f : α → Except ε β} {b : β} :
    (x >>= f) = .ok b ↔ ∃ a, x = .ok a ∧ f a = .ok b := by
  cases x with
  | error e =>
    constructor
    · intro h; cases h
    · rintro ⟨a, h, -⟩; cases h
  | ok a =>
    constructor
    · intro h; exact ⟨a, rfl, h⟩
    · rintro ⟨a', h, hf⟩; cases h; exact hf

theorem map_eq_ok {x : Except ε α} {f : α → β} {b : β} :
    x.map f = .ok b ↔ ∃ a, x = .ok a ∧ f a = b := by
  cases x with
  | error e =>
    constructor
    · intro h; cases h
    · rintro ⟨a, h, -⟩; cases h
  | ok a => simp [Except.map]

theorem map_eq_error {x : Except ε α} {f : α → β} {e : ε} : x.map f = .error e ↔ x = .error e := by
  cases x <;> simp [Except.map]

theorem mapError_eq_ok {x : Except ε α} {f : ε → δ} {a : α} : x.mapError f = .ok a ↔ x = .ok a := by
  cases x <;> simp [Except.mapError]

/-! ## Lists -/

/-- A list is mapped element by element. -/
theorem mapM_eq_ok_iff {f : α → Except ε β} {as : List α} {bs : List β} :
    as.mapM f = .ok bs ↔ List.Forall₂ (fun a b => f a = .ok b) as bs := by
  induction as generalizing bs with
  | nil =>
    rw [List.forall₂_nil_left_iff]
    exact ⟨fun h => (Except.ok.inj h).symm, fun h => by rw [h]; rfl⟩
  | cons a as ih =>
    rw [List.mapM_cons, List.forall₂_cons_left_iff, bind_eq_ok]
    constructor
    · rintro ⟨b, hb, h⟩
      obtain ⟨bs', hbs', h⟩ := bind_eq_ok.1 h
      cases h
      exact ⟨b, bs', hb, ih.1 hbs', rfl⟩
    · rintro ⟨b, bs', hb, hbs', rfl⟩
      exact ⟨b, hb, bind_eq_ok.2 ⟨bs', ih.2 hbs', rfl⟩⟩

theorem mem_of_mapM {f : α → Except ε β} {as : List α} {bs : List β} (h : as.mapM f = .ok bs)
    {b : β} (hb : b ∈ bs) : ∃ a ∈ as, f a = .ok b := by
  have hall := List.forall₂_iff_get.1 (mapM_eq_ok_iff.1 h)
  obtain ⟨i, hi, rfl⟩ := List.getElem_of_mem hb
  have hi' : i < as.length := by rw [hall.1]; exact hi
  exact ⟨as[i], List.getElem_mem hi', hall.2 i hi' hi⟩

theorem exists_mem_of_mapM {f : α → Except ε β} {as : List α} {bs : List β} (h : as.mapM f = .ok bs)
    {a : α} (ha : a ∈ as) : ∃ b ∈ bs, f a = .ok b := by
  have hall := List.forall₂_iff_get.1 (mapM_eq_ok_iff.1 h)
  obtain ⟨i, hi, rfl⟩ := List.getElem_of_mem ha
  have hi' : i < bs.length := by rw [← hall.1]; exact hi
  exact ⟨bs[i], List.getElem_mem hi', hall.2 i hi hi'⟩

theorem exists_ok_of_mapM {f : α → Except ε β} {as : List α} {bs : List β} (h : as.mapM f = .ok bs)
    {a : α} (ha : a ∈ as) : ∃ b, f a = .ok b := by
  obtain ⟨b, -, hb⟩ := exists_mem_of_mapM h ha
  exact ⟨b, hb⟩

theorem eq_nil_iff_of_mapM {f : α → Except ε β} {as : List α} {bs : List β}
    (h : as.mapM f = .ok bs) : bs = [] ↔ as = [] := by
  rw [← List.length_eq_zero_iff, ← List.length_eq_zero_iff, (mapM_eq_ok_iff.1 h).length_eq]

/-- An error is that of one element, and every element before it is mapped. -/
theorem mapM_eq_error {f : α → Except ε β} {as : List α} {e : ε} (h : as.mapM f = .error e) :
    ∃ pre a post, as = pre ++ a :: post ∧ (∀ x ∈ pre, ∃ b, f x = .ok b) ∧ f a = .error e := by
  induction as with
  | nil => cases h
  | cons a as ih =>
    rw [List.mapM_cons] at h
    rcases hf : f a with e' | b
    · rw [hf] at h; cases h
      exact ⟨[], a, as, rfl, by simp, hf⟩
    · rw [hf] at h
      have htail : as.mapM f = .error e := by
        rcases hr : as.mapM f with e' | bs
        · rw [hr] at h; exact h
        · rw [hr] at h; cases h
      obtain ⟨pre, x, post, rfl, hpre, hx⟩ := ih htail
      exact ⟨a :: pre, x, post, rfl, by simpa using ⟨⟨b, hf⟩, hpre⟩, hx⟩

/-! ## Quantifiers -/

theorem anyM_cons (f : α → Except ε Bool) (a : α) (as : List α) :
    (a :: as).anyM f = match f a with
      | .error e => .error e
      | .ok true => .ok true
      | .ok false => as.anyM f := by
  rw [List.anyM_cons]
  rcases f a with e | (_ | _) <;> rfl

theorem allM_cons (f : α → Except ε Bool) (a : α) (as : List α) :
    (a :: as).allM f = match f a with
      | .error e => .error e
      | .ok true => as.allM f
      | .ok false => .ok false := by
  rw [List.allM_cons]
  rcases f a with e | (_ | _) <;> rfl

theorem anyM_singleton (f : α → Except ε Bool) (a : α) : [a].anyM f = f a := by
  rw [anyM_cons]
  rcases f a with e | (_ | _) <;> rfl

theorem allM_singleton (f : α → Except ε Bool) (a : α) : [a].allM f = f a := by
  rw [allM_cons]
  rcases f a with e | (_ | _) <;> rfl

theorem anyM_congr {f g : α → Except ε Bool} {as : List α} (h : ∀ a ∈ as, f a = g a) :
    as.anyM f = as.anyM g := by
  induction as with
  | nil => rfl
  | cons a as ih =>
    obtain ⟨ha, has⟩ := List.forall_mem_cons.1 h
    rw [anyM_cons, anyM_cons, ha, ih has]

theorem allM_congr {f g : α → Except ε Bool} {as : List α} (h : ∀ a ∈ as, f a = g a) :
    as.allM f = as.allM g := by
  induction as with
  | nil => rfl
  | cons a as ih =>
    obtain ⟨ha, has⟩ := List.forall_mem_cons.1 h
    rw [allM_cons, allM_cons, ha, ih has]

theorem anyM_map (f : β → Except ε Bool) (g : α → β) (as : List α) :
    (as.map g).anyM f = as.anyM fun a => f (g a) := by
  induction as with
  | nil => rfl
  | cons a as ih => rw [List.map_cons, anyM_cons, anyM_cons, ih]

theorem allM_map (f : β → Except ε Bool) (g : α → β) (as : List α) :
    (as.map g).allM f = as.allM fun a => f (g a) := by
  induction as with
  | nil => rfl
  | cons a as ih => rw [List.map_cons, allM_cons, allM_cons, ih]

theorem anyM_mapError (f : α → Except ε Bool) (g : ε → δ) (as : List α) :
    (as.anyM f).mapError g = as.anyM fun a => (f a).mapError g := by
  induction as with
  | nil => rfl
  | cons a as ih =>
    rw [anyM_cons, anyM_cons, ← ih]
    rcases f a with e | (_ | _) <;> rfl

theorem allM_mapError (f : α → Except ε Bool) (g : ε → δ) (as : List α) :
    (as.allM f).mapError g = as.allM fun a => (f a).mapError g := by
  induction as with
  | nil => rfl
  | cons a as ih =>
    rw [allM_cons, allM_cons, ← ih]
    rcases f a with e | (_ | _) <;> rfl

theorem anyM_append (f : α → Except ε Bool) (as bs : List α) :
    (as ++ bs).anyM f = match as.anyM f with
      | .error e => .error e
      | .ok true => .ok true
      | .ok false => bs.anyM f := by
  induction as with
  | nil => rfl
  | cons a as ih =>
    rw [List.cons_append, anyM_cons, anyM_cons, ih]
    rcases f a with e | (_ | _) <;> rfl

theorem anyM_flatMap (f : β → Except ε Bool) (g : α → List β) (as : List α) :
    (as.flatMap g).anyM f = as.anyM fun a => (g a).anyM f := by
  induction as with
  | nil => rfl
  | cons a as ih => rw [List.flatMap_cons, anyM_append, anyM_cons, ih]

theorem anyM_eq_false_iff {f : α → Except ε Bool} {as : List α} :
    as.anyM f = .ok false ↔ ∀ a ∈ as, f a = .ok false := by
  induction as with
  | nil => simp [pure, Except.pure]
  | cons a as ih =>
    rw [anyM_cons, List.forall_mem_cons, ← ih]
    rcases f a with e | (_ | _) <;> simp

theorem allM_eq_true_iff {f : α → Except ε Bool} {as : List α} :
    as.allM f = .ok true ↔ ∀ a ∈ as, f a = .ok true := by
  induction as with
  | nil => simp [pure, Except.pure]
  | cons a as ih =>
    rw [allM_cons, List.forall_mem_cons, ← ih]
    rcases f a with e | (_ | _) <;> simp

/-- Every answer but `false` is that of one element, and all elements before it are `false`. -/
theorem anyM_eq_iff {f : α → Except ε Bool} {as : List α} {r : Except ε Bool} (hr : r ≠ .ok false) :
    as.anyM f = r ↔ ∃ pre a post, as = pre ++ a :: post ∧ (∀ x ∈ pre, f x = .ok false) ∧ f a = r := by
  induction as with
  | nil =>
    constructor
    · intro h; exact absurd h.symm hr
    · rintro ⟨pre, a, post, h, -⟩; simp at h
  | cons a as ih =>
    rw [anyM_cons]
    constructor
    · intro h
      rcases hf : f a with e | (_ | _)
      · rw [hf] at h; exact ⟨[], a, as, rfl, by simp, hf.trans h⟩
      · rw [hf] at h
        obtain ⟨pre, x, post, rfl, hpre, hx⟩ := ih.1 h
        exact ⟨a :: pre, x, post, rfl, by simpa using ⟨hf, hpre⟩, hx⟩
      · rw [hf] at h; exact ⟨[], a, as, rfl, by simp, hf.trans h⟩
    · rintro ⟨pre, x, post, h, hpre, hx⟩
      cases pre with
      | nil =>
        obtain ⟨rfl, rfl⟩ := List.cons.inj h
        rw [hx]
        rcases r with e | (_ | _)
        · rfl
        · exact absurd rfl hr
        · rfl
      | cons y pre =>
        obtain ⟨rfl, rfl⟩ := List.cons.inj h
        rw [hpre a (by simp)]
        exact ih.2 ⟨pre, x, post, rfl, fun z hz => hpre z (by simp [hz]), hx⟩

/-- The first element that is not `true` settles the answer. -/
theorem allM_of_first {f : α → Except ε Bool} {pre : List α} {a : α} (post : List α)
    (hpre : ∀ x ∈ pre, f x = .ok true) (ha : f a ≠ .ok true) : (pre ++ a :: post).allM f = f a := by
  induction pre with
  | nil =>
    rw [List.nil_append, allM_cons]
    rcases hf : f a with e | (_ | _)
    · rfl
    · rfl
    · exact absurd hf ha
  | cons x pre ih =>
    obtain ⟨hx, hpre⟩ := List.forall_mem_cons.1 hpre
    rw [List.cons_append, allM_cons, hx]
    exact ih hpre

/-- A `false` answer is that of one element, and all elements before it are `true`. -/
theorem allM_eq_false {f : α → Except ε Bool} {as : List α} (h : as.allM f = .ok false) :
    ∃ a ∈ as, f a = .ok false := by
  induction as with
  | nil => cases h
  | cons a as ih =>
    rw [allM_cons] at h
    rcases hf : f a with e | (_ | _)
    · rw [hf] at h; cases h
    · exact ⟨a, by simp, hf⟩
    · rw [hf] at h
      obtain ⟨x, hx, hfx⟩ := ih h
      exact ⟨x, by simp [hx], hfx⟩

theorem allM_eq_error {f : α → Except ε Bool} {as : List α} {e : ε} (h : as.allM f = .error e) :
    ∃ a ∈ as, f a = .error e := by
  induction as with
  | nil => cases h
  | cons a as ih =>
    rw [allM_cons] at h
    rcases hf : f a with e' | (_ | _)
    · rw [hf] at h; cases h; exact ⟨a, by simp, hf⟩
    · rw [hf] at h; cases h
    · rw [hf] at h
      obtain ⟨x, hx, hfx⟩ := ih h
      exact ⟨x, by simp [hx], hfx⟩

end PolicyClient.Fallible
