/-
Terms with their numbers settled, as they are after they have been written and read once. Settling
keeps equality (`equal_settled`), since it keeps the value of every number, and no set of a term
that was read lists two equal terms (`Proper`), so a set is kept as it is when it is read again.
-/
import PolicyClient.Proofs.Decimal.Text
import PolicyClient.Proofs.Fallible
import PolicyClient.Proofs.Term.Parts

namespace PolicyClient

/-- Settling keeps the value, and with it equality. -/
theorem Decimal.same_settled (x y : Decimal) : x.settled.same y.settled = x.same y := by
  rw [Bool.eq_iff_iff, same_iff, same_iff, value_settled, value_settled]

theorem Decimal.settled_settled (d : Decimal) : d.settled.settled = d.settled := by
  refine settled_of_no_padding ?_
  rcases Nat.eq_zero_or_pos (paddingOf d.scale) with h | h
  · rwa [settled_of_no_padding h]
  · have hscale : d.settled.scale = 0 := by
      have := scale_of_padding h
      change d.scale + paddingOf d.scale = 0
      omega
    rw [hscale]; rfl

namespace Term

/-! ## Settling -/

mutual

/-- The term with its numbers settled. -/
def settled : Term → Term
  | .ref root keys => .ref root.settled (settledAll keys)
  | .call function args => .call function.settled (settledAll args)
  | .var name => .var name
  | .numeric d => .numeric d.settled
  | .text value => .text value
  | .bool value => .bool value
  | .null => .null
  | .array items => .array (settledAll items)
  | .set items => .set (settledAll items)

/-- The terms with their numbers settled. -/
def settledAll : List Term → List Term
  | [] => []
  | t :: ts => t.settled :: settledAll ts

end

theorem settledAll_eq_map (ts : List Term) : settledAll ts = ts.map settled := by
  induction ts with
  | nil => rfl
  | cons t ts ih => rw [settledAll, ih, List.map_cons]

theorem settled_settled (t : Term) : t.settled.settled = t.settled := by
  have hall {ts : List Term} (h : ∀ t ∈ ts, t.settled.settled = t.settled) :
      settledAll (settledAll ts) = settledAll ts := by
    rw [settledAll_eq_map, settledAll_eq_map, List.map_map]
    exact List.map_congr_left h
  induction t using Term.induct with
  | ref root keys hroot hkeys => rw [settled, settled, hroot, hall hkeys]
  | call function args hfunction hargs => rw [settled, settled, hfunction, hall hargs]
  | numeric d => rw [settled, settled, d.settled_settled]
  | array items hitems => rw [settled, settled, hall hitems]
  | set items hitems => rw [settled, settled, hall hitems]
  | _ => rfl

/-! ## Equality -/

section

variable {as bs : List Term}

theorem equalAll_map_settled (h : ∀ a ∈ as, ∀ b ∈ bs, a.settled.equal b.settled = a.equal b) :
    equalAll (as.map settled) (bs.map settled) = equalAll as bs := by
  induction as generalizing bs with
  | nil => cases bs <;> simp [equalAll]
  | cons a as ih =>
    cases bs with
    | nil => simp [equalAll]
    | cons b bs =>
      rw [List.map_cons, List.map_cons, equalAll, equalAll, h a (.head _) b (.head _),
        ih fun a ha b hb => h a (.tail _ ha) b (.tail _ hb)]

theorem within_map_settled (h : ∀ a ∈ as, ∀ b ∈ bs, b.settled.equal a.settled = b.equal a) :
    within (as.map settled) (bs.map settled) = within as bs := by
  rw [Bool.eq_iff_iff, within_eq_true_iff, within_eq_true_iff, List.forall_mem_map]
  refine forall₂_congr fun a ha => ?_
  simp only [List.mem_map, exists_exists_and_eq_and]
  exact exists_congr fun b => and_congr_right fun hb => by rw [h a ha b hb]

end

/-- Two terms are equal exactly if they are once their numbers are settled. -/
theorem equal_settled (a b : Term) : a.settled.equal b.settled = a.equal b := by
  -- settling keeps the kind of a term, so terms of two kinds are unequal before and after
  induction a, b using induct_pair with
  | step a b ih =>
    cases a <;> cases b
    case ref.ref =>
      have hkeys := equalAll_map_settled fun k hk k' hk' => (ih k (.tail _ hk) k' (.tail _ hk')).1
      simp only [settled, equal, settledAll_eq_map, (ih _ (.head _) _ (.head _)).1, hkeys]
    case call.call =>
      have hargs := equalAll_map_settled fun a ha a' ha' => (ih a (.tail _ ha) a' (.tail _ ha')).1
      simp only [settled, equal, settledAll_eq_map, (ih _ (.head _) _ (.head _)).1, hargs]
    case numeric.numeric => simp only [settled, equal, Decimal.same_settled]
    case array.array =>
      simp only [settled, equal, settledAll_eq_map]
      exact equalAll_map_settled fun t ht u hu => (ih t ht u hu).1
    case set.set =>
      simp only [settled, equal, settledAll_eq_map, List.length_map]
      exact congrArg (_ && ·) (within_map_settled fun t ht u hu => (ih t ht u hu).2)
    all_goals simp only [settled, equal]

theorem equalAll_settledAll {ts : List Term} (h : ∀ t ∈ ts, t.settled.equal t = true) :
    equalAll (settledAll ts) ts = true := by
  rw [settledAll_eq_map, equalAll_eq_true_iff, List.forall₂_map_left_iff, List.forall₂_same]
  exact h

/-- A term is equal to itself with its numbers settled. -/
theorem settled_equal (t : Term) : t.settled.equal t = true := by
  rw [← equal_settled, settled_settled]
  exact equal_refl t.settled

/-! ## Sets -/

/-- No two terms of a list are equal. -/
def Unequal (ts : List Term) : Prop :=
  ts.Pairwise fun a b => a.equal b = false

theorem unequal_map_settled {ts : List Term} : Unequal (ts.map settled) ↔ Unequal ts := by
  unfold Unequal
  simp only [List.pairwise_map, equal_settled]

theorem isListed_eq_false_iff {t : Term} {kept : List Term} :
    t.isListed kept = false ↔ ∀ a ∈ kept, a.equal t = false := by
  rw [← Bool.not_eq_true, isListed_eq_true_iff]
  simp only [not_exists, not_and, Bool.not_eq_true]

theorem unequal_concat {kept : List Term} {t : Term} :
    Unequal (kept ++ [t]) ↔ Unequal kept ∧ t.isListed kept = false := by
  unfold Unequal
  rw [List.pairwise_append, isListed_eq_false_iff]
  simp

/-- What is kept of a list stands behind what was kept before, and no two terms of it are equal. -/
theorem unequal_foldl (ts kept : List Term) (h : Unequal kept) :
    Unequal (ts.foldl (fun kept t => if t.isListed kept then kept else kept ++ [t]) kept) := by
  induction ts generalizing kept with
  | nil => exact h
  | cons t ts ih =>
    rw [List.foldl_cons]
    split
    · exact ih kept h
    · next hlisted => exact ih _ (unequal_concat.2 ⟨h, Bool.eq_false_iff.2 hlisted⟩)

theorem mem_of_mem_foldl {ts kept : List Term} {t : Term}
    (h : t ∈ ts.foldl (fun kept t => if t.isListed kept then kept else kept ++ [t]) kept) :
    t ∈ kept ∨ t ∈ ts := by
  induction ts generalizing kept with
  | nil => exact .inl h
  | cons u ts ih =>
    rw [List.foldl_cons] at h
    rcases ih h with hkept | hts
    · split at hkept
      · exact .inl hkept
      · rcases List.mem_append.1 hkept with hkept | hu
        · exact .inl hkept
        · rw [List.mem_singleton.1 hu]; exact .inr (by simp)
    · exact .inr (by simp [hts])

/-- A list without equal terms is kept whole. -/
theorem foldl_of_unequal {ts kept : List Term} (h : Unequal (kept ++ ts)) :
    ts.foldl (fun kept t => if t.isListed kept then kept else kept ++ [t]) kept = kept ++ ts := by
  induction ts generalizing kept with
  | nil => rw [List.foldl_nil, List.append_nil]
  | cons t ts ih =>
    rw [List.append_cons] at h ⊢
    have hlisted := (unequal_concat.1 (List.pairwise_append.1 h).1).2
    rw [List.foldl_cons, if_neg (by rw [hlisted]; nofun), ih h]

theorem unequal_distinct (ts : List Term) : Unequal (distinct ts) :=
  unequal_foldl ts [] List.Pairwise.nil

theorem mem_of_mem_distinct {ts : List Term} {t : Term} (h : t ∈ distinct ts) : t ∈ ts :=
  (mem_of_mem_foldl h).resolve_left (by simp)

theorem distinct_of_unequal {ts : List Term} (h : Unequal ts) : distinct ts = ts :=
  foldl_of_unequal h

/-! ## Proper terms -/

/-- No set within a term lists two equal terms. -/
inductive Proper : Term → Prop
  | ref {root : Term} {keys : List Term} (hroot : Proper root) (hkeys : ∀ k ∈ keys, Proper k) :
    Proper (.ref root keys)
  | call {function : Term} {args : List Term} (hfunction : Proper function)
    (hargs : ∀ a ∈ args, Proper a) : Proper (.call function args)
  | var (name : String) : Proper (.var name)
  | numeric (value : Decimal) : Proper (.numeric value)
  | text (value : String) : Proper (.text value)
  | bool (value : Bool) : Proper (.bool value)
  | null : Proper .null
  | array {items : List Term} (hitems : ∀ t ∈ items, Proper t) : Proper (.array items)
  | set {items : List Term} (hitems : ∀ t ∈ items, Proper t) (hunequal : Unequal items) :
    Proper (.set items)

theorem Proper.of_mem_parts {t u : Term} (h : Proper t) (hu : u ∈ t.parts) : Proper u := by
  cases h with
  | ref hroot hkeys => exact List.forall_mem_cons.2 ⟨hroot, hkeys⟩ u hu
  | call hfunction hargs => exact List.forall_mem_cons.2 ⟨hfunction, hargs⟩ u hu
  | array hitems => exact hitems u hu
  | set hitems _ => exact hitems u hu
  | _ => cases hu

/-- A set that is read drops the repetitions of its terms. -/
theorem proper_setOf {ts : List Term} (h : ∀ t ∈ ts, Proper t) : Proper (setOf ts) :=
  .set (fun t ht => h t (mem_of_mem_distinct ht)) (unequal_distinct ts)

end Term
end PolicyClient
