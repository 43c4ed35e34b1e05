/-
Equality of terms on the terms that are built: an equivalence, though sets are compared by their
lengths and one inclusion only, since no set that is built lists two equal terms. A set keeps the
first of its equal terms, in order, and two sets are equal exactly if each term of either list has
an equal in the other.
-/
import Mathlib
import PolicyClient.Proofs.Term.Settled

namespace PolicyClient
namespace Term

/-! ## Symmetry -/

theorem forall₂_equal_symm {as bs : List Term}
    (hsymm : ∀ a ∈ as, ∀ b ∈ bs, a.equal b = true → b.equal a = true)
    (hab : List.Forall₂ (fun a b => a.equal b = true) as bs) :
    List.Forall₂ (fun b a => b.equal a = true) bs as := by
  induction hab with
  | nil => exact .nil
  | cons hab _ ih =>
    exact .cons (hsymm _ (.head _) _ (.head _) hab)
      (ih fun a ha b hb => hsymm a (.tail _ ha) b (.tail _ hb))

section

variable {as bs : List Term}
  (hsymm : ∀ a ∈ as, ∀ b ∈ bs, b.equal a = true → a.equal b = true) (hunequal : Unequal as)
  (hwithin : ∀ a ∈ as, ∃ b ∈ bs, b.equal a = true)
include hsymm hunequal hwithin

/-- Terms no two of which are equal have their equals at different places of any list. -/
theorem exists_injective_of_within :
    ∃ f : Fin as.length → Fin bs.length, Function.Injective f ∧
      ∀ i, (as.get i).equal (bs.get (f i)) = true := by
  have hplace : ∀ i : Fin as.length, ∃ j : Fin bs.length, (bs.get j).equal (as.get i) = true := by
    intro i
    obtain ⟨b, hb, hbi⟩ := hwithin (as.get i) (List.get_mem as i)
    obtain ⟨j, rfl⟩ := List.get_of_mem hb
    exact ⟨j, hbi⟩
  choose f hf using hplace
  have hf' (i : Fin as.length) : (as.get i).equal (bs.get (f i)) = true :=
    hsymm _ (List.get_mem as i) _ (List.get_mem bs (f i)) (hf i)
  refine ⟨f, fun i j hij => ?_, hf'⟩
  -- both terms are equal to the one at the shared place, so to each other
  have hequal : ∀ i j, f i = f j → (as.get i).equal (as.get j) = true := fun i j hij =>
    equal_trans (hf' i) (hij ▸ hf j)
  have hdiffer := List.pairwise_iff_get.1 hunequal
  rcases lt_trichotomy i j with hlt | heq | hgt
  · exact absurd (hequal i j hij) (by rw [hdiffer i j hlt]; nofun)
  · exact heq
  · exact absurd (hequal j i hij.symm) (by rw [hdiffer j i hgt]; nofun)

theorem length_le_of_within : as.length ≤ bs.length := by
  obtain ⟨f, hf, -⟩ := exists_injective_of_within hsymm hunequal hwithin
  simpa using Fintype.card_le_of_injective f hf

/-- One inclusion between lists of one length gives the other, since each place is taken. -/
theorem within_of_length_eq (hlength : as.length = bs.length) :
    ∀ b ∈ bs, ∃ a ∈ as, a.equal b = true := by
  obtain ⟨f, hf, hequal⟩ := exists_injective_of_within hsymm hunequal hwithin
  have hsurjective : Function.Surjective f :=
    ((Fintype.bijective_iff_injective_and_card f).2 ⟨hf, by simpa using hlength⟩).surjective
  intro b hb
  obtain ⟨j, rfl⟩ := List.get_of_mem hb
  obtain ⟨i, rfl⟩ := hsurjective j
  exact ⟨as.get i, List.get_mem as i, hequal i⟩

end

/-- Equality is symmetric where no set lists two equal terms. -/
theorem equal_symm {a b : Term} (ha : Proper a) (hb : Proper b) (hab : a.equal b = true) :
    b.equal a = true := by
  -- in a set, the hypothesis for its elements is what places them one by one
  induction a, b using induct_pair with
  | step a b ih =>
    have hpart : ∀ t ∈ a.parts, ∀ u ∈ b.parts,
        (t.equal u = true → u.equal t = true) ∧ (u.equal t = true → t.equal u = true) :=
      fun t ht u hu => (ih t ht u hu).imp (· (ha.of_mem_parts ht) (hb.of_mem_parts hu))
        (· (hb.of_mem_parts hu) (ha.of_mem_parts ht))
    cases equal_iff.1 hab with
    | ref hroot hkeys =>
      have hkeys := forall₂_equal_symm
        (fun k hk k' hk' => (hpart k (.tail _ hk) k' (.tail _ hk')).1) hkeys
      exact equal_iff.2 (.ref ((hpart _ (.head _) _ (.head _)).1 hroot) hkeys)
    | call hfunction hargs =>
      have hargs := forall₂_equal_symm
        (fun a ha a' ha' => (hpart a (.tail _ ha) a' (.tail _ ha')).1) hargs
      exact equal_iff.2 (.call ((hpart _ (.head _) _ (.head _)).1 hfunction) hargs)
    | array hitems =>
      exact equal_iff.2 (.array (forall₂_equal_symm (fun t ht u hu => (hpart t ht u hu).1) hitems))
    | set hlength hitems =>
      cases ha with
      | set _ hunequal =>
        have hitems := within_of_length_eq (fun t ht u hu => (hpart t ht u hu).2) hunequal hitems
          hlength
        exact equal_iff.2 (.set hlength.symm hitems)
    | numeric hvalue => exact equal_iff.2 (.numeric hvalue.symm)
    | _ => exact hab

theorem equal_equivalence :
    Equivalence fun a b : {t : Term // Proper t} => a.1.equal b.1 = true where
  refl a := equal_refl a.1
  symm {a b} := equal_symm a.2 b.2
  trans := equal_trans

/-! ## First occurrences -/

/-- The terms of a list that no term before them is equal to. -/
def firsts (ts : List Term) : List Term :=
  (ts.zipIdx.filter fun p => !p.1.isListed (ts.take p.2)).map Prod.fst

theorem firsts_concat (ts : List Term) (t : Term) :
    firsts (ts ++ [t]) = firsts ts ++ if t.isListed ts then [] else [t] := by
  have hkept : (ts.zipIdx.filter fun p => !p.1.isListed ((ts ++ [t]).take p.2)) =
      ts.zipIdx.filter fun p => !p.1.isListed (ts.take p.2) := by
    refine List.filter_congr fun p hp => ?_
    rw [List.take_append_of_le_length (List.snd_lt_of_mem_zipIdx hp).le]
  unfold firsts
  rw [List.zipIdx_append, List.filter_append, List.map_append, hkept]
  congr 1
  cases hlisted : t.isListed ts <;> simp [hlisted]

theorem distinct_concat (ts : List Term) (t : Term) :
    distinct (ts ++ [t]) = distinct ts ++ if t.isListed (distinct ts) then [] else [t] := by
  unfold distinct
  rw [List.foldl_append, List.foldl_cons, List.foldl_nil]
  split <;> simp

/-- Of the terms equal to one in the list, one is kept. -/
theorem exists_mem_distinct {ts : List Term} {t : Term} (ht : t ∈ ts) :
    ∃ u ∈ distinct ts, u.equal t = true := by
  induction ts using List.reverseRecOn with
  | nil => cases ht
  | append_singleton ts u ih =>
    rw [distinct_concat]
    rcases List.mem_append.1 ht with ht | ht
    · obtain ⟨v, hv, hvt⟩ := ih ht
      exact ⟨v, List.mem_append_left _ hv, hvt⟩
    · rw [List.mem_singleton] at ht
      subst ht
      split
      · next hlisted =>
        obtain ⟨v, hv, hvt⟩ := isListed_eq_true_iff.1 hlisted
        exact ⟨v, List.mem_append_left _ hv, hvt⟩
      · exact ⟨t, List.mem_append_right _ (by simp), equal_refl t⟩

/-- What is kept lists the same terms, up to equality. -/
theorem isListed_distinct (t : Term) (ts : List Term) :
    t.isListed (distinct ts) = t.isListed ts := by
  rw [Bool.eq_iff_iff, isListed_eq_true_iff, isListed_eq_true_iff]
  constructor
  · rintro ⟨u, hu, hut⟩
    exact ⟨u, mem_of_mem_distinct hu, hut⟩
  · rintro ⟨u, hu, hut⟩
    obtain ⟨v, hv, hvu⟩ := exists_mem_distinct hu
    exact ⟨v, hv, equal_trans hvu hut⟩

theorem distinct_eq_firsts (ts : List Term) : distinct ts = firsts ts := by
  induction ts using List.reverseRecOn with
  | nil => rfl
  | append_singleton ts t ih => rw [distinct_concat, firsts_concat, isListed_distinct, ih]

/-! ## Sets -/

/-- The proper sets are those that are built from proper terms. -/
theorem proper_set_iff {items : List Term} :
    Proper (.set items) ↔ ∃ ts, (∀ t ∈ ts, Proper t) ∧ setOf ts = .set items := by
  constructor
  · rintro (_ | _ | _ | _ | _ | _ | _ | _ | ⟨hitems, hunequal⟩)
    exact ⟨items, hitems, by rw [setOf, distinct_of_unequal hunequal]⟩
  · rintro ⟨ts, hts, hset⟩
    exact hset ▸ proper_setOf hts

section

variable {xs ys : List Term}

theorem proper_of_mem_distinct (hxs : ∀ x ∈ xs, Proper x) : ∀ x ∈ distinct xs, Proper x :=
  fun x hx => hxs x (mem_of_mem_distinct hx)

theorem within_distinct (hxs : ∀ x ∈ xs, Proper x) (hys : ∀ y ∈ ys, Proper y)
    (h : ∀ x ∈ xs, ∃ y ∈ ys, x.equal y = true) :
    ∀ x ∈ distinct xs, ∃ y ∈ distinct ys, y.equal x = true := by
  intro x hx
  obtain ⟨y, hy, hxy⟩ := h x (mem_of_mem_distinct hx)
  obtain ⟨z, hz, hzy⟩ := exists_mem_distinct hy
  exact ⟨z, hz, equal_trans hzy (equal_symm (proper_of_mem_distinct hxs x hx) (hys y hy) hxy)⟩

theorem length_distinct_le (hxs : ∀ x ∈ xs, Proper x) (hys : ∀ y ∈ ys, Proper y)
    (h : ∀ x ∈ xs, ∃ y ∈ ys, x.equal y = true) : (distinct xs).length ≤ (distinct ys).length :=
  length_le_of_within
    (fun x hx y hy =>
      equal_symm (proper_of_mem_distinct hys y hy) (proper_of_mem_distinct hxs x hx))
    (unequal_distinct xs) (within_distinct hxs hys h)

theorem within_of_setOf_equal (hxs : ∀ x ∈ xs, Proper x) (hys : ∀ y ∈ ys, Proper y)
    (h : (setOf xs).equal (setOf ys) = true) : ∀ x ∈ xs, ∃ y ∈ ys, x.equal y = true := by
  cases equal_iff.1 h with
  | set hlength hitems =>
    intro x hx
    obtain ⟨z, hz, hzx⟩ := exists_mem_distinct hx
    obtain ⟨y, hy, hyz⟩ := hitems z hz
    exact ⟨y, mem_of_mem_distinct hy,
      equal_symm (proper_of_mem_distinct hys y hy) (hxs x hx) (equal_trans hyz hzx)⟩

/-- Two sets are equal exactly if each term of either list has an equal in the other. -/
theorem setOf_equal_iff (hxs : ∀ x ∈ xs, Proper x) (hys : ∀ y ∈ ys, Proper y) :
    (setOf xs).equal (setOf ys) = true ↔
      (∀ x ∈ xs, ∃ y ∈ ys, x.equal y = true) ∧ ∀ y ∈ ys, ∃ x ∈ xs, y.equal x = true := by
  constructor
  · intro h
    exact ⟨within_of_setOf_equal hxs hys h,
      within_of_setOf_equal hys hxs (equal_symm (proper_setOf hxs) (proper_setOf hys) h)⟩
  · rintro ⟨hxy, hyx⟩
    have hlength : (distinct xs).length = (distinct ys).length :=
      (length_distinct_le hxs hys hxy).antisymm (length_distinct_le hys hxs hyx)
    exact equal_iff.2 (.set hlength (within_distinct hxs hys hxy))

end

/-- Equality of the terms that are built is an equivalence; a set holds the first occurrences of
its terms, no two of them equal; and two sets are equal exactly if their terms are up to equality,
whatever their order and repetitions. -/
theorem sets_up_to_equality (xs ys : List Term) (hxs : ∀ x ∈ xs, Proper x)
    (hys : ∀ y ∈ ys, Proper y) :
    (Equivalence fun a b : {t : Term // Proper t} => a.1.equal b.1 = true) ∧
      setOf xs = .set (firsts xs) ∧ Unequal (firsts xs) ∧
      ((setOf xs).equal (setOf ys) = true ↔
        (∀ x ∈ xs, ∃ y ∈ ys, x.equal y = true) ∧ ∀ y ∈ ys, ∃ x ∈ xs, y.equal x = true) ∧
      ((∀ t, t ∈ xs ↔ t ∈ ys) → (setOf xs).equal (setOf ys) = true) := by
  refine ⟨equal_equivalence, ?_, ?_, setOf_equal_iff hxs hys, fun hmem => ?_⟩
  · rw [setOf, distinct_eq_firsts]
  · rw [← distinct_eq_firsts]
    exact unequal_distinct xs
  · refine (setOf_equal_iff hxs hys).2 ⟨fun x hx => ?_, fun y hy => ?_⟩
    · exact ⟨x, (hmem x).1 hx, equal_refl x⟩
    · exact ⟨y, (hmem y).2 hy, equal_refl y⟩

/-- Two sets of a number and a set, with the numbers written in two ways and one listed twice. -/
theorem sets_up_to_equality_nested :
    let one : Term := .numeric ⟨1, 0, by decide, by decide⟩
    let padded : Term := .numeric ⟨10, 1, by decide, by decide⟩
    (setOf [setOf [one, .text "a"], padded, one]).equal
        (setOf [one, setOf [.text "a", padded]]) = true ∧
      setOf [setOf [one, .text "a"], padded, one] =
        .set [.set [one, .text "a"], padded] := by
  intro one padded
  have hpair : ∀ t ∈ [one, .text "a"], Proper t := by
    simp [one, Proper.numeric, Proper.text]
  have hflipped : ∀ t ∈ [.text "a", padded], Proper t := by
    simp [padded, Proper.numeric, Proper.text]
  have hsets := sets_up_to_equality [setOf [one, .text "a"], padded, one]
    [one, setOf [.text "a", padded]]
    (by simp [one, padded, Proper.numeric, proper_setOf hpair])
    (by simp [one, Proper.numeric, proper_setOf hflipped])
  refine ⟨hsets.2.2.2.1.2 ?_, hsets.2.1.trans (by cbv)⟩
  decide +kernel

end Term
end PolicyClient
