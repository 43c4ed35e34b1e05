/-
Equal expressions without sets differ at most in how equal decimals are written. Operators compare
numbers by value, so the answer is the same, with three exceptions: as the key of an array `1` is an
index and `1.0` is none, a padded zero has no document at all, and the error of an operator without
a dotted name shows the operator as it is written, at one place of both (`evaluate_respelled`).
-/
import Mathlib
import PolicyClient.Proofs.Evaluation.Near
import PolicyClient.Proofs.Evaluation.Trial
import PolicyClient.Proofs.Term.Equality
import PolicyClient.Proofs.Term.Number

namespace PolicyClient

open Document (Near)

/-- The index that a decimal is as a key of an array. -/
def Decimal.index? (d : Decimal) : Option UInt64 :=
  match d.numeral with
  | .ok n => n.word?
  | .error _ => none

namespace Term

/-! ## Numbers and operators at the same places -/

/-- No set stands anywhere in a term. -/
inductive SetFree : Term → Prop
  | ref {root : Term} {keys : List Term} (hroot : SetFree root) (hkeys : ∀ k ∈ keys, SetFree k) :
    SetFree (.ref root keys)
  | call {function : Term} {args : List Term} (hfunction : SetFree function)
    (hargs : ∀ a ∈ args, SetFree a) : SetFree (.call function args)
  | var (name : String) : SetFree (.var name)
  | numeric (value : Decimal) : SetFree (.numeric value)
  | text (value : String) : SetFree (.text value)
  | bool (value : Bool) : SetFree (.bool value)
  | null : SetFree .null
  | array {items : List Term} (hitems : ∀ t ∈ items, SetFree t) : SetFree (.array items)

/-- Two numbers at one place of two terms, and whether the place lies inside a key. -/
structure NumberPair where
  inKey : Bool
  left : Decimal
  right : Decimal

/-- Both numbers are padded zeros or none is, and inside a key they are the same index or none is
an index. -/
structure NumberPair.Interchangeable (p : NumberPair) : Prop where
  zero : p.left.IsPaddedZero ↔ p.right.IsPaddedZero
  index : p.inKey = true → p.left.index? = p.right.index?

mutual

/-- The numbers at the same places of two terms. A call answers with a truth value, so its
arguments lie inside no key, and its function is not looked up. -/
def numberPairs (inKey : Bool) : Term → Term → List NumberPair
  | .ref root keys, .ref root' keys' =>
    numberPairs inKey root root' ++ numberPairsAll true keys keys'
  | .call _ args, .call _ args' => numberPairsAll false args args'
  | .numeric d, .numeric d' => [⟨inKey, d, d'⟩]
  | .array items, .array items' => numberPairsAll inKey items items'
  | _, _ => []

/-- The numbers at the same places of the terms. -/
def numberPairsAll (inKey : Bool) : List Term → List Term → List NumberPair
  | t :: ts, u :: us => numberPairs inKey t u ++ numberPairsAll inKey ts us
  | _, _ => []

end

mutual

/-- The operators at the same places of two terms: the functions of their calls. -/
def operatorPairs : Term → Term → List (Term × Term)
  | .ref root keys, .ref root' keys' => operatorPairs root root' ++ operatorPairsAll keys keys'
  | .call function args, .call function' args' =>
    (function, function') :: operatorPairsAll args args'
  | .array items, .array items' => operatorPairsAll items items'
  | _, _ => []

/-- The operators at the same places of the terms. -/
def operatorPairsAll : List Term → List Term → List (Term × Term)
  | t :: ts, u :: us => operatorPairs t u ++ operatorPairsAll ts us
  | _, _ => []

end

/-- One term written in two ways, where the numbers inside its keys keep their index and the operators
at one place are among some pairs. -/
inductive Respelled (operators : List (Term × Term)) : Bool → Term → Term → Prop
  | ref {key : Bool} {root root' : Term} {keys keys' : List Term}
    (hroot : Respelled operators key root root') (hlength : keys.length = keys'.length)
    (hkeys : ∀ {k k'}, (k, k') ∈ keys.zip keys' → Respelled operators true k k') :
    Respelled operators key (.ref root keys) (.ref root' keys')
  | call {key : Bool} {function function' : Term} {args args' : List Term}
    (hfunction : function.equal function' = true) (hplace : (function, function') ∈ operators)
    (hlength : args.length = args'.length)
    (hargs : ∀ {a a'}, (a, a') ∈ args.zip args' → Respelled operators false a a') :
    Respelled operators key (.call function args) (.call function' args')
  | var {key : Bool} (name : String) : Respelled operators key (.var name) (.var name)
  | numeric {key : Bool} {d d' : Decimal} (hvalue : d.value = d'.value)
    (hpair : NumberPair.Interchangeable ⟨key, d, d'⟩) :
    Respelled operators key (.numeric d) (.numeric d')
  | text {key : Bool} (value : String) : Respelled operators key (.text value) (.text value)
  | bool {key : Bool} (value : Bool) : Respelled operators key (.bool value) (.bool value)
  | null {key : Bool} : Respelled operators key .null .null
  | array {key : Bool} {items items' : List Term} (hlength : items.length = items'.length)
    (hitems : ∀ {t t'}, (t, t') ∈ items.zip items' → Respelled operators key t t') :
    Respelled operators key (.array items) (.array items')

variable {operators : List (Term × Term)} {key : Bool}

theorem respelledAll_of_equal {ts us : List Term}
    (ih : ∀ t ∈ ts, ∀ {u}, t.equal u = true →
      (∀ p ∈ numberPairs key t u, p.Interchangeable) → operatorPairs t u ⊆ operators →
        Respelled operators key t u)
    (h : List.Forall₂ (fun t u => t.equal u = true) ts us)
    (hpairs : ∀ p ∈ numberPairsAll key ts us, p.Interchangeable)
    (hplaces : operatorPairsAll ts us ⊆ operators) :
    List.Forall₂ (Respelled operators key) ts us := by
  induction h with
  | nil => exact .nil
  | cons htu _ ihs =>
    rw [numberPairsAll, List.forall_mem_append] at hpairs
    rw [operatorPairsAll, List.append_subset] at hplaces
    exact .cons (ih _ (by simp) htu hpairs.1 hplaces.1)
      (ihs (fun t ht => ih t (List.mem_cons_of_mem _ ht)) hpairs.2 hplaces.2)

/-- Equal terms without sets are one term written in two ways. -/
theorem respelled_of_equal {t u : Term} (hset : SetFree t) (h : t.equal u = true)
    (hpairs : ∀ p ∈ numberPairs key t u, p.Interchangeable)
    (hplaces : operatorPairs t u ⊆ operators) : Respelled operators key t u := by
  induction hset generalizing key u with
  | ref _ _ ihroot ihkeys =>
    cases equal_iff.1 h with
    | ref hroot hkeys =>
      rw [numberPairs, List.forall_mem_append] at hpairs
      rw [operatorPairs, List.append_subset] at hplaces
      obtain ⟨hlength, hzip⟩ := List.forall₂_iff_zip.1
        (respelledAll_of_equal (fun k hk => ihkeys k hk) hkeys hpairs.2 hplaces.2)
      exact .ref (ihroot hroot hpairs.1 hplaces.1) hlength hzip
  | call _ _ _ ihargs =>
    cases equal_iff.1 h with
    | call hfunction hargs =>
      rw [numberPairs] at hpairs
      rw [operatorPairs, List.cons_subset] at hplaces
      obtain ⟨hlength, hzip⟩ := List.forall₂_iff_zip.1
        (respelledAll_of_equal (fun a ha => ihargs a ha) hargs hpairs hplaces.2)
      exact .call hfunction hplaces.1 hlength hzip
  | array _ ihitems =>
    cases equal_iff.1 h with
    | array hitems =>
      rw [numberPairs] at hpairs
      rw [operatorPairs] at hplaces
      obtain ⟨hlength, hzip⟩ := List.forall₂_iff_zip.1
        (respelledAll_of_equal (fun t ht => ihitems t ht) hitems hpairs hplaces)
      exact .array hlength hzip
  | numeric d =>
    cases equal_iff.1 h with
    | numeric hvalue => exact .numeric hvalue (hpairs _ (by simp [numberPairs]))
  | var name => cases equal_iff.1 h; exact .var name
  | text value => cases equal_iff.1 h; exact .text value
  | bool value => cases equal_iff.1 h; exact .bool value
  | null => cases equal_iff.1 h; exact .null

/-! ## Operators -/

theorem operatorPart?_of_equal {k k' : Term} (h : k.equal k' = true) :
    k.operatorPart? = k'.operatorPart? := by
  cases equal_iff.1 h <;> rfl

theorem operatorParts_of_equal {keys keys' : List Term}
    (h : List.Forall₂ (fun k k' => k.equal k' = true) keys keys') :
    keys.mapM operatorPart? = keys'.mapM operatorPart? := by
  induction h with
  | nil => rfl
  | cons hk _ ih => rw [List.mapM_cons, List.mapM_cons, operatorPart?_of_equal hk, ih]

/-- Equal operators have one name. -/
theorem operatorName?_of_equal {f f' : Term} (h : f.equal f' = true) :
    f.operatorName? = f'.operatorName? := by
  cases equal_iff.1 h with
  | ref hroot hkeys =>
    cases equal_iff.1 hroot with
    | var name => rw [operatorName?, operatorName?, operatorParts_of_equal hkeys]
    | _ => rfl
  | _ => rfl

end Term

/-! ## Results -/

/-- The same error, but for how an operator without a name is written. -/
inductive EvalError.Alike (operators : List (Term × Term)) : EvalError → EvalError → Prop
  | refl (e : EvalError) : Alike operators e e
  | operator {f f' : Term} (hequal : f.equal f' = true) (hplace : (f, f') ∈ operators)
    (hname : f.operatorName? = none) (hname' : f'.operatorName? = none) :
    Alike operators (.unsupported f.render) (.unsupported f'.render)

/-- Results that are related, or errors that are alike. -/
inductive Alike {α β : Type} (operators : List (Term × Term)) (R : α → β → Prop) :
    Except EvalError α → Except EvalError β → Prop
  | ok {x : α} {y : β} (h : R x y) : Alike operators R (.ok x) (.ok y)
  | error {e e' : EvalError} (h : e.Alike operators e') : Alike operators R (.error e) (.error e')

variable {operators : List (Term × Term)}

namespace Alike

variable {α β γ δ : Type} {R : α → β → Prop} {S : γ → δ → Prop} {x : Except EvalError α}
  {y : Except EvalError β}

theorem refl {R : α → α → Prop} (hR : ∀ a, R a a) (x : Except EvalError α) :
    Alike operators R x x := by
  cases x with
  | ok a => exact .ok (hR a)
  | error e => exact .error (.refl e)

theorem bind {f : α → Except EvalError γ} {g : β → Except EvalError δ} (h : Alike operators R x y)
    (hfg : ∀ a b, R a b → Alike operators S (f a) (g b)) : Alike operators S (x >>= f) (y >>= g) := by
  cases h with
  | ok hab => exact hfg _ _ hab
  | error he => exact .error he

theorem map {f : α → γ} {g : β → δ} (h : Alike operators R x y)
    (hfg : ∀ a b, R a b → S (f a) (g b)) : Alike operators S (x.map f) (y.map g) := by
  cases h with
  | ok hab => exact .ok (hfg _ _ hab)
  | error he => exact .error he

theorem anyM {as : List α} {f g : α → Except EvalError Bool}
    (h : ∀ a ∈ as, Alike operators Eq (f a) (g a)) : Alike operators Eq (as.anyM f) (as.anyM g) := by
  induction as with
  | nil => exact .ok rfl
  | cons a as ih =>
    obtain ⟨ha, has⟩ := List.forall_mem_cons.1 h
    rw [List.anyM_cons, List.anyM_cons]
    refine ha.bind ?_
    rintro (_ | _) _ rfl
    · exact ih has
    · exact .ok rfl

theorem allM {as : List α} {bs : List β} {f : α → Except EvalError Bool}
    {g : β → Except EvalError Bool}
    (h : List.Forall₂ (fun a b => Alike operators Eq (f a) (g b)) as bs) :
    Alike operators Eq (as.allM f) (bs.allM g) := by
  induction h with
  | nil => exact .ok rfl
  | cons hab _ ih =>
    rw [List.allM_cons, List.allM_cons]
    refine hab.bind ?_
    rintro (_ | _) _ rfl
    · exact .ok rfl
    · exact ih

end Alike

/-! ## Looking up -/

namespace Term

variable {b : Bindings} {key : Bool} {d d' : Document}

theorem operator_alike {f f' : Term} (h : f.equal f' = true) (hplace : (f, f') ∈ operators) :
    Alike operators Eq f.operator f'.operator := by
  unfold operator
  rw [← operatorName?_of_equal h]
  split
  · next hname => exact .error (.operator h hplace hname ((operatorName?_of_equal h).symm.trans hname))
  · exact .refl (fun _ => rfl) _

theorem walk_alike {keys keys' : List Term}
    (h : List.Forall₂ (fun k k' =>
      Alike operators (Option.Rel (Near true)) (resolve b k) (resolve b k')) keys keys')
    (hd : Near key d d') :
    Alike operators (Option.Rel (Near key)) (walk b d keys) (walk b d' keys') := by
  induction h generalizing d d' with
  | nil => rw [walk, walk]; exact .ok (.some hd)
  | cons hk _ ih =>
    rw [walk, walk]
    refine hk.bind ?_
    rintro _ _ (hkey | _)
    · dsimp only
      rcases hd.step_cases hkey with ⟨hs, hs'⟩ | ⟨e, e', hs, hs', he⟩
      · rw [hs, hs']; exact .ok .none
      · rw [hs, hs']; exact ih he
    · exact .ok .none

theorem resolveAll_alike {ts ts' : List Term}
    (h : List.Forall₂ (fun t t' =>
      Alike operators (Option.Rel (Near key)) (resolve b t) (resolve b t')) ts ts') :
    Alike operators (Option.Rel (List.Forall₂ (Near key))) (resolveAll b ts) (resolveAll b ts') := by
  induction h with
  | nil => rw [resolveAll]; exact .ok (.some .nil)
  | cons ht _ ih =>
    rw [resolveAll, resolveAll]
    refine ht.bind ?_
    rintro _ _ (hd | _)
    · refine ih.bind ?_
      rintro _ _ (hds | _)
      · exact .ok (.some (.cons hd hds))
      · exact .ok .none
    · exact .ok .none

theorem applyTo_alike {f f' : Term} {args args' : List Term} (hf : f.equal f' = true)
    (hplace : (f, f') ∈ operators) (h : List.Forall₂ (fun a a' =>
      Alike operators (Option.Rel (Near false)) (resolve b a) (resolve b a')) args args') :
    Alike operators (Option.Rel (Near key)) (applyTo b f args) (applyTo b f' args') := by
  by_cases hlength : args.length = 2
  · obtain ⟨left, right, rfl⟩ := List.length_eq_two.1 hlength
    cases h with
    | cons hleft h =>
      cases h with
      | cons hright h =>
        cases h with
        | nil =>
          rw [applyTo, applyTo]
          refine (operator_alike hf hplace).bind ?_
          rintro ⟨name, op⟩ _ rfl
          refine hleft.bind fun l l' hl => hright.bind fun r r' hr => ?_
          cases hl with
          | none => exact .ok .none
          | some hl =>
            cases hr with
            | none => exact .ok .none
            | some hr =>
              -- the answer is one truth value, so no spelling is left in it
              dsimp only
              rw [hl.apply hr op]
              exact .refl Document.rel_refl _
  · rw [applyTo_of_length_ne b f hlength,
      applyTo_of_length_ne b f' (h.length_eq ▸ hlength), h.length_eq]
    have hop := operator_alike hf hplace
    generalize f.operator = x, f'.operator = y at hop
    cases hop with
    | ok heq => subst heq; exact .error (.refl _)
    | error he => exact .error he

theorem resolve_numeric_alike {x x' : Decimal} (hvalue : x.value = x'.value)
    (hpair : NumberPair.Interchangeable ⟨key, x, x'⟩) :
    Alike operators (Option.Rel (Near key)) (resolve b (.numeric x)) (resolve b (.numeric x')) := by
  by_cases hzero : x.IsPaddedZero
  · rw [resolve_of_isPaddedZero hzero, resolve_of_isPaddedZero (hpair.zero.1 hzero)]
    exact .error (.refl _)
  · obtain ⟨m, hm, hmd⟩ := Decimal.numeral_of_not_isPaddedZero hzero
    obtain ⟨n, hn, hnd⟩ := Decimal.numeral_of_not_isPaddedZero (mt hpair.zero.2 hzero)
    rw [resolve_numeric hm, resolve_numeric hn]
    refine .ok (.some (.number ⟨⟨_, _, hmd, hnd, ?_⟩, fun hkey => ?_⟩))
    · rw [Decimal.value_settled, Decimal.value_settled, hvalue]
    · have hindex := hpair.index hkey
      unfold Decimal.index? at hindex
      rwa [hm, hn] at hindex

/-- A term written in two ways stands for documents that differ in the spelling of numbers only. -/
theorem resolve_alike {t t' : Term} (h : Respelled operators key t t') :
    Alike operators (Option.Rel (Near key)) (resolve b t) (resolve b t') := by
  induction h with
  | ref _ hlength _ ihroot ihkeys =>
    rw [resolve, resolve]
    refine ihroot.bind ?_
    rintro _ _ (hstart | _)
    · exact walk_alike (List.forall₂_iff_zip.2 ⟨hlength, ihkeys⟩) hstart
    · exact .ok .none
  | call hfunction hplace hlength _ ihargs =>
    rw [resolve, resolve]
    exact applyTo_alike hfunction hplace (List.forall₂_iff_zip.2 ⟨hlength, ihargs⟩)
  | array hlength _ ihitems =>
    rw [resolve_array, resolve_array]
    refine (resolveAll_alike (List.forall₂_iff_zip.2 ⟨hlength, ihitems⟩)).map ?_
    rintro _ _ (hds | _)
    · exact .some (Document.near_array hds)
    · exact .none
  | numeric hvalue hpair => exact resolve_numeric_alike hvalue hpair
  | _ => exact .refl Document.rel_refl _

/-! ## Iteration variables -/

theorem nextRangeAll_alike {ts ts' : List Term}
    (h : List.Forall₂ (fun t t' => Alike operators Eq (nextRange b t) (nextRange b t')) ts ts') :
    Alike operators Eq (nextRangeAll b ts) (nextRangeAll b ts') := by
  induction h with
  | nil => exact .ok rfl
  | cons ht _ ih =>
    rw [nextRangeAll, nextRangeAll]
    refine ht.bind ?_
    rintro (_ | range) _ rfl
    · exact ih
    · exact .ok rfl

theorem respelled_var_iff {t t' : Term} (h : Respelled operators key t t') (name : String) :
    t = .var name ↔ t' = .var name := by
  cases h <;> simp

theorem nextKeyRange_alike {keys keys' : List Term}
    (h : List.Forall₂ (fun k k' => Respelled operators true k k' ∧
      Alike operators Eq (nextRange b k) (nextRange b k')) keys keys')
    (hd : Near key d d') : Alike operators Eq (nextKeyRange b d keys) (nextKeyRange b d' keys') := by
  induction h generalizing d d' with
  | nil => exact .ok rfl
  | @cons k k' _ _ hk _ ih =>
    obtain ⟨hk, hn⟩ := hk
    by_cases hopen : ∃ name, k = .var name ∧ b.get? name = none
    -- a variable is written in one way, so both searches end at it
    · obtain ⟨name, rfl, hname⟩ := hopen
      rw [(respelled_var_iff hk name).1 rfl, nextKeyRange_open hname, nextKeyRange_open hname, hd.keys]
      exact .ok rfl
    · have hclosed : ∀ name, k = .var name → b.get? name ≠ none :=
        fun name hvar hname => hopen ⟨name, hvar, hname⟩
      rw [nextKeyRange_cons hclosed, nextKeyRange_cons fun name hvar =>
        hclosed name ((respelled_var_iff hk name).2 hvar)]
      have hr := resolve_alike (b := b) hk
      generalize nextRange b k = x, nextRange b k' = y at hn
      cases hn with
      | error he => exact .error he
      | @ok found _ heq =>
        subst heq
        cases found with
        | some range => exact .ok rfl
        | none =>
          dsimp only
          generalize resolve b k = x, resolve b k' = y at hr
          cases hr with
          | error he => exact .error he
          | ok hrel =>
            cases hrel with
            | none => exact .ok rfl
            | some hkey =>
              dsimp only
              rcases hd.step_cases hkey with ⟨hs, hs'⟩ | ⟨e, e', hs, hs', he⟩
              · rw [hs, hs']; exact .ok rfl
              · rw [hs, hs']; exact ih he

/-- The same variable is found in both, with the same range. -/
theorem nextRange_alike {t t' : Term} (h : Respelled operators key t t') :
    Alike operators Eq (nextRange b t) (nextRange b t') := by
  induction h with
  | ref hroot hlength hkeys _ ihkeys =>
    rw [nextRange, nextRange]
    refine (resolve_alike hroot).bind ?_
    rintro _ _ (hstart | _)
    · exact nextKeyRange_alike
        (List.forall₂_iff_zip.2 ⟨hlength, fun hmem => ⟨hkeys hmem, ihkeys hmem⟩⟩) hstart
    · exact .ok rfl
  | call _ _ hlength _ ihargs =>
    rw [nextRange, nextRange]
    exact nextRangeAll_alike (List.forall₂_iff_zip.2 ⟨hlength, ihargs⟩)
  | array hlength _ ihitems =>
    rw [nextRange, nextRange]
    exact nextRangeAll_alike (List.forall₂_iff_zip.2 ⟨hlength, ihitems⟩)
  | _ => exact .ok rfl

end Term

/-! ## Expressions -/

namespace Expression

variable {b : Bindings}

/-- No set stands in an expression. -/
def SetFree (e : Expression) : Prop :=
  ∀ t ∈ e.terms, t.SetFree

/-- The numbers at the same places of two expressions, their operators aside. -/
def numberPairs (e e' : Expression) : List Term.NumberPair :=
  Term.numberPairsAll false e.operands e'.operands

/-- The operators at the same places of two expressions: their own, and those within the operands. -/
def operatorPairs (e e' : Expression) : List (Term × Term) :=
  e.operator?.toList.zip e'.operator?.toList ++ Term.operatorPairsAll e.operands e'.operands

/-- One expression written in two ways, where the operators at one place are among some pairs. -/
structure Respelled (operators : List (Term × Term)) (e e' : Expression) : Prop where
  terms : List.Forall₂ (fun t t' => t.equal t' = true) e.terms e'.terms
  operator : e.operator?.toList.zip e'.operator?.toList ⊆ operators
  operands : List.Forall₂ (Term.Respelled operators false) e.operands e'.operands

theorem operands_subset (e : Expression) : e.operands ⊆ e.terms := by
  unfold operands
  split
  · next h => rw [h]; exact List.subset_cons_self _ _
  · exact List.Subset.refl _

theorem equal_operands {e e' : Expression}
    (h : List.Forall₂ (fun t t' => t.equal t' = true) e.terms e'.terms) :
    List.Forall₂ (fun t t' => t.equal t' = true) e.operands e'.operands := by
  obtain ⟨index, terms⟩ := e
  obtain ⟨index', terms'⟩ := e'
  cases h with
  | nil => exact .nil
  | cons ht hts =>
    cases hts with
    | nil => exact .cons ht .nil
    | cons hu hus => exact .cons hu hus

theorem respelled_of_equal {e e' : Expression} (hequal : e.equal e' = true) (hset : e.SetFree)
    (hpairs : ∀ p ∈ e.numberPairs e', p.Interchangeable) : Respelled (e.operatorPairs e') e e' := by
  unfold equal at hequal
  have hterms := Term.equalAll_eq_true_iff.1 (Bool.and_eq_true_iff.1 hequal).2
  have hplaces : e.operatorPairs e' ⊆ e.operatorPairs e' := List.Subset.refl _
  obtain ⟨hown, hplaces⟩ := List.append_subset.1 hplaces
  exact ⟨hterms, hown, Term.respelledAll_of_equal
    (fun t ht _ => Term.respelled_of_equal (hset t (e.operands_subset ht)))
    (equal_operands hterms) hpairs hplaces⟩

theorem isTruthy_of_rel {r r' : Option Document} (h : Option.Rel (Near false) r r') :
    Document.isTruthy r = Document.isTruthy r' := by
  cases h with
  | none => rfl
  | some hd => exact hd.isTruthy

theorem holds_alike {e e' : Expression} (h : Respelled operators e e') :
    Alike operators Eq (e.holds b) (e'.holds b) := by
  obtain ⟨index, terms⟩ := e
  obtain ⟨index', terms'⟩ := e'
  obtain ⟨hterms, hplace, hoperands⟩ := h
  have hresolve := hoperands.imp fun t t' ht => Term.resolve_alike (b := b) ht
  cases hterms with
  | nil => exact .ok rfl
  | cons hf hts =>
    cases hts with
    | nil =>
      cases hresolve with
      | cons ht _ => exact ht.map fun _ _ => isTruthy_of_rel
    | cons => exact (Term.applyTo_alike hf (hplace (.head _)) hresolve).map fun _ _ => isTruthy_of_rel

theorem nextRange_alike {es es' : List Expression} (h : List.Forall₂ (Respelled operators) es es') :
    Alike operators Eq (nextRange b es) (nextRange b es') := by
  induction h with
  | nil => exact .ok rfl
  | cons he _ ih =>
    rw [nextRange, nextRange]
    refine (Term.nextRangeAll_alike (he.operands.imp fun _ _ => Term.nextRange_alike)).bind ?_
    rintro (_ | range) _ rfl
    · exact ih
    · exact .ok rfl

/-- The search binds the same variables to the same keys in the same order. -/
theorem search_alike {es es' : List Expression} (h : List.Forall₂ (Respelled operators) es es')
    (b : Bindings) : Alike operators Eq (search es b) (search es' b) := by
  induction b using search_induct es with
  | step b ih =>
    have hn := nextRange_alike (b := b) h
    generalize hr : nextRange b es = r, hr' : nextRange b es' = r' at hn
    cases hn with
    | error he => rw [search_of_error hr, search_of_error hr']; exact .error he
    | @ok found _ heq =>
      subst heq
      cases found with
      | none =>
        rw [search_of_none hr, search_of_none hr']
        exact .allM (h.imp fun _ _ he => holds_alike he)
      | some range =>
        rw [search_of_range hr, search_of_range hr']
        exact .anyM fun key _ => ih range.1 range.2 hr key

/-- Two equal expressions without sets have the same answer under all bindings, if padded zeros
stand at the same places of both and the numbers inside keys are the same indices; only the error
of an operator without a name shows how each of the two writes the operator at that place. -/
theorem evaluate_respelled {e e' : Expression} (hequal : e.equal e' = true) (hset : e.SetFree)
    (hpairs : ∀ p ∈ e.numberPairs e', p.Interchangeable) (b : Bindings) :
    e.evaluate b = e'.evaluate b ∨
      ∃ f f' : Term, (f, f') ∈ e.operatorPairs e' ∧ f.equal f' = true ∧
        f.operatorName? = none ∧ f'.operatorName? = none ∧
        e.evaluate b = .error (.unsupported f.render) ∧
        e'.evaluate b = .error (.unsupported f'.render) := by
  have halike := search_alike (.cons (respelled_of_equal hequal hset hpairs) .nil) b
  unfold evaluate
  generalize search [e] b = r, search [e'] b = r' at halike
  cases halike with
  | ok h => exact .inl (congrArg Except.ok h)
  | error h =>
    cases h with
    | refl => exact .inl rfl
    | operator hf hplace hname hname' =>
      exact .inr ⟨_, _, hplace, hf, hname, hname', rfl, rfl⟩

/-- The size of `input` at an index is a given number. -/
def sizeIs (index size : Decimal) : Expression :=
  ⟨0, [.path "eq" [], .ref (.var "input") [.text "sizes", .numeric index], .numeric size]⟩

/-- An input with the sizes from zero up to some number. -/
def sizesBelow (n : Nat) : Bindings :=
  .bind .empty "input" (.object [("sizes", .array ((List.range n).map .ofNat))])

/-- A number in the place of an operator. -/
def numberCall (d : Decimal) : Expression :=
  ⟨0, [.numeric d, .null, .null]⟩

theorem setFree_sizeIs (index size : Decimal) : (sizeIs index size).SetFree := by
  have hoperator : (Term.path "eq" []).SetFree := .ref (.var "eq") (by simp)
  have hsize : (Term.ref (.var "input") [.text "sizes", .numeric index]).SetFree :=
    .ref (.var "input") (by simp [Term.SetFree.text, Term.SetFree.numeric])
  simp [SetFree, sizeIs, hoperator, hsize, Term.SetFree.numeric]

/-- Ten is one index as `10` and as `1e1`, and one number as `10` and as `10.0`. -/
theorem evaluate_respelled_ten :
    (sizeIs (.mk 10 0) (.mk 10 0)).evaluate (sizesBelow 11) = .ok true ∧
      (sizeIs (.mk 1 (-1)) (.mk 100 1)).evaluate (sizesBelow 11) = .ok true := by
  have hten : (sizeIs (.mk 10 0) (.mk 10 0)).evaluate (sizesBelow 11) = .ok true :=
    (evaluate_of_closed (by cbv)).trans (by cbv)
  have hpairs : ∀ p ∈ (sizeIs (.mk 10 0) (.mk 10 0)).numberPairs (sizeIs (.mk 1 (-1)) (.mk 100 1)),
      p.Interchangeable := by
    have hlist : (sizeIs (.mk 10 0) (.mk 10 0)).numberPairs (sizeIs (.mk 1 (-1)) (.mk 100 1)) =
      [⟨true, .mk 10 0, .mk 1 (-1)⟩, ⟨false, .mk 10 0, .mk 100 1⟩] := rfl
    simp only [hlist, List.forall_mem_cons, List.not_mem_nil, false_imp_iff, implies_true, and_true]
    exact ⟨⟨by decide, fun _ => by cbv⟩, ⟨by decide, fun h => absurd h Bool.false_ne_true⟩⟩
  refine ⟨hten, ?_⟩
  rcases evaluate_respelled (by cbv) (setFree_sizeIs _ _) hpairs (sizesBelow 11) with
    h | ⟨f, f', -, -, -, -, h, -⟩
  · rw [← h, hten]
  · rw [hten] at h; cases h

/-- Three pairs of equal expressions without sets that answer differently: as the key of an array
`1` is an index and `1.0` is none, a number in the place of an operator is shown as it is written,
and a zero is a number as `0`, but not as `0e5`. -/
theorem evaluate_respelled_differs :
    ((sizeIs (.mk 1 0) (.mk 1 0)).SetFree ∧
      (sizeIs (.mk 1 0) (.mk 1 0)).equal (sizeIs (.mk 10 1) (.mk 1 0)) = true ∧
      (sizeIs (.mk 1 0) (.mk 1 0)).evaluate (sizesBelow 2) = .ok true ∧
      (sizeIs (.mk 10 1) (.mk 1 0)).evaluate (sizesBelow 2) = .ok false) ∧
    ((numberCall (.mk 1 0)).SetFree ∧
      (numberCall (.mk 1 0)).equal (numberCall (.mk 10 1)) = true ∧
      (numberCall (.mk 1 0)).evaluate .empty = .error (.unsupported "1") ∧
      (numberCall (.mk 10 1)).evaluate .empty = .error (.unsupported "1.0")) ∧
    ((sizeIs (.mk 0 0) (.mk 0 0)).SetFree ∧
      (sizeIs (.mk 0 0) (.mk 0 0)).equal (sizeIs (.mk 0 0) (.mk 0 (-5))) = true ∧
      (sizeIs (.mk 0 0) (.mk 0 0)).evaluate (sizesBelow 2) = .ok true ∧
      (sizeIs (.mk 0 0) (.mk 0 (-5))).evaluate (sizesBelow 2) = .error (.badNumber "0")) := by
  have hcall : (numberCall (.mk 1 0)).SetFree := by
    simp [SetFree, numberCall, Term.SetFree.numeric, Term.SetFree.null]
  refine ⟨⟨setFree_sizeIs _ _, by cbv, ?_, ?_⟩, ⟨hcall, by cbv, ?_, ?_⟩,
    setFree_sizeIs _ _, by cbv, ?_, ?_⟩
  all_goals exact (evaluate_of_closed (by cbv)).trans (by cbv)

end Expression
end PolicyClient
