/-
Which converter does the work. A registry asks its converters in turn, and the first that accepts
does the work (`scan`). A converter that is listed again has been asked before, so holding it once
changes nothing: what a registry of listed converters does is what a scan of the whole list does
(`ofList_scan`). Who calls a converter knows it by a handle, which always stands for the same one.
-/
import PolicyClient.Body.Registry
import Mathlib

namespace PolicyClient.Registry

/-! ## Listed converters -/

/-- The converters behind handles, each with its handle as its number. -/
def listing (instances : Nat → Converter) (handles : List Nat) : List (Nat × Converter) :=
  handles.map fun handle => (handle, instances handle)

section

variable (instances : Nat → Converter)

theorem firstOfEach_listing_cons (seen : List Nat) (handle : Nat) (handles : List Nat) :
    firstOfEach seen (listing instances (handle :: handles)) =
      if handle ∈ seen then firstOfEach seen (listing instances handles)
      else (handle, instances handle) ::
        firstOfEach (handle :: seen) (listing instances handles) := by
  simp only [listing, List.map_cons, firstOfEach, List.contains_iff_mem]

/-- What is held is listed, and it has not come before. -/
theorem mem_firstOfEach_listing {seen handles : List Nat} {entry : Nat × Converter} :
    entry ∈ firstOfEach seen (listing instances handles) ↔
      entry.1 ∈ handles ∧ entry.1 ∉ seen ∧ entry.2 = instances entry.1 := by
  induction handles generalizing seen with
  | nil => simp [listing, firstOfEach]
  | cons handle handles ih =>
    rw [firstOfEach_listing_cons]
    split_ifs with hseen
    · rw [ih, List.mem_cons]
      constructor
      · rintro ⟨hmem, hnot, heq⟩
        exact ⟨.inr hmem, hnot, heq⟩
      · rintro ⟨hmem | hmem, hnot, heq⟩
        · rw [hmem] at hnot
          exact absurd hseen hnot
        · exact ⟨hmem, hnot, heq⟩
    · rw [List.mem_cons, ih, List.mem_cons, List.mem_cons, not_or]
      constructor
      · rintro (rfl | ⟨hmem, ⟨-, hnot⟩, heq⟩)
        · exact ⟨.inl rfl, hseen, rfl⟩
        · exact ⟨.inr hmem, hnot, heq⟩
      · rintro ⟨hmem, hnot, heq⟩
        by_cases hfirst : entry.1 = handle
        · exact .inl (Prod.ext hfirst (heq.trans (congrArg instances hfirst)))
        · exact .inr ⟨hmem.resolve_left hfirst, ⟨hfirst, hnot⟩, heq⟩

/-- What is held stands in the order in which it was listed first. The induction is over the handles
that are left; `before` are those that have been seen. -/
theorem pairwise_firstOfEach_listing {seen before : List Nat}
    (hseen : ∀ handle, handle ∈ seen ↔ handle ∈ before) (handles : List Nat) :
    ((firstOfEach seen (listing instances handles)).map Prod.fst).Pairwise fun a b =>
      (before ++ handles).idxOf a < (before ++ handles).idxOf b := by
  induction handles generalizing seen before with
  | nil => exact .nil
  | cons handle handles ih =>
    have hsplit : before ++ handle :: handles = (before ++ [handle]) ++ handles := by simp
    rw [firstOfEach_listing_cons, hsplit]
    split_ifs with hmem
    · refine ih fun other => ?_
      rw [hseen, List.mem_append, List.mem_singleton]
      exact ⟨.inl, fun h => h.elim id fun h => h ▸ (hseen handle).1 hmem⟩
    · rw [List.map_cons, List.pairwise_cons]
      have hbefore : handle ∉ before := fun h => hmem ((hseen handle).2 h)
      refine ⟨?_, ih fun other => ?_⟩
      · rintro other hother
        obtain ⟨entry, hentry, rfl⟩ := List.mem_map.1 hother
        have hnot := ((mem_firstOfEach_listing instances).1 hentry).2.1
        rw [List.mem_cons, not_or, hseen] at hnot
        have hlater : entry.1 ∉ before ++ [handle] := by
          rw [List.mem_append, List.mem_singleton, not_or]
          exact hnot.symm
        rw [List.idxOf_append_of_mem (by simp), List.idxOf_append_of_notMem hbefore,
          List.idxOf_append_of_notMem hlater, List.length_append, List.idxOf_cons_self,
          List.length_singleton]
        omega
      · rw [List.mem_cons, List.mem_append, List.mem_singleton, hseen, or_comm]

/-- To look for the first converter that fits, it is enough to look at each once. -/
theorem find?_firstOfEach_listing {accepts : Converter → Bool} {seen : List Nat}
    (hseen : ∀ handle ∈ seen, accepts (instances handle) = false) (handles : List Nat) :
    ((firstOfEach seen (listing instances handles)).map Prod.snd).find? accepts =
      (handles.map instances).find? accepts := by
  induction handles generalizing seen with
  | nil => rfl
  | cons handle handles ih =>
    rw [firstOfEach_listing_cons, List.map_cons, List.find?_cons]
    split_ifs with hmem
    · rw [hseen handle hmem]
      exact ih hseen
    · rw [List.map_cons, List.find?_cons]
      cases haccepts : accepts (instances handle) with
      | true => rfl
      | false => exact ih (List.forall_mem_cons.2 ⟨haccepts, hseen⟩)

end

/-! ## Asking in turn -/

section

variable {α : Type} {accepts : Converter → Bool} {work : Converter → Except ConversionError α}
  {refusal : ConversionError} {asked : List Converter}

/-- The outcome of asking converters in turn, where the first that accepts does the work. -/
def scan (accepts : Converter → Bool) (work : Converter → Except ConversionError α)
    (refusal : ConversionError) : List Converter → Except ConversionError α
  | [] => .error refusal
  | converter :: rest =>
    if accepts converter then work converter else scan accepts work refusal rest

theorem scan_eq_find? : scan accepts work refusal asked =
    match asked.find? accepts with
    | some converter => work converter
    | none => .error refusal := by
  induction asked with
  | nil => rfl
  | cons converter rest ih =>
    rw [scan, List.find?_cons, ih]
    cases accepts converter <;> rfl

/-- The converters behind the first that accepts have no say. -/
theorem scan_of_first {front : List Converter} {converter : Converter}
    (hfront : ∀ c ∈ front, accepts c = false) (h : accepts converter = true)
    (behind : List Converter) :
    scan accepts work refusal (front ++ converter :: behind) = work converter := by
  induction front with
  | nil => rw [List.nil_append, scan, if_pos h]
  | cons c front ih =>
    obtain ⟨hc, hfront⟩ := List.forall_mem_cons.1 hfront
    rw [List.cons_append, scan, hc]
    exact ih hfront

/-- Either a converter accepts and the first one that does is behind the outcome, or none does. -/
theorem scan_cases (accepts : Converter → Bool) (work : Converter → Except ConversionError α)
    (refusal : ConversionError) (asked : List Converter) :
    (∃ front converter behind, asked = front ++ converter :: behind ∧
      (∀ c ∈ front, accepts c = false) ∧ accepts converter = true ∧
      scan accepts work refusal asked = work converter) ∨
    (∀ c ∈ asked, accepts c = false) ∧ scan accepts work refusal asked = .error refusal := by
  rw [scan_eq_find?]
  rcases hfind : asked.find? accepts with _ | converter
  · exact .inr ⟨by simpa using List.find?_eq_none.1 hfind, rfl⟩
  · obtain ⟨h, front, behind, rfl, hfront⟩ := List.find?_eq_some_iff_append.1 hfind
    exact .inl ⟨front, converter, behind, rfl, by simpa using hfront, h, rfl⟩

/-- An outcome of asking converters in turn: it is that of a scan, the first converter that accepts
decides it whatever stands behind, and it is the refusal exactly if none accepts or the first that
does answers so itself. -/
structure FirstMatch (accepts : Converter → Bool) (work : Converter → Except ConversionError α)
    (refusal : ConversionError) (asked : List Converter) (outcome : Except ConversionError α) :
    Prop where
  eq_scan : outcome = scan accepts work refusal asked
  of_first : ∀ front converter behind, asked = front ++ converter :: behind →
    (∀ c ∈ front, accepts c = false) → accepts converter = true → outcome = work converter
  refused_iff : outcome = .error refusal ↔ (∀ c ∈ asked, accepts c = false) ∨
    ∃ front converter behind, asked = front ++ converter :: behind ∧
      (∀ c ∈ front, accepts c = false) ∧ accepts converter = true ∧
      work converter = .error refusal

theorem firstMatch_scan :
    FirstMatch accepts work refusal asked (scan accepts work refusal asked) where
  eq_scan := rfl
  of_first := by
    rintro front converter behind rfl hfront h
    exact scan_of_first hfront h behind
  refused_iff := by
    constructor
    · intro hrefused
      rcases scan_cases accepts work refusal asked with
        ⟨front, converter, behind, hasked, hfront, h, hwork⟩ | ⟨hnone, -⟩
      · exact .inr ⟨front, converter, behind, hasked, hfront, h, hwork.symm.trans hrefused⟩
      · exact .inl hnone
    · rintro (hnone | ⟨front, converter, behind, rfl, hfront, h, hwork⟩)
      · rw [scan_eq_find?, List.find?_eq_none.2 (by simpa using hnone)]
      · exact (scan_of_first hfront h behind).trans hwork

end

/-! ## Registries -/

theorem read_eq_scan (r : Registry) (contentType : Option MediaType) (bytes : Bytes)
    (shape : Shape) : r.read contentType bytes shape =
      scan (·.canRead contentType bytes shape) (·.read contentType bytes shape)
        (.noConverter shape contentType) r.converters := by
  rw [scan_eq_find?]
  rfl

theorem write_eq_scan (r : Registry) (contentType : Option MediaType) (body : Body) :
    r.write contentType (some body) =
      scan (·.canWrite contentType body) (·.write contentType body)
        (.noConverter body.shape contentType) r.converters := by
  rw [scan_eq_find?]
  rfl

/-- The first that accepts of those held is the first that accepts of all that are listed. -/
theorem find?_converters_ofList (instances : Nat → Converter) (handles : List Nat)
    (accepts : Converter → Bool) :
    (ofList (listing instances handles)).converters.find? accepts =
      (handles.map instances).find? accepts :=
  find?_firstOfEach_listing instances (by simp) handles

theorem scan_converters_ofList {α : Type} (instances : Nat → Converter) (handles : List Nat)
    (accepts : Converter → Bool) (work : Converter → Except ConversionError α)
    (refusal : ConversionError) :
    scan accepts work refusal (ofList (listing instances handles)).converters =
      scan accepts work refusal (handles.map instances) := by
  rw [scan_eq_find?, scan_eq_find?, find?_converters_ofList]

/-- A registry holds the listed converters, each once and in the order in which they were listed
first. It reads and writes as if all that are listed were asked in turn, and finds no converter
exactly if none of them accepts. A body that is absent has no bytes, whatever the registry. -/
theorem ofList_scan (instances : Nat → Converter) (handles : List Nat) :
    (∃ kept : List Nat, (ofList (listing instances handles)).entries = listing instances kept ∧
      (∀ handle, handle ∈ kept ↔ handle ∈ handles) ∧
      kept.Pairwise fun a b => handles.idxOf a < handles.idxOf b) ∧
    (∀ (contentType : Option MediaType) (bytes : Bytes) (shape : Shape),
      FirstMatch (·.canRead contentType bytes shape) (·.read contentType bytes shape)
        (.noConverter shape contentType) (handles.map instances)
        ((ofList (listing instances handles)).read contentType bytes shape) ∧
      ((ofList (listing instances handles)).reader? contentType bytes shape = none ↔
        ∀ c ∈ handles.map instances, c.canRead contentType bytes shape = false)) ∧
    (∀ (contentType : Option MediaType) (body : Body),
      FirstMatch (·.canWrite contentType body) (·.write contentType body)
        (.noConverter body.shape contentType) (handles.map instances)
        ((ofList (listing instances handles)).write contentType (some body)) ∧
      ((ofList (listing instances handles)).writer? contentType body = none ↔
        ∀ c ∈ handles.map instances, c.canWrite contentType body = false)) ∧
    ∀ (r : Registry) (contentType : Option MediaType), r.write contentType none = .ok [] := by
  refine ⟨⟨(firstOfEach [] (listing instances handles)).map Prod.fst, ?entries, ?members, ?order⟩,
    ?read, ?write, fun _ _ => rfl⟩
  case entries =>
    show firstOfEach [] (listing instances handles) = _
    unfold listing
    rw [List.map_map]
    refine (List.map_id _).symm.trans (List.map_congr_left fun entry hentry => ?_)
    exact Prod.ext rfl ((mem_firstOfEach_listing instances).1 hentry).2.2
  case members =>
    intro handle
    rw [List.mem_map]
    constructor
    · rintro ⟨entry, hentry, rfl⟩
      exact ((mem_firstOfEach_listing instances).1 hentry).1
    · intro h
      exact ⟨(handle, instances handle),
        (mem_firstOfEach_listing instances).2 ⟨h, List.not_mem_nil, rfl⟩, rfl⟩
  case order =>
    have hseen : ∀ handle : Nat, handle ∈ [] ↔ handle ∈ [] := fun _ => Iff.rfl
    exact pairwise_firstOfEach_listing instances hseen handles
  case read =>
    intro contentType bytes shape
    rw [read_eq_scan, scan_converters_ofList]
    refine ⟨firstMatch_scan, ?_⟩
    unfold reader?
    rw [find?_converters_ofList, List.find?_eq_none]
    simp only [Bool.not_eq_true]
  case write =>
    intro contentType body
    rw [write_eq_scan, scan_converters_ofList]
    refine ⟨firstMatch_scan, ?_⟩
    unfold writer?
    rw [find?_converters_ofList, List.find?_eq_none]
    simp only [Bool.not_eq_true]

/-- A converter of JSON that is listed on both sides of one of text is asked in front of it. -/
theorem ofList_scan_repeated :
    let instances : Nat → Converter := fun handle =>
      if handle = 0 then .text .windows1252 else .json .compact
    let r := ofList (listing instances [1, 0, 1])
    r.entries.map Prod.fst = [1, 0] ∧
      r.read none [0x5B] .text = (Converter.json .compact).read none [0x5B] .text ∧
      r.read none [0x5B] .binary = .error (.noConverter .binary none) ∧
      r.write none none = .ok [] := by
  intro instances r
  obtain ⟨-, hread, -, habsent⟩ := ofList_scan instances [1, 0, 1]
  refine ⟨rfl, ?_, ?_, habsent r none⟩
  · exact (hread none [0x5B] .text).1.of_first [] (.json .compact)
      [.text .windows1252, .json .compact] rfl (by simp) rfl
  · refine (hread none [0x5B] .binary).1.refused_iff.2 (.inl ?_)
    simp only [List.map_cons, List.map_nil, List.forall_mem_cons, List.not_mem_nil, false_imp_iff,
      implies_true, and_true]
    exact ⟨rfl, rfl, rfl⟩

end PolicyClient.Registry
