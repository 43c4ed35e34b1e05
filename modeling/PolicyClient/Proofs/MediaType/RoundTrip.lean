/-
Media types are read back from their text. The text is cut at its first semicolon and then outside
quotes, which gives the parameters as they were written, one part each; setting them one after the
other on a type without parameters builds the media type anew (`withParameters_parameters`).
-/
import PolicyClient.Proofs.MediaType.WellFormed
import PolicyClient.Proofs.Text.Blank
import PolicyClient.Proofs.Text.Quoted

namespace PolicyClient.MediaType

open Text (sameName)

variable {m : MediaType}

/-! ## The written form -/

/-- A value as it is written: a token as it stands, any other text between quotes. -/
def written (value : List Char) : List Char :=
  if isToken value then value else Text.Quoted.quote value

/-- A parameter as it is written behind its semicolon. -/
def segment (p : String × String) : List Char :=
  p.1.toList ++ '=' :: written p.2.toList

/-- Parameters as they are written, each behind a semicolon. -/
def segments (parameters : List (String × String)) : List Char :=
  parameters.flatMap fun p => ';' :: segment p

/-- Type and subtype as they are written. -/
def fullType (m : MediaType) : List Char :=
  m.type.toList ++ '/' :: m.subtype.toList

theorem toList_renderParameter (name value : String) :
    (renderParameter name value).toList = ';' :: segment (name, value) := by
  unfold renderParameter segment written
  rw [String.toList_append, String.toList_append, String.toList_append, apply_ite String.toList,
    String.toList_ofList]
  simp

theorem toList_render (m : MediaType) :
    m.render.toList = m.fullType ++ segments m.parameters := by
  unfold render fullType segments
  rw [String.toList_append, String.toList_append, String.toList_append, String.toList_join,
    List.flatMap_map]
  simp [toList_renderParameter]

/-! ## Reading the parts -/

theorem ne_separator_of_token {s : List Char} (h : isToken s = true) {mark c : Char}
    (hmark : mark ∈ ['"', ';', ',', '=', '/']) (hc : c ∈ s) : c ≠ mark := by
  rintro rfl
  have := (isToken_iff.1 h).2 c hc
  rw [isTokenChar_of_separator hmark] at this
  cases this

theorem isBlank_of_token {s : List Char} (h : isToken s = true) {c : Char} (hc : c ∈ s) :
    Text.isBlank c = false :=
  isBlank_of_isTokenChar ((isToken_iff.1 h).2 c hc)

theorem trim_token {s : List Char} (h : isToken s = true) : Text.trim s = s :=
  Text.trim_of_no_blank fun _ hc => isBlank_of_token h hc

theorem behind?_token {s : List Char} (h : isToken s = true) {separator : Char}
    (hseparator : separator ∈ [';', ',']) :
    Text.Quoted.behind? separator .outside s = some .outside := by
  refine Text.Quoted.behind?_of_plain fun c hc => ⟨ne_separator_of_token h (by simp) hc, ?_⟩
  exact ne_separator_of_token h (List.mem_cons_of_mem _ (by simp at hseparator ⊢; tauto)) hc

/-! ### Values -/

theorem behind?_written (value : List Char) {separator : Char} (hseparator : separator ∈ [';', ',']) :
    Text.Quoted.behind? separator .outside (written value) = some .outside := by
  unfold written
  split_ifs with hvalue
  · exact behind?_token hvalue hseparator
  · exact Text.Quoted.behind?_quote value

/-- A written value begins and ends with a character that is no white space. -/
theorem written_ends (value : List Char) : written value ≠ [] ∧
    (∀ c ∈ (written value).head?, Text.isBlank c = false) ∧
    ∀ c ∈ (written value).getLast?, Text.isBlank c = false := by
  unfold written
  split_ifs with hvalue
  · exact ⟨(isToken_iff.1 hvalue).1, fun c hc => isBlank_of_token hvalue (List.mem_of_mem_head? hc),
      fun c hc => isBlank_of_token hvalue (List.mem_of_getLast? hc)⟩
  · have hlast : (Text.Quoted.quote value).getLast? = some '"' := List.getLast?_concat
    refine ⟨List.cons_ne_nil _ _, fun c hc => ?_, fun c hc => ?_⟩
    · cases hc; rfl
    · rw [hlast] at hc; cases hc; rfl

theorem unquote_written (value : List Char) :
    Text.Quoted.unquote (Text.trim (written value)) = value := by
  obtain ⟨-, hhead, hlast⟩ := written_ends value
  rw [Text.trim_eq_self hhead hlast]
  unfold written
  split_ifs with hvalue
  · exact Text.Quoted.unquote_of_head fun c hc =>
      ne_separator_of_token hvalue (by simp) (List.mem_of_mem_head? hc)
  · exact Text.Quoted.unquote_quote value

/-! ### Parameters -/

/-- No separator of a list stands outside quotes in a parameter. -/
theorem behind?_segment {p : String × String} (h : ValidParameter p.1 p.2) {separator : Char}
    (hseparator : separator ∈ [';', ',']) :
    Text.Quoted.behind? separator .outside (segment p) = some .outside := by
  have hequals : ('=' : Char) ≠ separator := by
    rintro rfl; simp at hseparator
  unfold segment
  rw [Text.Quoted.behind?_append, behind?_token h.token hseparator, Option.bind_some,
    Text.Quoted.behind?, if_neg fun hcut => hequals hcut.2.2]
  exact behind?_written _ hseparator

theorem split_segments {p : String × String} {parameters : List (String × String)}
    (h : ∀ q ∈ p :: parameters, ValidParameter q.1 q.2) :
    Text.Quoted.split ';' (segment p ++ segments parameters) = segment p :: parameters.map segment := by
  have hall : ∀ part ∈ segment p :: parameters.map segment,
      Text.Quoted.behind? ';' .outside part = some .outside := by
    rw [← List.map_cons, List.forall_mem_map]
    exact fun q hq => behind?_segment (h q hq) (by simp)
  have hparts := Text.Quoted.split_parts (by decide) hall
  rwa [List.flatMap_map] at hparts

theorem trim_segment {p : String × String} (h : ValidParameter p.1 p.2) :
    Text.trim (segment p) = segment p := by
  obtain ⟨hne, -, hlast⟩ := written_ends p.2.toList
  refine Text.trim_eq_self (fun c hc => ?_) fun c hc => hlast c ?_
  · unfold segment at hc
    rw [List.head?_append_of_ne_nil _ (isToken_iff.1 h.token).1] at hc
    exact isBlank_of_token h.token (List.mem_of_mem_head? hc)
  · unfold segment at hc
    rwa [List.getLast?_append_of_ne_nil _ (List.cons_ne_nil _ _), ← List.singleton_append,
      List.getLast?_append_of_ne_nil _ hne] at hc

/-- A written parameter is read as its name and its value. -/
theorem parameterOf?_segment {p : String × String} (h : ValidParameter p.1 p.2) :
    parameterOf? (segment p) = some p := by
  have hequals : '=' ∉ p.1.toList := fun hmem => ne_separator_of_token h.token (by simp) hmem rfl
  unfold parameterOf?
  rw [trim_segment h, segment, Text.splitFirst?_append hequals, Option.map_some]
  simp only [trim_token h.token, unquote_written, String.ofList_toList]

theorem filterMap_segments {parameters : List (String × String)}
    (h : ∀ p ∈ parameters, ValidParameter p.1 p.2) :
    (parameters.map segment).filterMap parameterOf? = parameters := by
  rw [List.filterMap_map]
  refine (List.filterMap_congr fun p hp => parameterOf?_segment (h p hp)).trans ?_
  rw [List.filterMap_some]

/-! ## Building anew -/

theorem setParameter_of_new {parameters : List (String × String)} {name : String}
    (h : valueOf? parameters name = none) (value : String) :
    setParameter parameters name value = parameters ++ [(name, value)] := by
  induction parameters with
  | nil => rfl
  | cons p parameters ih =>
    rw [valueOf?_cons] at h
    split_ifs at h with hname
    rw [setParameter_cons, if_neg hname, ih h, List.cons_append]

/-- The media type with the parameters up to some point, and the charset that these name. -/
def upTo (m : MediaType) (parameters : List (String × String)) : MediaType :=
  { m with parameters, charset := (valueOf? parameters "charset").bind Charset.ofLabel? }

/-- Setting the next parameter of a well-formed media type adds it behind those before it. -/
theorem withParameter_upTo (hm : m.WellFormed) {before behind : List (String × String)}
    {p : String × String} (hp : m.parameters = before ++ p :: behind) :
    (m.upTo before).withParameter p.1 p.2 = .ok (m.upTo (before ++ [p])) := by
  have hnew : valueOf? before p.1 = none := by
    have hnames := hm.names
    rw [hp, List.map_append, List.pairwise_append] at hnames
    exact valueOf?_eq_none_iff.2 fun key hkey => hnames.2.2 key hkey p.1 List.mem_cons_self
  have hvalid : ValidParameter p.1 p.2 := hm.valid p (by simp [hp])
  rw [withParameter_eq_ok_iff]
  refine ⟨hvalid, ?_⟩
  have hset := setParameter_of_new hnew p.2
  unfold upTo
  rw [MediaType.mk.injEq]
  refine ⟨rfl, rfl, hset.symm, ?_⟩
  show (valueOf? (before ++ [p]) "charset").bind _ = if _ then _ else (valueOf? before "charset").bind _
  rw [← hset, valueOf?_setParameter]
  split_ifs <;> rfl

/-- A well-formed media type is what its parameters build on its type and subtype. -/
theorem withParameters_parameters (hm : m.WellFormed) :
    (bare m.type m.subtype).withParameters m.parameters = .ok m := by
  have hrun : ∀ behind before, m.parameters = before ++ behind →
      (m.upTo before).withParameters behind = .ok m := by
    intro behind
    induction behind with
    | nil =>
      intro before h
      rw [List.append_nil] at h
      show Except.ok (m.upTo before) = .ok m
      rw [upTo, ← h, ← hm.charset_eq]
    | cons p behind ih =>
      intro before h
      unfold withParameters
      rw [List.foldlM_cons]
      refine Fallible.bind_eq_ok.2 ⟨_, withParameter_upTo hm h, ih (before ++ [p]) ?_⟩
      rw [h, List.append_assoc, List.singleton_append]
  exact hrun m.parameters [] rfl

/-! ## Reading the whole text -/

/-- Type and subtype are read as they are written, white space around them aside. -/
theorem parseType_of_trim (hm : m.WellFormed) {s : List Char} (hs : Text.trim s = m.fullType)
    (input : String) : parseType input s = .ok (bare m.type m.subtype) := by
  have htype := isToken_iff.1 hm.type_token
  have hsubtype := isToken_iff.1 hm.subtype_token
  have hne : m.fullType ≠ [] := List.append_ne_nil_of_left_ne_nil htype.1 _
  have hslash : '/' ∈ m.fullType := by simp [fullType]
  have hstar : m.fullType ≠ ['*'] := by intro h; rw [h] at hslash; simp at hslash
  have hcut : Text.splitFirst? '/' m.fullType = some (m.type.toList, m.subtype.toList) :=
    Text.splitFirst?_append (fun hmem => ne_separator_of_token hm.type_token (by simp) hmem rfl) _
  have hcheck : checkType input m.type.toList m.subtype.toList = .ok () :=
    checkType_eq_ok_iff.2 ⟨hm.type_token, hm.subtype_token, fun h => by
      rw [hm.wildcard (String.toList_inj.1 (h.trans String.toList_ofList.symm))]
      exact String.toList_ofList⟩
  unfold parseType
  dsimp only
  rw [hs, if_neg hne, if_neg hstar, hcut]
  obtain ⟨c, subtype, hc⟩ := List.exists_cons_of_ne_nil hsubtype.1
  rw [hc] at hcheck ⊢
  show (checkType input m.type.toList (c :: subtype) >>= fun _ => _) = _
  rw [hcheck, ← hc]
  show Except.ok (bare (Text.lower m.type.toList) (Text.lower m.subtype.toList)) = _
  rw [hm.type_lower, hm.subtype_lower]

theorem isBlank_of_mem_fullType (hm : m.WellFormed) : ∀ c ∈ m.fullType, Text.isBlank c = false := by
  unfold fullType
  rw [List.forall_mem_append, List.forall_mem_cons]
  exact ⟨fun c => isBlank_of_token hm.type_token, rfl, fun c => isBlank_of_token hm.subtype_token⟩

theorem not_mem_fullType (hm : m.WellFormed) : ';' ∉ m.fullType := by
  unfold fullType
  rw [List.mem_append, List.mem_cons]
  rintro (h | h | h)
  · exact ne_separator_of_token hm.type_token (by simp) h rfl
  · cases h
  · exact ne_separator_of_token hm.subtype_token (by simp) h rfl

/-- A well-formed media type is read back from its text, white space in front aside. -/
theorem parse_of_front (hm : m.WellFormed) {front : List Char} (hfront : ';' ∉ front)
    (htrim : Text.trim front = m.fullType) {input : String}
    (hinput : input.toList = front ++ segments m.parameters) : parse input = .ok m := by
  have hcut : ∃ behind, (Text.splitFirst? ';' input.toList).getD (input.toList, []) =
      (front, behind) ∧
        (Text.Quoted.split ';' behind).filterMap parameterOf? = m.parameters := by
    rw [hinput]
    rcases hparameters : m.parameters with _ | ⟨p, parameters⟩
    · refine ⟨[], ?_, rfl⟩
      rw [segments, List.flatMap_nil, List.append_nil, Text.splitFirst?_of_not_mem hfront]
      rfl
    · have hvalid := hm.valid
      rw [hparameters] at hvalid
      refine ⟨segment p ++ segments parameters, ?_, ?_⟩
      · rw [segments, List.flatMap_cons, List.cons_append, Text.splitFirst?_append hfront]
        rfl
      · rw [split_segments hvalid]
        exact filterMap_segments hvalid
  obtain ⟨behind, hcut, hbehind⟩ := hcut
  unfold parse
  rw [hcut]
  show (parseType input front >>= fun m' => _) = _
  rw [parseType_of_trim hm htrim]
  show (bare m.type m.subtype).withParameters _ = _
  rw [hbehind, withParameters_parameters hm]

theorem parse_render (hm : m.WellFormed) : parse m.render = .ok m :=
  parse_of_front hm (not_mem_fullType hm) (Text.trim_of_no_blank (isBlank_of_mem_fullType hm))
    (toList_render m)

/-- Every media type is read back from its text, with its parameters in order and its charset. -/
theorem parse_render_of_built (h : m.Built) : parse m.render = .ok m :=
  parse_render h.wellFormed

/-- A value with quotes, backslashes, separators and a line end, and a charset. -/
theorem parse_render_quoted_title :
    ∃ m, ofParts " Text" "PLAIN"
        [("Title", "a"), ("charset", "latin1"), ("TITLE", " é;b=\"c,\\\n")] = .ok m ∧
      m.parameters = [("Title", " é;b=\"c,\\\n"), ("charset", "latin1")] ∧
      m.charset = some .windows1252 ∧ parse m.render = .ok m := by
  have hparts : ofParts " Text" "PLAIN"
      [("Title", "a"), ("charset", "latin1"), ("TITLE", " é;b=\"c,\\\n")] =
        .ok ⟨"text", "plain", [("Title", " é;b=\"c,\\\n"), ("charset", "latin1")],
          some .windows1252⟩ := by
    decide +kernel
  exact ⟨_, hparts, rfl, rfl, parse_render_of_built (.assembled hparts)⟩

end PolicyClient.MediaType
