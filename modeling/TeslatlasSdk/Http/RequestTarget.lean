import TeslatlasSdk.Http.RequestBuilder
import TeslatlasSdk.Text.Url

/-!
# Request targets

What an operation's template becomes when its path is built and resolved against the base URL:
the segments of the template, with a value in the place of each parameter, and the declared pairs.
-/

open Text Core Json

namespace Http

/-! ## `resolveRequestUrl` -/

/-- The `TypeError` of the URL constructor. -/
def invalidUrl : Thrown := .other 0

/-- `authorityUrl` is the URL of a path that names an authority, behind a slash and a backslash. -/
def resolveRequestUrl (authorityUrl : JsString → Option Url) (baseUrl : Url) (path : JsString) :
    Except Thrown Url :=
  if !isRootRelative path || containsControlCharacters path then
    .error (.teslatlas .invalidRequestPath)
  else
    match if path[1]? = some 0x5C then authorityUrl path else some (baseUrl.resolve path) with
    | none => .error invalidUrl
    | some url =>
        if url.origin ≠ baseUrl.origin then .error (.teslatlas .invalidRequestPath) else .ok url

/-! ## Templates -/

inductive TemplateSegment where
  | literal (text : JsString)
  | parameter (name : JsString)
  deriving DecidableEq, Repr

def TemplateSegment.text : TemplateSegment → JsString
  | .literal text => text
  | .parameter name => 0x7B :: (name ++ [0x7D])

def templateSegment (s : JsString) : TemplateSegment :=
  if s.head? = some 0x7B ∧ s.getLast? = some 0x7D then .parameter (s.drop 1).dropLast
  else .literal s

def templateSegments (template : JsString) : List TemplateSegment :=
  ((template.splitOn 0x2F).drop 1).map templateSegment

/-- Units that a template may have in a segment, and no empty or dot segment. -/
def TemplateSegment.isProper : TemplateSegment → Bool
  | .literal text =>
      text.all isSegmentUnit && !text.contains 0x25 && !text.isEmpty && !isDotSegment text
  | .parameter name => name ≠ [] && !name.contains 0x7D

/-- A template that is made of proper segments, with a literal first. -/
def isProperTemplate (template : JsString) : Bool :=
  (templateSegments template).all TemplateSegment.isProper &&
    (match templateSegments template with
    | .literal _ :: _ => true
    | _ => false) &&
    joinSegments ((templateSegments template).map TemplateSegment.text) = template

theorem isProper_readOperation (operation : ReadOperationName) :
    isProperTemplate (readOperationDescriptors operation).pathTemplate = true := by
  cases operation with
  | _ => rfl

theorem isProper_writeOperation (operation : WriteOperationName) :
    isProperTemplate (writeOperationDescriptors operation).pathTemplate = true := by
  cases operation with
  | _ => rfl

/-! ## Filling templates -/

/-- The segment that a path has for a segment of its template. -/
def fillSegment (values : PathValues) : TemplateSegment → Except Thrown JsString
  | .literal text => .ok text
  | .parameter name =>
      match values.lookup name with
      | none => .error (.teslatlas .invalidRequestPath)
      | some value =>
          match encodeURIComponent value with
          | none => .error uriError
          | some encoded => .ok encoded

def fillSegments (values : PathValues) : List TemplateSegment → Except Thrown (List JsString)
  | [] => .ok []
  | segment :: segments => do
      let part ← fillSegment values segment
      let parts ← fillSegments values segments
      return part :: parts

/-- The names of the parameters. -/
def parameterNames : List TemplateSegment → List JsString
  | [] => []
  | .literal _ :: segments => parameterNames segments
  | .parameter name :: segments => name :: parameterNames segments

theorem fillTemplate_unit {values : PathValues} {u : CodeUnit} (h : u ≠ 0x7B) (s : JsString) :
    fillTemplate values (u :: s) =
      (fillTemplate values s).map fun filled => (u :: filled.1, filled.2) := by
  rw [fillTemplate]
  split
  · cases fillTemplate values s with
    | ok filled => rfl
    | error e => rfl
  · next name rest hname =>
    rw [if_neg h] at hname
    cases hname

theorem fillTemplate_brace {values : PathValues} {s name rest : JsString}
    (h : parameterName s = some (name, rest)) :
    fillTemplate values (0x7B :: s) =
      fillSegment values (.parameter name) >>= fun part =>
        (fillTemplate values rest).map fun filled => (part ++ filled.1, name :: filled.2) := by
  rw [fillTemplate]
  split
  · next hname =>
    rw [if_pos rfl, h] at hname
    cases hname
  · next name' rest' hname =>
    rw [if_pos rfl, h, Option.some.injEq, Prod.mk.injEq] at hname
    obtain ⟨rfl, rfl⟩ := hname
    rw [fillSegment]
    cases values.lookup name with
    | none => rfl
    | some value =>
      cases hencoded : encodeURIComponent value with
      | none =>
        simp only [hencoded]
        rfl
      | some encoded =>
        simp only [hencoded]
        cases fillTemplate values rest with
        | ok filled => rfl
        | error e => rfl

theorem fillTemplate_literal {values : PathValues} {literal : JsString} (h : 0x7B ∉ literal)
    (rest : JsString) :
    fillTemplate values (literal ++ rest) =
      (fillTemplate values rest).map fun filled => (literal ++ filled.1, filled.2) := by
  induction literal with
  | nil =>
    rw [List.nil_append]
    cases fillTemplate values rest with
    | ok filled => rfl
    | error e => rfl
  | cons u literal ih =>
    rw [List.cons_append, fillTemplate_unit fun heq => h (heq ▸ List.mem_cons_self),
      ih fun hmem => h (List.mem_cons_of_mem u hmem)]
    cases fillTemplate values rest with
    | ok filled => rfl
    | error e => rfl

theorem parameterName_append {name : JsString} (hne : name ≠ []) (h : 0x7D ∉ name)
    (rest : JsString) : parameterName (name ++ 0x7D :: rest) = some (name, rest) := by
  have hname : ∀ u ∈ name, (u != 0x7D) = true := by
    intro u hu
    exact bne_iff_ne.mpr fun heq => h (heq ▸ hu)
  rw [parameterName, List.takeWhile_append_of_pos hname, List.dropWhile_append_of_pos hname]
  simp [hne]

theorem fillTemplate_segment {values : PathValues} {segment : TemplateSegment}
    (h : segment.isProper = true) (rest : JsString) :
    fillTemplate values (segment.text ++ rest) =
      fillSegment values segment >>= fun part =>
        (fillTemplate values rest).map fun filled =>
          (part ++ filled.1, parameterNames [segment] ++ filled.2) := by
  cases segment with
  | literal text =>
    have hbrace : 0x7B ∉ text := by
      intro hmem
      simp only [TemplateSegment.isProper, Bool.and_eq_true] at h
      exact absurd (List.all_eq_true.mp h.1.1.1 _ hmem) (by decide)
    exact fillTemplate_literal hbrace rest
  | parameter name =>
    simp only [TemplateSegment.isProper, Bool.and_eq_true, decide_eq_true_eq, Bool.not_eq_true',
      ← Bool.not_eq_true, List.contains_iff_mem] at h
    have htext : (TemplateSegment.parameter name).text ++ rest = 0x7B :: (name ++ 0x7D :: rest) := by
      rw [TemplateSegment.text, List.cons_append, List.append_assoc, List.singleton_append]
    rw [htext, fillTemplate_brace (parameterName_append h.1 h.2 rest)]
    rfl

-- A template is filled segment by segment.
theorem fillTemplate_joinSegments {values : PathValues} {segments : List TemplateSegment}
    (h : ∀ segment ∈ segments, segment.isProper = true) :
    fillTemplate values (joinSegments (segments.map TemplateSegment.text)) =
      (fillSegments values segments).map fun parts =>
        (joinSegments parts, parameterNames segments) := by
  induction segments with
  | nil =>
    rw [List.map_nil]
    show fillTemplate values [] = _
    rw [fillTemplate]
    rfl
  | cons segment segments ih =>
    have hjoin : joinSegments ((segment :: segments).map TemplateSegment.text) =
        0x2F :: (segment.text ++ joinSegments (segments.map TemplateSegment.text)) := rfl
    rw [hjoin, fillTemplate_unit (by decide), fillTemplate_segment (h segment List.mem_cons_self),
      ih fun segment hsegment => h segment (List.mem_cons_of_mem _ hsegment), fillSegments]
    have hnames : parameterNames (segment :: segments) =
        parameterNames [segment] ++ parameterNames segments := by
      cases segment with
      | literal text => rfl
      | parameter name => rfl
    rw [hnames]
    cases fillSegment values segment with
    | error e => rfl
    | ok part =>
      cases fillSegments values segments with
      | error e => rfl
      | ok parts => rfl

/-! ## Paths -/

/-- A path's segment in the place of a template's: the literal itself, or one that percent-decodes
to the value and is no dot segment. -/
def Stands (values : PathValues) : TemplateSegment → JsString → Prop
  | .literal text, part => part = text
  | .parameter name, part => ∃ value, values.lookup name = some value ∧
      decodeComponent part = value ∧ isDotSegment part = false

/-- A segment that a URL keeps as it is. -/
def IsPlain (part : JsString) : Prop := (∀ u ∈ part, isSegmentUnit u = true) ∧ isDotSegment part = false

theorem fillSegment_spec {values : PathValues} {segment : TemplateSegment}
    (hproper : segment.isProper = true)
    (hvalues : ∀ name ∈ parameterNames [segment],
      ∃ value, values.lookup name = some value ∧ 3 ≤ value.length) :
    (∃ part, fillSegment values segment = .ok part ∧ Stands values segment part ∧ IsPlain part ∧
        ∀ name ∈ parameterNames [segment], ∃ value,
          values.lookup name = some value ∧ isWellFormed value = true) ∨
      fillSegment values segment = .error uriError ∧ ∃ name ∈ parameterNames [segment], ∃ value,
        values.lookup name = some value ∧ isWellFormed value = false := by
  cases segment with
  | literal text =>
    simp only [TemplateSegment.isProper, Bool.and_eq_true, Bool.not_eq_true'] at hproper
    exact .inl ⟨text, rfl, rfl, ⟨List.all_eq_true.mp hproper.1.1.1, hproper.2⟩, nofun⟩
  | parameter name =>
    obtain ⟨value, hlookup, hlength⟩ := hvalues name List.mem_cons_self
    rw [fillSegment, hlookup]
    cases hencoded : encodeURIComponent value with
    | none =>
      refine .inr ⟨by simp only [hencoded], name, List.mem_cons_self, value, hlookup, ?_⟩
      exact encodeURIComponent_eq_none.mp hencoded
    | some encoded =>
      have hdot := isDotSegment_encodeURIComponent hencoded hlength
      refine .inl ⟨encoded, by simp only [hencoded], ?_, ⟨mem_encodeURIComponent hencoded, hdot⟩, ?_⟩
      · exact ⟨value, hlookup, decodeComponent_encodeURIComponent hencoded, hdot⟩
      · intro name' hname
        rw [List.mem_singleton.mp hname]
        refine ⟨value, hlookup, Bool.not_eq_false _ ▸ fun hill => ?_⟩
        rw [encodeURIComponent_eq_none.mpr hill] at hencoded
        cases hencoded

theorem fillSegments_spec {values : PathValues} {segments : List TemplateSegment}
    (hproper : ∀ segment ∈ segments, segment.isProper = true)
    (hvalues : ∀ name ∈ parameterNames segments,
      ∃ value, values.lookup name = some value ∧ 3 ≤ value.length) :
    (∃ parts, fillSegments values segments = .ok parts ∧
        List.Forall₂ (Stands values) segments parts ∧ (∀ part ∈ parts, IsPlain part) ∧
        ∀ name ∈ parameterNames segments, ∃ value,
          values.lookup name = some value ∧ isWellFormed value = true) ∨
      fillSegments values segments = .error uriError ∧ ∃ name ∈ parameterNames segments, ∃ value,
        values.lookup name = some value ∧ isWellFormed value = false := by
  induction segments with
  | nil => exact .inl ⟨[], rfl, .nil, nofun, nofun⟩
  | cons segment segments ih =>
    have hnames : parameterNames (segment :: segments) =
        parameterNames [segment] ++ parameterNames segments := by
      cases segment with
      | literal text => rfl
      | parameter name => rfl
    rw [hnames] at hvalues ⊢
    have hone := fillSegment_spec (hproper segment List.mem_cons_self)
      fun name hname => hvalues name (List.mem_append_left _ hname)
    have hrest := ih (fun segment hsegment => hproper segment (List.mem_cons_of_mem _ hsegment))
      fun name hname => hvalues name (List.mem_append_right _ hname)
    rw [fillSegments]
    rcases hone with ⟨part, hpart, hstands, hplain, hwell⟩ | ⟨herror, name, hname, hill⟩
    · rw [hpart]
      rcases hrest with ⟨parts, hparts, hall, hplains, hwells⟩ | ⟨herror, name, hname, hill⟩
      · rw [hparts]
        refine .inl ⟨part :: parts, rfl, .cons hstands hall, fun other hother => ?_,
          fun name hname => ?_⟩
        · rcases List.mem_cons.mp hother with rfl | hother
          · exact hplain
          · exact hplains other hother
        · rcases List.mem_append.mp hname with hname | hname
          · exact hwell name hname
          · exact hwells name hname
      · rw [herror]
        exact .inr ⟨rfl, name, List.mem_append_right _ hname, hill⟩
    · rw [herror]
      exact .inr ⟨rfl, name, List.mem_append_left _ hname, hill⟩

theorem isRootRelative_joinSegments {part : JsString} {parts : List JsString} (hne : part ≠ [])
    (hplain : ∀ u ∈ part, isSegmentUnit u = true) :
    isRootRelative (joinSegments (part :: parts)) = true ∧
      (joinSegments (part :: parts))[1]? ≠ some 0x5C := by
  obtain ⟨u, s, rfl⟩ := List.exists_cons_of_ne_nil hne
  have hslash := (isSegmentUnit_spec (hplain u List.mem_cons_self)).2.2.1
  rw [isSlash, Bool.or_eq_false_iff, decide_eq_false_iff_not, decide_eq_false_iff_not] at hslash
  have hjoin : joinSegments ((u :: s) :: parts) = 0x2F :: u :: (s ++ joinSegments parts) := rfl
  rw [hjoin]
  refine ⟨?_, fun h => hslash.2 (Option.some.inj h)⟩
  rw [isRootRelative]
  · intro rest heq
    exact hslash.1 (List.cons.inj heq).1

theorem isProperTemplate_spec {template : JsString} (h : isProperTemplate template = true) :
    (∀ segment ∈ templateSegments template, segment.isProper = true) ∧
      (∃ text segments, templateSegments template = .literal text :: segments) ∧
      joinSegments ((templateSegments template).map TemplateSegment.text) = template := by
  rw [isProperTemplate, Bool.and_eq_true, Bool.and_eq_true, decide_eq_true_eq,
    List.all_eq_true] at h
  refine ⟨h.1.1, ?_, h.2⟩
  have hfirst := h.1.2
  split at hfirst
  · next text segments hsegments => exact ⟨text, segments, hsegments⟩
  · cases hfirst

-- The first segment of a filled template is its first literal.
theorem isRootRelative_fillSegments {template : JsString} {values : PathValues}
    {parts : List JsString} (h : isProperTemplate template = true)
    (hparts : fillSegments values (templateSegments template) = .ok parts) (query : JsString) :
    isRootRelative (joinSegments parts ++ query) = true ∧
      (joinSegments parts ++ query)[1]? ≠ some 0x5C := by
  obtain ⟨hproper, ⟨text, segments, hfirst⟩, -⟩ := isProperTemplate_spec h
  have hliteral := hproper (.literal text) (hfirst ▸ List.mem_cons_self)
  simp only [TemplateSegment.isProper, Bool.and_eq_true, Bool.not_eq_true'] at hliteral
  have hne : text ≠ [] := List.isEmpty_eq_false_iff.mp hliteral.1.2
  have hunits := List.all_eq_true.mp hliteral.1.1.1
  rw [hfirst, fillSegments] at hparts
  cases hrest : fillSegments values segments with
  | error e =>
    rw [hrest] at hparts
    cases hparts
  | ok rest =>
    rw [hrest] at hparts
    obtain rfl := Except.ok.inj hparts
    obtain ⟨u, s, rfl⟩ := List.exists_cons_of_ne_nil hne
    have hroot : isRootRelative (joinSegments ((u :: s) :: rest)) = true ∧
        (joinSegments ((u :: s) :: rest))[1]? ≠ some 0x5C := isRootRelative_joinSegments hne hunits
    have hjoin : joinSegments ((u :: s) :: rest) = 0x2F :: u :: (s ++ joinSegments rest) := rfl
    rw [hjoin] at hroot ⊢
    refine ⟨?_, hroot.2⟩
    rw [List.cons_append, List.cons_append, isRootRelative]
    · intro later heq
      obtain ⟨rfl, -⟩ := List.cons.inj heq
      exact absurd hroot.1 (by simp [isRootRelative])

theorem interpolatePath_eq {template : JsString} {values : PathValues}
    (h : isProperTemplate template = true)
    (hused : ∀ value ∈ values, value.1 ∈ parameterNames (templateSegments template)) :
    interpolatePath template values =
      (fillSegments values (templateSegments template)).map joinSegments := by
  have hfill : fillTemplate values _ = _ := fillTemplate_joinSegments (isProperTemplate_spec h).1
  rw [(isProperTemplate_spec h).2.2] at hfill
  rw [interpolatePath, hfill]
  cases hparts : fillSegments values (templateSegments template) with
  | error e => rfl
  | ok parts =>
    have hunused : (values.any fun value =>
        !(parameterNames (templateSegments template)).contains value.1) = false := by
      rw [List.any_eq_false]
      intro value hvalue
      simpa using hused value hvalue
    have hroot := (isRootRelative_fillSegments h hparts []).1
    rw [List.append_nil] at hroot
    show (if !isRootRelative (joinSegments parts) || _ then _ else _) = _
    rw [hroot, hunused]
    rfl

/-! ## Targets -/

/-- A path with the pairs behind it. -/
def withQuery (path : JsString) (pairs : List (JsString × JsString)) : JsString :=
  if (formSerialize pairs).isEmpty then path else path ++ 0x3F :: formSerialize pairs

/-- A URL of the base URL's origin that has a segment for each of the template's, and a query that
decodes to the pairs. -/
structure Reaches (base : Url) (template : JsString) (values : PathValues)
    (pairs : List (JsString × JsString)) (url : Url) : Prop where
  origin : url.origin = base.origin
  segments : List.Forall₂ (Stands values) (templateSegments template) url.path
  query : formParse (url.query.getD []) = pairs

theorem withQuery_eq_reference (parts : List JsString) (pairs : List (JsString × JsString)) :
    ∃ query, withQuery (joinSegments parts) pairs = reference parts query ∧
      query.getD [] = formSerialize pairs ∧
      ∀ q ∈ query, ∀ u ∈ q, u.toNat < 0x80 ∧ isQueryCode u.toNat = true := by
  rw [withQuery]
  split
  · next hempty =>
    refine ⟨none, (List.append_nil _).symm, ?_, nofun⟩
    exact (List.isEmpty_iff.mp hempty).symm
  · refine ⟨some (formSerialize pairs), rfl, rfl, fun q hq => ?_⟩
    obtain rfl := Option.some.inj hq
    exact isQueryCode_formSerialize pairs

theorem isVisible_of_mem_reference {parts : List JsString} {query : Option JsString}
    (hplain : ∀ part ∈ parts, IsPlain part)
    (hquery : ∀ q ∈ query, ∀ u ∈ q, u.toNat < 0x80 ∧ isQueryCode u.toNat = true) :
    ∀ u ∈ reference parts query, isVisible u.toNat = true := by
  intro u hu
  rcases List.mem_append.mp hu with hu | hu
  · rcases mem_joinSegments hu with rfl | ⟨part, hpart, hu⟩
    · rfl
    · have hcode := (isSegmentUnit_spec ((hplain part hpart).1 u hu)).2.1
      rw [isPathCode, Bool.and_eq_true] at hcode
      exact hcode.1
  · cases query with
    | none => cases hu
    | some q =>
      rcases List.mem_cons.mp hu with rfl | hu
      · rfl
      · have hcode := (hquery q rfl u hu).2
        rw [isQueryCode, Bool.and_eq_true] at hcode
        exact hcode.1

theorem containsControlCharacters_of_visible {s : JsString}
    (h : ∀ u ∈ s, isVisible u.toNat = true) : containsControlCharacters s = false := by
  rw [containsControlCharacters, List.any_eq_false]
  intro u hu
  have hvisible := h u hu
  rw [isVisible, Bool.and_eq_true, decide_eq_true_eq, decide_eq_true_eq] at hvisible
  rw [Bool.or_eq_true, decide_eq_true_eq, decide_eq_true_eq, UInt16.le_iff_toNat_le]
  rintro (hle | rfl)
  · have : (31 : UInt16).toNat = 31 := rfl
    omega
  · exact absurd hvisible.2 (by decide)

-- A filled template is resolved to its segments as they are, with the pairs for a query.
theorem resolveRequestUrl_filled {template : JsString} {values : PathValues}
    {parts : List JsString} (h : isProperTemplate template = true)
    (hparts : fillSegments values (templateSegments template) = .ok parts)
    (hplain : ∀ part ∈ parts, IsPlain part) (authorityUrl : JsString → Option Url) (base : Url)
    (pairs : List (JsString × JsString)) :
    ∃ url, resolveRequestUrl authorityUrl base (withQuery (joinSegments parts) pairs) = .ok url ∧
      url.origin = base.origin ∧ url.path = parts ∧ url.query.getD [] = formSerialize pairs := by
  obtain ⟨query, hreference, hpairs, hquery⟩ := withQuery_eq_reference parts pairs
  have hroot := isRootRelative_fillSegments h hparts (query.elim [] (0x3F :: ·))
  have hcontrol := containsControlCharacters_of_visible (isVisible_of_mem_reference hplain hquery)
  have hne : parts ≠ [] := by
    rintro rfl
    obtain ⟨-, ⟨text, segments, hfirst⟩, -⟩ := isProperTemplate_spec h
    rw [hfirst, fillSegments] at hparts
    cases hrest : fillSegments values segments with
    | error e =>
      rw [hrest] at hparts
      cases hparts
    | ok rest =>
      rw [hrest] at hparts
      cases hparts
  have hresolve := base.resolve_reference hne (fun part hpart => (hplain part hpart).1)
    (fun part hpart => (hplain part hpart).2) hquery
  refine ⟨{ base with path := parts, query, fragment := none }, ?_, rfl, rfl, hpairs⟩
  rw [hreference, resolveRequestUrl]
  rw [← reference] at hroot
  rw [hroot.1, hcontrol, if_neg hroot.2, hresolve]
  exact if_neg (not_not_intro rfl)

/-- A path is built and resolved to what it stands for, or there is a typed error. -/
def Faithful (base : Url) (template : JsString) (values : PathValues)
    (pairs : List (JsString × JsString)) : Except Thrown Url → Prop
  | .ok url => Reaches base template values pairs url
  | .error e => e.isTeslatlasError = true

theorem fillSegments_target {template : JsString} {values : PathValues}
    (h : isProperTemplate template = true)
    (hused : ∀ value ∈ values, value.1 ∈ parameterNames (templateSegments template))
    (hvalues : ∀ name ∈ parameterNames (templateSegments template),
      ∃ value, values.lookup name = some value ∧ 3 ≤ value.length)
    (authorityUrl : JsString → Option Url) (base : Url) (pairs : List (JsString × JsString)) :
    (∃ path url, interpolatePath template values = .ok path ∧
        resolveRequestUrl authorityUrl base (withQuery path pairs) = .ok url ∧
        url.origin = base.origin ∧
        List.Forall₂ (Stands values) (templateSegments template) url.path ∧
        url.query.getD [] = formSerialize pairs ∧
        ∀ name ∈ parameterNames (templateSegments template), ∃ value,
          values.lookup name = some value ∧ isWellFormed value = true) ∨
      interpolatePath template values = .error uriError ∧
        ∃ name ∈ parameterNames (templateSegments template), ∃ value,
          values.lookup name = some value ∧ isWellFormed value = false := by
  rw [interpolatePath_eq h hused]
  rcases fillSegments_spec (isProperTemplate_spec h).1 hvalues with
    ⟨parts, hparts, hstands, hplain, hwell⟩ | ⟨herror, hill⟩
  · obtain ⟨url, hurl, horigin, hpath, hquery⟩ :=
      resolveRequestUrl_filled h hparts hplain authorityUrl base pairs
    refine .inl ⟨joinSegments parts, url, by rw [hparts]; rfl, hurl, horigin, ?_, hquery, hwell⟩
    rw [hpath]
    exact hstands
  · exact .inr ⟨by rw [herror]; rfl, hill⟩

def AreWellFormed (pairs : List (JsString × JsString)) : Prop :=
  ∀ pair ∈ pairs, isWellFormed pair.2 = true

/-- The values of a template with at most one parameter. -/
def parameterValues (parameter : Option String) (value : JsString) : PathValues :=
  parameter.toList.map fun name => (js name, value)

/-- The URL of a path that is built and gets a query. -/
def buildTarget (authorityUrl : JsString → Option Url) (base : Url) (template : JsString)
    (values : PathValues) (pairs : List (JsString × JsString)) : Except Thrown Url := do
  let path ← interpolatePath template values
  resolveRequestUrl authorityUrl base (withQuery path pairs)

section Parameter

variable {template : JsString} {parameter : Option String} {id : JsString}
  (h : isProperTemplate template = true)
  (hnames : parameterNames (templateSegments template) = parameter.toList.map js)
  (hid : ∀ name ∈ parameter, 3 ≤ id.length)

include h hnames hid

theorem parameterValues_target (authorityUrl : JsString → Option Url) (base : Url)
    (pairs : List (JsString × JsString)) :
    (∃ path url, interpolatePath template (parameterValues parameter id) = .ok path ∧
        resolveRequestUrl authorityUrl base (withQuery path pairs) = .ok url ∧
        url.origin = base.origin ∧
        List.Forall₂ (Stands (parameterValues parameter id)) (templateSegments template)
          url.path ∧
        url.query.getD [] = formSerialize pairs ∧
        AreWellFormed (parameterValues parameter id)) ∨
      interpolatePath template (parameterValues parameter id) = .error uriError ∧
        ¬ AreWellFormed (parameterValues parameter id) := by
  have hspec := @fillSegments_target template (parameterValues parameter id) h
  cases parameter with
  | none =>
    rw [hnames] at hspec
    rcases hspec nofun nofun authorityUrl base pairs with
      ⟨path, url, hpath, hurl, horigin, hstands, hquery, -⟩ | ⟨-, name, hname, -⟩
    · exact .inl ⟨path, url, hpath, hurl, horigin, hstands, hquery, nofun⟩
    · cases hname
  | some name =>
    have hlookup : (parameterValues (some name) id).lookup (js name) = some id := by
      show ([(js name, id)] : PathValues).lookup (js name) = some id
      rw [List.lookup_cons, beq_self_eq_true]
    have hmem : ∀ other ∈ (some name).toList.map js, other = js name := by
      intro other hother
      exact List.mem_singleton.mp hother
    rw [hnames] at hspec
    have hone := hspec (fun value hvalue => by
        rw [List.mem_singleton.mp hvalue]
        exact List.mem_singleton_self _)
      (fun other hother => ⟨id, hmem other hother ▸ hlookup, hid name rfl⟩) authorityUrl base pairs
    rcases hone with ⟨path, url, hpath, hurl, horigin, hstands, hquery, hwell⟩ |
      ⟨herror, other, hother, value, hvalue, hill⟩
    · refine .inl ⟨path, url, hpath, hurl, horigin, hstands, hquery, ?_⟩
      obtain ⟨value, hvalue, hwell⟩ := hwell (js name) List.mem_cons_self
      obtain rfl := Option.some.inj (hlookup.symm.trans hvalue)
      intro pair hpair
      rw [List.mem_singleton.mp hpair]
      exact hwell
    · refine .inr ⟨herror, fun hall => ?_⟩
      rw [hmem other hother, hlookup] at hvalue
      obtain rfl := Option.some.inj hvalue
      rw [hall (js name, id) List.mem_cons_self] at hill
      cases hill

-- Nothing but a lone surrogate stands between a request and its target.
theorem buildTarget_faithful_iff (authorityUrl : JsString → Option Url) (base : Url)
    {pairs : List (JsString × JsString)} (hpairs : ∀ pair ∈ pairs, isWellFormed pair.1 = true) :
    Faithful base template (parameterValues parameter id) pairs
        (buildTarget authorityUrl base template (parameterValues parameter id) pairs) ↔
      AreWellFormed (parameterValues parameter id) ∧ AreWellFormed pairs := by
  rcases parameterValues_target h hnames hid authorityUrl base pairs with
    ⟨path, url, hpath, hurl, horigin, hstands, hquery, hwell⟩ | ⟨herror, hill⟩
  · have htarget : buildTarget authorityUrl base template (parameterValues parameter id) pairs =
        .ok url := by
      rw [buildTarget, hpath]
      exact hurl
    rw [htarget]
    constructor
    · intro hreaches
      have hparse := hreaches.query
      rw [hquery, formParse_formSerialize_iff] at hparse
      exact ⟨hwell, fun pair hpair => (hparse pair hpair).2⟩
    · rintro ⟨-, hvalues⟩
      refine ⟨horigin, hstands, ?_⟩
      rw [hquery, formParse_formSerialize_iff]
      exact fun pair hpair => ⟨hpairs pair hpair, hvalues pair hpair⟩
  · have htarget : buildTarget authorityUrl base template (parameterValues parameter id) pairs =
        .error uriError := by
      rw [buildTarget, herror]
      rfl
    rw [htarget]
    constructor
    · intro htyped
      cases htyped
    · intro hwell
      exact absurd hwell.1 hill

end Parameter

-- One URL stands for one choice of values.
theorem lookup_eq_of_stands {values values' : PathValues} {segments : List TemplateSegment}
    {parts : List JsString} (h : List.Forall₂ (Stands values) segments parts)
    (h' : List.Forall₂ (Stands values') segments parts) :
    ∀ name ∈ parameterNames segments, values.lookup name = values'.lookup name := by
  induction h with
  | nil => exact nofun
  | @cons segment part segments parts hstands hrest ih =>
    cases h' with
    | cons hstands' hrest' =>
      intro name hname
      cases segment with
      | literal text => exact ih hrest' name hname
      | parameter other =>
        rcases List.mem_cons.mp hname with rfl | hname
        · obtain ⟨value, hvalue, hdecode, -⟩ := hstands
          obtain ⟨value', hvalue', hdecode', -⟩ := hstands'
          rw [hvalue, hvalue', ← hdecode, ← hdecode']
        · exact ih hrest' name hname

end Http
