import TeslatlasSdk.Text.PercentEncoding
import Mathlib.Data.List.DropRight

/-!
# URLs

A URL of a web scheme, and what becomes of it when a reference that begins with a slash is resolved
against it: the path is split and freed of dot segments, and what may not stand in a URL is encoded.
-/

namespace Text

/-- An `http:` or `https:` URL without a user name. -/
structure Url where
  scheme : JsString
  host : JsString
  port : Option Nat
  path : List JsString
  query : Option JsString
  fragment : Option JsString
  deriving DecidableEq, Repr

def Url.origin (url : Url) : JsString × JsString × Option Nat := (url.scheme, url.host, url.port)

/-! ## Paths -/

def singleDots : List JsString := [js ".", js "%2e", js "%2E"]

def doubleDots : List JsString :=
  [js "..", js ".%2e", js ".%2E", js "%2e.", js "%2E.", js "%2e%2e", js "%2e%2E", js "%2E%2e",
    js "%2E%2E"]

def isDotSegment (segment : JsString) : Bool :=
  singleDots.contains segment || doubleDots.contains segment

/-- A backslash counts as a slash. -/
def isSlash (u : CodeUnit) : Bool := u = 0x2F || u = 0x5C

/-- A path with one more segment; a dot segment at the end leaves an empty one. -/
def addSegment (path : List JsString) (segment : JsString) (isLast : Bool) : List JsString :=
  if doubleDots.contains segment then path.dropLast ++ if isLast then [[]] else []
  else if singleDots.contains segment then path ++ if isLast then [[]] else []
  else path ++ [segment]

def addSegments (path : List JsString) : List JsString → List JsString
  | [] => path
  | [segment] => addSegment path segment true
  | segment :: next :: segments => addSegments (addSegment path segment false) (next :: segments)

/-! ## References -/

/-- A string with the code points percent-encoded that are not safe. -/
def encodeOutside (safe : Nat → Bool) (s : JsString) : JsString :=
  (codePoints s).flatMap fun code => if safe code then [UInt16.ofNat code] else percentEncode code

def isVisible (code : Nat) : Bool := 0x20 < code && code < 0x7F

def isPathCode (code : Nat) : Bool :=
  isVisible code && !([0x22, 0x23, 0x3C, 0x3E, 0x3F, 0x5E, 0x60, 0x7B, 0x7D].contains code)

def isQueryCode (code : Nat) : Bool :=
  isVisible code && !([0x22, 0x23, 0x27, 0x3C, 0x3E].contains code)

def isFragmentCode (code : Nat) : Bool :=
  isVisible code && !([0x22, 0x3C, 0x3E, 0x60].contains code)

/-- A string up to a unit, and what follows the unit if it is there. -/
def cutAt (unit : CodeUnit) (s : JsString) : JsString × Option JsString :=
  (s.takeWhile (· ≠ unit), ((s.dropWhile (· ≠ unit)).tail?))

/-- What the parser looks at: no white space or control around it, no tab and line break in it. -/
def urlInput (s : JsString) : JsString :=
  ((s.dropWhile (· ≤ 0x20)).rdropWhile (· ≤ 0x20)).filter fun u => u ≠ 0x09 && u ≠ 0x0A && u ≠ 0x0D

/-- `new URL(reference, base)` for a reference that begins with one slash. -/
def Url.resolve (base : Url) (reference : JsString) : Url :=
  let (rest, fragment) := cutAt 0x23 (urlInput reference)
  let (path, query) := cutAt 0x3F rest
  { base with
    path := addSegments [] (((path.drop 1).splitOnP isSlash).map (encodeOutside isPathCode))
    query := query.map (encodeOutside isQueryCode)
    fragment := fragment.map (encodeOutside isFragmentCode) }

/-- The path of a URL. -/
def joinSegments (segments : List JsString) : JsString := segments.flatMap (0x2F :: ·)

/-! ## What is resolved as it stands -/

theorem codePoints_ascii {s : JsString} (h : ∀ u ∈ s, u.toNat < 0x80) :
    codePoints s = s.map UInt16.toNat := by
  induction s with
  | nil => rfl
  | cons u s ih =>
    have hu := h u List.mem_cons_self
    obtain ⟨hhigh, hlow⟩ := surrogate_bounds u
    have hsurrogate : isHighSurrogate u = false ∧ isLowSurrogate u = false := by
      rw [Bool.eq_false_iff, ne_eq, hhigh, Bool.eq_false_iff, ne_eq, hlow]
      omega
    rw [codePoints_cons hsurrogate.1, unitCodePoint, hsurrogate.1, hsurrogate.2, Bool.or_self,
      if_neg Bool.false_ne_true, ih fun v hv => h v (List.mem_cons_of_mem u hv), List.map_cons]

theorem encodeOutside_of_safe {safe : Nat → Bool} {s : JsString}
    (h : ∀ u ∈ s, u.toNat < 0x80 ∧ safe u.toNat = true) : encodeOutside safe s = s := by
  rw [encodeOutside, codePoints_ascii fun u hu => (h u hu).1, List.flatMap_map]
  have hunit : ∀ u ∈ s, (if safe u.toNat then [UInt16.ofNat u.toNat] else percentEncode u.toNat) =
      [u] := by
    intro u hu
    rw [if_pos (h u hu).2, UInt16.ofNat_toNat]
  rw [List.flatMap_congr hunit, List.flatMap_singleton']

theorem urlInput_of_visible {s : JsString} (h : ∀ u ∈ s, 0x20 < u.toNat) : urlInput s = s := by
  have hvisible : ∀ u ∈ s, ¬ (u ≤ 0x20) := by
    intro u hu hle
    have := h u hu
    have hle' : u.toNat ≤ 0x20 := UInt16.le_iff_toNat_le.mp hle
    omega
  have hdrop : s.dropWhile (fun u => decide (u ≤ 0x20)) = s := by
    rw [List.dropWhile_eq_self_iff]
    intro hs
    simpa using hvisible s[0] (List.getElem_mem hs)
  have hrdrop : s.rdropWhile (fun u => decide (u ≤ 0x20)) = s := by
    rw [List.rdropWhile_eq_self_iff]
    intro hs
    simpa using hvisible _ (List.getLast_mem hs)
  rw [urlInput, hdrop, hrdrop, List.filter_eq_self]
  intro u hu
  have hne : ∀ v : CodeUnit, v.toNat ≤ 0x20 → u ≠ v := by
    rintro v hv rfl
    have := h u hu
    omega
  simp only [ne_eq, hne 0x09 (by decide), hne 0x0A (by decide), hne 0x0D (by decide)]
  rfl

theorem cutAt_of_not_mem {unit : CodeUnit} {s : JsString} (h : unit ∉ s) :
    cutAt unit s = (s, none) := by
  have hne : ∀ u ∈ s, (decide (u ≠ unit)) = true := by
    intro u hu
    exact decide_eq_true fun heq => h (heq ▸ hu)
  have htake := @List.takeWhile_append_of_pos _ _ _ [] hne
  have hdrop := @List.dropWhile_append_of_pos _ _ _ [] hne
  rw [List.append_nil, List.takeWhile_nil, List.append_nil] at htake
  rw [List.append_nil, List.dropWhile_nil] at hdrop
  rw [cutAt, htake, hdrop]
  rfl

theorem cutAt_append {unit : CodeUnit} {s : JsString} (h : unit ∉ s) (t : JsString) :
    cutAt unit (s ++ unit :: t) = (s, some t) := by
  have hne : ∀ u ∈ s, (decide (u ≠ unit)) = true := by
    intro u hu
    exact decide_eq_true fun heq => h (heq ▸ hu)
  rw [cutAt, List.takeWhile_append_of_pos hne, List.dropWhile_append_of_pos hne]
  simp

theorem splitOnP_joinSegments (segment : JsString) (segments : List JsString)
    (h : ∀ s ∈ segment :: segments, ∀ u ∈ s, isSlash u = false) :
    (segment ++ joinSegments segments).splitOnP isSlash = segment :: segments := by
  induction segments generalizing segment with
  | nil =>
    rw [joinSegments, List.flatMap_nil, List.append_nil]
    exact List.splitOnP_eq_singleton (h segment List.mem_cons_self)
  | cons next segments ih =>
    have hjoin : joinSegments (next :: segments) = 0x2F :: (next ++ joinSegments segments) := rfl
    rw [hjoin, List.splitOnP_append_cons_of_forall_mem (h segment List.mem_cons_self) 0x2F rfl,
      ih next fun s hs => h s (List.mem_cons_of_mem _ hs)]

theorem addSegments_of_not_dot {segments : List JsString}
    (h : ∀ s ∈ segments, isDotSegment s = false) (path : List JsString) :
    addSegments path segments = path ++ segments := by
  have hone : ∀ path segment isLast, isDotSegment segment = false →
      addSegment path segment isLast = path ++ [segment] := by
    intro path segment isLast hdot
    obtain ⟨hsingle, hdouble⟩ := Bool.or_eq_false_iff.mp hdot
    rw [addSegment, hdouble, if_neg Bool.false_ne_true, hsingle, if_neg Bool.false_ne_true]
  fun_induction addSegments path segments with
  | case1 path => rw [List.append_nil]
  | case2 path segment => exact hone _ _ _ (h segment List.mem_cons_self)
  | case3 path segment next segments ih =>
    rw [ih fun s hs => h s (List.mem_cons_of_mem _ hs), hone _ _ _ (h segment List.mem_cons_self),
      List.append_assoc, List.singleton_append]

/-- Units that stand for themselves in a path: those of `encodeURIComponent`. -/
def isSegmentUnit (u : CodeUnit) : Bool := isUriUnreserved u || u = 0x25

theorem isSegmentUnit_spec {u : CodeUnit} (h : isSegmentUnit u = true) :
    u.toNat < 0x80 ∧ isPathCode u.toNat = true ∧ isSlash u = false ∧ u ≠ 0x23 ∧ u ≠ 0x3F := by
  have hlt : u.toNat < 0x80 := by
    rw [isSegmentUnit, Bool.or_eq_true, decide_eq_true_eq] at h
    rcases h with h | rfl
    · exact isUriUnreserved_lt h
    · decide
  have hall : ∀ n, n < 0x80 → isSegmentUnit (UInt16.ofNat n) = true →
      isPathCode n = true ∧ isSlash (UInt16.ofNat n) = false ∧ UInt16.ofNat n ≠ 0x23 ∧
        UInt16.ofNat n ≠ 0x3F := by
    decide
  have hu := hall u.toNat hlt
  rw [UInt16.ofNat_toNat] at hu
  exact ⟨hlt, hu h⟩

/-- A reference of segments and a query, if there is one. -/
def reference (segments : List JsString) (query : Option JsString) : JsString :=
  joinSegments segments ++ query.elim [] (0x3F :: ·)

theorem mem_joinSegments {segments : List JsString} {u : CodeUnit}
    (h : u ∈ joinSegments segments) : u = 0x2F ∨ ∃ s ∈ segments, u ∈ s := by
  obtain ⟨s, hs, hu⟩ := List.mem_flatMap.mp h
  rcases List.mem_cons.mp hu with hu | hu
  · exact .inl hu
  · exact .inr ⟨s, hs, hu⟩

theorem isQueryCode_spec {u : CodeUnit} (h : isQueryCode u.toNat = true) :
    0x20 < u.toNat ∧ u ≠ 0x23 := by
  rw [isQueryCode, Bool.and_eq_true, isVisible, Bool.and_eq_true, decide_eq_true_eq] at h
  refine ⟨h.1.1, ?_⟩
  rintro rfl
  exact absurd h.2 (by decide)

theorem isPathCode_visible {u : CodeUnit} (h : isPathCode u.toNat = true) : 0x20 < u.toNat := by
  rw [isPathCode, Bool.and_eq_true, isVisible, Bool.and_eq_true, decide_eq_true_eq] at h
  exact h.1.1

-- Segments and a query that need no encoding come through the resolution as they are.
theorem Url.resolve_reference (base : Url) {segments : List JsString} {query : Option JsString}
    (hne : segments ≠ []) (hunits : ∀ s ∈ segments, ∀ u ∈ s, isSegmentUnit u = true)
    (hdots : ∀ s ∈ segments, isDotSegment s = false)
    (hquery : ∀ q ∈ query, ∀ u ∈ q, u.toNat < 0x80 ∧ isQueryCode u.toNat = true) :
    base.resolve (reference segments query) =
      { base with path := segments, query, fragment := none } := by
  have hpath : ∀ u ∈ joinSegments segments, 0x20 < u.toNat ∧ u ≠ 0x23 ∧ u ≠ 0x3F := by
    intro u hu
    rcases mem_joinSegments hu with rfl | ⟨s, hs, hu⟩
    · decide
    · obtain ⟨-, hcode, -, hhash, hmark⟩ := isSegmentUnit_spec (hunits s hs u hu)
      exact ⟨isPathCode_visible hcode, hhash, hmark⟩
  have hrest : ∀ u ∈ reference segments query, 0x20 < u.toNat ∧ u ≠ 0x23 := by
    intro u hu
    rcases List.mem_append.mp hu with hu | hu
    · exact ⟨(hpath u hu).1, (hpath u hu).2.1⟩
    · cases query with
      | none => cases hu
      | some q =>
        rcases List.mem_cons.mp hu with rfl | hu
        · decide
        · exact isQueryCode_spec (hquery q rfl u hu).2
  have hfragment : cutAt 0x23 (reference segments query) = (reference segments query, none) :=
    cutAt_of_not_mem fun hmem => (hrest _ hmem).2 rfl
  have hmark : (0x3F : CodeUnit) ∉ joinSegments segments := fun hmem => (hpath _ hmem).2.2 rfl
  have hcut : cutAt 0x3F (reference segments query) = (joinSegments segments, query) := by
    cases query with
    | none =>
      rw [reference, Option.elim_none, List.append_nil]
      exact cutAt_of_not_mem hmark
    | some q => exact cutAt_append hmark q
  have hsplit : ((joinSegments segments).drop 1).splitOnP isSlash = segments := by
    obtain ⟨first, others, rfl⟩ := List.exists_cons_of_ne_nil hne
    exact splitOnP_joinSegments first others fun s hs u hu =>
      (isSegmentUnit_spec (hunits s hs u hu)).2.2.1
  have hsegments : segments.map (encodeOutside isPathCode) = segments := by
    refine (List.map_congr_left fun s hs => ?_).trans (List.map_id segments)
    refine encodeOutside_of_safe fun u hu => ?_
    obtain ⟨hlt, hcode, -⟩ := isSegmentUnit_spec (hunits s hs u hu)
    exact ⟨hlt, hcode⟩
  have hencoded : query.map (encodeOutside isQueryCode) = query := by
    cases query with
    | none => rfl
    | some q => exact congrArg some (encodeOutside_of_safe (hquery q rfl))
  simp only [Url.resolve, urlInput_of_visible fun u hu => (hrest u hu).1, hfragment, hcut, hsplit,
    hsegments, addSegments_of_not_dot hdots, hencoded, List.nil_append, Option.map_none]

/-! ## Encoded parts -/

theorem mem_encodeURIComponent {s t : JsString} (h : encodeURIComponent s = some t) :
    ∀ u ∈ t, isSegmentUnit u = true := by
  have hhex : ∀ n, n < 0x10 → isSegmentUnit (upperHexUnit n) = true := by decide
  rw [encodeURIComponent_eq] at h
  split at h
  · obtain rfl := Option.some.inj h
    intro u hu
    obtain ⟨byte, -, hu⟩ := List.mem_flatMap.mp hu
    have hbyte : byte.toNat < 0x100 := byte.toNat_lt
    rw [uriByte] at hu
    split at hu
    · next hunreserved =>
      rw [List.mem_singleton.mp hu, isSegmentUnit, hunreserved]
      rfl
    · rw [percentByte] at hu
      simp only [List.mem_cons, List.not_mem_nil, or_false] at hu
      rcases hu with rfl | rfl | rfl
      · rfl
      · exact hhex _ (by omega)
      · exact hhex _ (by omega)
  · cases h

theorem decodeComponent_of_isDotSegment {s : JsString} (h : isDotSegment s = true) :
    (decodeComponent s).length ≤ 2 := by
  have hall : (singleDots ++ doubleDots).all (fun s => (decodeComponent s).length ≤ 2) = true := by
    decide
  rw [isDotSegment, Bool.or_eq_true] at h
  refine of_decide_eq_true (List.all_eq_true.mp hall s (List.mem_append.mpr ?_))
  exact h.imp List.contains_iff_mem.mp List.contains_iff_mem.mp

-- Only one or two dots are encoded as a dot segment.
theorem isDotSegment_encodeURIComponent {s t : JsString} (h : encodeURIComponent s = some t)
    (hlength : 3 ≤ s.length) : isDotSegment t = false := by
  rw [Bool.eq_false_iff]
  intro hdot
  have hshort := decodeComponent_of_isDotSegment hdot
  rw [decodeComponent_encodeURIComponent h] at hshort
  omega

theorem isQueryCode_formByte {byte : UInt8} {u : CodeUnit} (h : u ∈ formByte byte) :
    isQueryCode u.toNat = true := by
  have hbyte : byte.toNat < 0x100 := byte.toNat_lt
  have hhex : ∀ n, n < 0x10 → isQueryCode (upperHexUnit n).toNat = true := by decide
  have hunreserved : ∀ n, n < 0x80 → isFormUnreserved n = true → isQueryCode n = true := by decide
  rw [formByte] at h
  split at h
  · rw [List.mem_singleton.mp h]
    rfl
  split at h
  · next hform =>
    rw [List.mem_singleton.mp h, toNat_ofNat_byte]
    exact hunreserved _ (isFormUnreserved_lt hform).1 hform
  · rw [percentByte] at h
    simp only [List.mem_cons, List.not_mem_nil, or_false] at h
    rcases h with rfl | rfl | rfl
    · rfl
    · exact hhex _ (by omega)
    · exact hhex _ (by omega)

theorem isQueryCode_formEncode {s : JsString} {u : CodeUnit} (h : u ∈ formEncode s) :
    u.toNat < 0x80 ∧ isQueryCode u.toNat = true := by
  obtain ⟨byte, -, hu⟩ := List.mem_flatMap.mp h
  exact ⟨(mem_formByte hu).1, isQueryCode_formByte hu⟩

theorem isQueryCode_formSerialize (pairs : List (JsString × JsString)) :
    ∀ u ∈ formSerialize pairs, u.toNat < 0x80 ∧ isQueryCode u.toNat = true := by
  intro u hu
  fun_induction formSerialize pairs with
  | case1 => cases hu
  | case2 name value =>
    rcases List.mem_append.mp hu with hu | hu
    · exact isQueryCode_formEncode hu
    · rcases List.mem_cons.mp hu with rfl | hu
      · decide
      · exact isQueryCode_formEncode hu
  | case3 name value pairs hne ih =>
    rcases List.mem_append.mp hu with hu | hu
    · exact isQueryCode_formEncode hu
    rcases List.mem_cons.mp hu with rfl | hu
    · decide
    rcases List.mem_append.mp hu with hu | hu
    · exact isQueryCode_formEncode hu
    rcases List.mem_cons.mp hu with rfl | hu
    · decide
    · exact ih hu

end Text
