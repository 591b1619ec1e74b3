import Mathlib.Data.List.DropRight
import TeslatlasSdk.Core.Checks
import TeslatlasSdk.Core.OpaqueValues

/-!
# Values of headers

What `headers.set(name, value)` makes of a value, and what it refuses.
-/

open Text Core

namespace Http

/-- The `TypeError` of `Headers`. -/
def headersError : Thrown := .other 0

def isHttpWhitespace (u : CodeUnit) : Bool := u = 0x09 || u = 0x0A || u = 0x0D || u = 0x20

/-- The value without whitespace at its ends. -/
def normalizeHeaderValue (value : JsString) : JsString :=
  (value.dropWhile isHttpWhitespace).rdropWhile isHttpWhitespace

/-- A string of bytes, which has no NUL and no line end in its middle. -/
def isHeaderValue (value : JsString) : Bool :=
  value.all (· ≤ 0xFF) &&
    (normalizeHeaderValue value).all fun u => u != 0x00 && u != 0x0A && u != 0x0D

/-- What is set for the value. -/
def headerValue (value : JsString) : Except Thrown JsString :=
  if isHeaderValue value then .ok (normalizeHeaderValue value) else .error headersError

theorem mapM_headerValue (value : Option JsString) :
    value.mapM headerValue =
      if value.all isHeaderValue then .ok (value.map normalizeHeaderValue)
      else .error headersError := by
  cases value with
  | none => rfl
  | some value =>
    rw [Option.mapM_some, headerValue]
    show _ = if isHeaderValue value = true then _ else _
    cases isHeaderValue value with
    | true => rfl
    | false => rfl

theorem mapM_headerValue_error {value : Option JsString} {e : Thrown}
    (h : value.mapM headerValue = .error e) :
    e = headersError ∧ value.any (!isHeaderValue ·) = true := by
  rw [mapM_headerValue] at h
  split at h
  · cases h
  · next hvalue =>
    refine ⟨(Except.error.inj h).symm, ?_⟩
    cases value with
    | none => exact absurd rfl hvalue
    | some value => simpa using hvalue

theorem normalizeHeaderValue_sublist (value : JsString) :
    (normalizeHeaderValue value).Sublist value :=
  (List.rdropWhile_prefix isHttpWhitespace _).sublist.trans (List.dropWhile_sublist isHttpWhitespace)

theorem normalizeHeaderValue_eq {value : JsString} {first last : CodeUnit}
    (hfirst : value.head? = some first) (hlast : value.getLast? = some last)
    (hends : isHttpWhitespace first = false ∧ isHttpWhitespace last = false) :
    normalizeHeaderValue value = value := by
  obtain ⟨later, rfl⟩ := List.head?_eq_some_iff.mp hfirst
  have hdrop : (first :: later).dropWhile isHttpWhitespace = first :: later :=
    List.dropWhile_cons_of_neg (by rw [hends.1]; exact Bool.false_ne_true)
  rw [normalizeHeaderValue, hdrop, List.rdropWhile_eq_self_iff]
  intro hne
  have hget := (List.getLast?_eq_some_getLast hne).symm.trans hlast
  rw [Option.some.inj hget, hends.2]
  exact Bool.false_ne_true

theorem ne_of_isControl {value : JsString} (h : containsControlCharacters value = false)
    {u : CodeUnit} (hu : u ∈ value) : u != 0x00 && u != 0x0A && u != 0x0D := by
  rw [containsControlCharacters, List.any_eq_false] at h
  have hcontrol := h u hu
  simp only [Bool.or_eq_true, decide_eq_true_eq, not_or, UInt16.not_le] at hcontrol
  have hlt := UInt16.lt_iff_toNat_lt.mp hcontrol.1
  have hne : ∀ v : CodeUnit, v.toNat ≤ 31 → u ≠ v := by
    rintro v hv rfl
    exact absurd hlt (Nat.not_lt.mpr hv)
  simp only [bne_iff_ne, Bool.and_eq_true, ne_eq]
  exact ⟨⟨hne 0x00 (by decide), hne 0x0A (by decide)⟩, hne 0x0D (by decide)⟩

-- Without control characters, a value only has to be a string of bytes.
theorem isHeaderValue_iff {value : JsString} (h : containsControlCharacters value = false) :
    isHeaderValue value = true ↔ ∀ u ∈ value, u ≤ 0xFF := by
  have hmiddle : ((normalizeHeaderValue value).all
      fun u => u != 0x00 && u != 0x0A && u != 0x0D) = true :=
    List.all_eq_true.mpr fun u hu => ne_of_isControl h ((normalizeHeaderValue_sublist value).mem hu)
  rw [isHeaderValue, hmiddle, Bool.and_true, List.all_eq_true]
  simp only [decide_eq_true_eq]

-- Bytes without control characters and with no space at the ends are set as they are.
theorem headerValue_eq {value : JsString} {first last : CodeUnit}
    (hcontrol : containsControlCharacters value = false) (hbytes : ∀ u ∈ value, u ≤ 0xFF)
    (hfirst : value.head? = some first) (hlast : value.getLast? = some last)
    (hends : isHttpWhitespace first = false ∧ isHttpWhitespace last = false) :
    headerValue value = .ok value := by
  rw [headerValue, if_pos ((isHeaderValue_iff hcontrol).mpr hbytes),
    normalizeHeaderValue_eq hfirst hlast hends]

-- Visible characters, and spaces in their middle, are set as they are.
theorem headerValue_visible {value : JsString} {first last : CodeUnit}
    (hunits : ∀ u ∈ value, 0x1F < u ∧ u < 0x7F)
    (hfirst : value.head? = some first) (hlast : value.getLast? = some last)
    (hends : isHttpWhitespace first = false ∧ isHttpWhitespace last = false) :
    headerValue value = .ok value := by
  have hcontrol : containsControlCharacters value = false := by
    rw [containsControlCharacters, List.any_eq_false]
    intro u hu
    have hbounds := hunits u hu
    simp only [Bool.or_eq_true, decide_eq_true_eq]
    grind
  have hbytes : ∀ u ∈ value, u ≤ 0xFF := by
    intro u hu
    have hbounds := hunits u hu
    grind
  exact headerValue_eq hcontrol hbytes hfirst hlast hends

theorem isHttpWhitespace_visible {u : CodeUnit} (h : 0x20 < u) : isHttpWhitespace u = false := by
  simp only [isHttpWhitespace, Bool.or_eq_false_iff, decide_eq_false_iff_not]
  grind

/-! ## Tags and keys -/

theorem isStrongEntityTag_ends {value : JsString} (h : isStrongEntityTag value = true) :
    containsControlCharacters value = false ∧ value.head? = some 0x22 ∧
      value.getLast? = some 0x22 := by
  simp only [isStrongEntityTag, Bool.and_eq_true, Bool.not_eq_true', decide_eq_true_eq] at h
  exact ⟨h.1.1.1.1, h.1.1.2, h.1.2⟩

theorem asStrongEntityTag_ok {value tag : JsString} (h : asStrongEntityTag value = .ok tag) :
    tag = value ∧ isStrongEntityTag value = true := by
  unfold asStrongEntityTag at h
  split at h
  · cases h
  · next hvalid =>
    simp only [Bool.or_eq_true, Bool.not_eq_true', not_or, Bool.not_eq_false] at hvalid
    exact ⟨(Except.ok.inj h).symm, hvalid.2⟩

-- An accepted tag is set as it is, unless it is no string of bytes.
theorem headerValue_strongEntityTag {value tag : JsString} (h : asStrongEntityTag value = .ok tag) :
    headerValue tag = if tag.all (· ≤ 0xFF) then .ok tag else .error headersError := by
  obtain ⟨rfl, hstrong⟩ := asStrongEntityTag_ok h
  obtain ⟨hcontrol, hfirst, hlast⟩ := isStrongEntityTag_ends hstrong
  have hvalue : isHeaderValue tag = tag.all (· ≤ 0xFF) := by
    rw [Bool.eq_iff_iff, isHeaderValue_iff hcontrol, List.all_eq_true]
    simp only [decide_eq_true_eq]
  rw [headerValue, normalizeHeaderValue_eq hfirst hlast ⟨by decide, by decide⟩, hvalue]

theorem asIdempotencyKey_ok {value key : JsString} (h : asIdempotencyKey value = .ok key) :
    key = value ∧ value.length = 36 ∧ ∀ u ∈ value, u = 0x2D ∨ isHexUnit u = true := by
  unfold asIdempotencyKey at h
  simp only at h
  split at h
  · next hsyntax =>
    simp only [Bool.and_eq_true, decide_eq_true_eq, List.all_eq_true] at hsyntax
    refine ⟨(Except.ok.inj h).symm, hsyntax.1, fun u hu => ?_⟩
    obtain ⟨k, hk, rfl⟩ := List.mem_iff_getElem.mp hu
    have hunit := hsyntax.2 (value[k], k) (List.mk_mem_zipIdx_iff_getElem?.mpr (by simp [hk]))
    simp only at hunit
    split at hunit
    · exact .inl (of_decide_eq_true hunit)
    · exact .inr hunit
  · cases h

theorem isHexUnit_bounds {u : CodeUnit} (h : u = 0x2D ∨ isHexUnit u = true) :
    0x20 < u ∧ u < 0x7F := by
  rcases h with rfl | h
  · decide
  · simp only [isHexUnit, isDigit, Bool.or_eq_true, Bool.and_eq_true, decide_eq_true_eq] at h
    grind

-- An accepted key is set as it is.
theorem headerValue_idempotencyKey {value key : JsString} (h : asIdempotencyKey value = .ok key) :
    headerValue key = .ok key := by
  obtain ⟨rfl, hlength, hunits⟩ := asIdempotencyKey_ok h
  have hbounds : ∀ u ∈ key, 0x20 < u ∧ u < 0x7F := fun u hu => isHexUnit_bounds (hunits u hu)
  have hunits : ∀ u ∈ key, 0x1F < u ∧ u < 0x7F := by
    intro u hu
    have hbounds := hbounds u hu
    grind
  have hplain : ∀ u ∈ key, isHttpWhitespace u = false :=
    fun u hu => isHttpWhitespace_visible (hbounds u hu).1
  have hne : key ≠ [] := by
    rintro rfl
    cases hlength
  exact headerValue_visible hunits (List.head?_eq_some_head hne)
    (List.getLast?_eq_some_getLast hne)
    ⟨hplain _ (List.head_mem hne), hplain _ (List.getLast_mem hne)⟩

end Http
