import TeslatlasSdk.Json.Parser

/-!
# Writing strings as JSON
-/

open Text

namespace Json

/-- A hexadecimal digit in lower case. -/
def hexUnitOf (n : Nat) : CodeUnit := UInt16.ofNat (if n < 10 then 0x30 + n else 0x57 + n)

def unicodeEscape (u : CodeUnit) : JsString :=
  [backslash, 0x75, hexUnitOf (u.toNat / 0x1000), hexUnitOf (u.toNat / 0x100 % 0x10),
    hexUnitOf (u.toNat / 0x10 % 0x10), hexUnitOf (u.toNat % 0x10)]

/-- A unit that is not part of a surrogate pair. -/
def quoteUnit (u : CodeUnit) : JsString :=
  if u = 0x08 then [backslash, 0x62]
  else if u = 0x09 then [backslash, 0x74]
  else if u = 0x0A then [backslash, 0x6E]
  else if u = 0x0C then [backslash, 0x66]
  else if u = 0x0D then [backslash, 0x72]
  else if u = quote ∨ u = backslash then [backslash, u]
  else if u < 0x20 ∨ isHighSurrogate u ∨ isLowSurrogate u then unicodeEscape u
  else [u]

def quoteUnits : JsString → JsString
  | [] => []
  | [u] => quoteUnit u
  | u :: v :: s =>
      if isHighSurrogate u && isLowSurrogate v then u :: v :: quoteUnits s
      else quoteUnit u ++ quoteUnits (v :: s)

/-- `JSON.stringify` of a string. -/
def stringify (s : JsString) : JsString := quote :: quoteUnits s ++ [quote]

/-- Units that stand for themselves in a string literal. -/
def isPlain (u : CodeUnit) : Bool := 0x20 ≤ u && u < 0x80 && u != quote && u != backslash

theorem quoteUnit_plain {u : CodeUnit} (h : isPlain u = true) : quoteUnit u = [u] := by
  simp only [isPlain, Bool.and_eq_true, decide_eq_true_eq, bne_iff_ne] at h
  obtain ⟨⟨⟨hlo, hhi⟩, hq⟩, hb⟩ := h
  rw [UInt16.le_iff_toNat_le] at hlo
  rw [UInt16.lt_iff_toNat_lt] at hhi
  have hne : ∀ v : CodeUnit, v.toNat < 0x20 → u ≠ v := by
    rintro v hv rfl
    exact absurd hv (Nat.not_lt.mpr hlo)
  have hsurrogate : ¬ (u < 0x20 ∨ isHighSurrogate u = true ∨ isLowSurrogate u = true) := by
    simp only [isHighSurrogate, isLowSurrogate, Bool.and_eq_true, decide_eq_true_eq,
      UInt16.lt_iff_toNat_lt, UInt16.le_iff_toNat_le]
    simp at hlo hhi ⊢
    omega
  unfold quoteUnit
  rw [if_neg (hne _ (by decide)), if_neg (hne _ (by decide)), if_neg (hne _ (by decide)),
    if_neg (hne _ (by decide)), if_neg (hne _ (by decide)), if_neg (not_or.mpr ⟨hq, hb⟩),
    if_neg hsurrogate]

theorem not_isHighSurrogate_plain {u : CodeUnit} (h : isPlain u = true) :
    isHighSurrogate u = false := by
  simp only [isPlain, Bool.and_eq_true, decide_eq_true_eq] at h
  have hhi := h.1.1.2
  rw [UInt16.lt_iff_toNat_lt] at hhi
  simp only [isHighSurrogate, Bool.and_eq_false_iff, decide_eq_false_iff_not,
    UInt16.le_iff_toNat_le]
  simp at hhi ⊢
  omega

-- Plain text is written as it is.
theorem stringify_plain {s : JsString} (h : ∀ u ∈ s, isPlain u = true) :
    stringify s = quote :: s ++ [quote] := by
  have hunits : quoteUnits s = s := by
    fun_induction quoteUnits s with
    | case1 => rfl
    | case2 u => exact quoteUnit_plain (h u List.mem_cons_self)
    | case3 u v s hp ih =>
      rw [not_isHighSurrogate_plain (h u List.mem_cons_self)] at hp
      simp at hp
    | case4 u v s hp ih =>
      rw [quoteUnit_plain (h u List.mem_cons_self), ih fun w hw => h w (List.mem_cons_of_mem u hw)]
      rfl
  rw [stringify, hunits]

-- Plain text between quotes is read as it is.
theorem lexString_stringify_plain {s : JsString} (h : ∀ u ∈ s, isPlain u = true)
    (later : JsString) : lexString (s ++ quote :: later) = some (s, later) := by
  induction s with
  | nil => exact lexString_quote later
  | cons u s ih =>
    have hu := h u List.mem_cons_self
    simp only [isPlain, Bool.and_eq_true, decide_eq_true_eq, bne_iff_ne] at hu
    obtain ⟨⟨⟨hlo, -⟩, hq⟩, hb⟩ := hu
    have hc : ¬ u < 0x20 := by
      rw [UInt16.le_iff_toNat_le] at hlo
      rw [UInt16.lt_iff_toNat_lt]
      exact Nat.not_lt.mpr hlo
    rw [List.cons_append, lexString_plain hq hb hc,
      ih fun w hw => h w (List.mem_cons_of_mem u hw)]
    rfl

end Json
