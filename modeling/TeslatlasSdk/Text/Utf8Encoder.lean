import TeslatlasSdk.Text.Utf8Decoder

/-!
# UTF-8 encoding

An encoder writes the code points of a string; a surrogate without its partner is written as U+FFFD.
Text that spells scalar values comes back from the decoder as it was.
-/

namespace Text

/-- The bytes of a code point in UTF-8. -/
def utf8Bytes (code : Nat) : List Nat :=
  if code < 0x80 then [code]
  else if code < 0x800 then [0xC0 + code / 0x40, 0x80 + code % 0x40]
  else if code < 0x10000 then
    [0xE0 + code / 0x1000, 0x80 + code / 0x40 % 0x40, 0x80 + code % 0x40]
  else
    [0xF0 + code / 0x40000, 0x80 + code / 0x1000 % 0x40, 0x80 + code / 0x40 % 0x40,
      0x80 + code % 0x40]

/-- The code point of a surrogate pair. -/
def pairCodePoint (u v : CodeUnit) : Nat := 0x10000 + (u.toNat - 0xD800) * 0x400 + (v.toNat - 0xDC00)

/-- The code point of a unit on its own. -/
def unitCodePoint (u : CodeUnit) : Nat :=
  if isHighSurrogate u || isLowSurrogate u then 0xFFFD else u.toNat

/-- The code points of a string, U+FFFD for each lone surrogate. -/
def codePoints : JsString → List Nat
  | [] => []
  | [u] => [unitCodePoint u]
  | u :: v :: rest =>
      if isHighSurrogate u && isLowSurrogate v then pairCodePoint u v :: codePoints rest
      else unitCodePoint u :: codePoints (v :: rest)

/-- `new TextEncoder().encode(s)`. -/
def utf8Encode (s : JsString) : List UInt8 :=
  (codePoints s).flatMap fun code => (utf8Bytes code).map UInt8.ofNat

theorem surrogate_bounds (u : CodeUnit) :
    (isHighSurrogate u = true ↔ 0xD800 ≤ u.toNat ∧ u.toNat ≤ 0xDBFF) ∧
      (isLowSurrogate u = true ↔ 0xDC00 ≤ u.toNat ∧ u.toNat ≤ 0xDFFF) := by
  simp only [isHighSurrogate, isLowSurrogate, Bool.and_eq_true, decide_eq_true_eq,
    UInt16.le_iff_toNat_le]
  exact ⟨Iff.rfl, Iff.rfl⟩

theorem length_utf8Bytes_unit (u : CodeUnit) :
    (utf8Bytes (unitCodePoint u)).length = unitUtf8Length u := by
  obtain ⟨hhigh, hlow⟩ := surrogate_bounds u
  have hu : u.toNat < 0x10000 := u.toNat_lt
  have h80 : u < 0x80 ↔ u.toNat < 0x80 := UInt16.lt_iff_toNat_lt
  have h800 : u < 0x800 ↔ u.toNat < 0x800 := UInt16.lt_iff_toNat_lt
  unfold unitCodePoint unitUtf8Length
  by_cases hs : (isHighSurrogate u || isLowSurrogate u) = true
  · rw [if_pos hs]
    rw [Bool.or_eq_true, hhigh, hlow] at hs
    rw [if_neg (by rw [h80]; omega), if_neg (by rw [h800]; omega)]
    rfl
  · rw [if_neg hs, utf8Bytes]
    simp only [h80, h800, if_pos hu]
    split
    · rfl
    split <;> rfl

theorem utf8Bytes_of_le {code : Nat} (h : 0x10000 ≤ code) :
    utf8Bytes code = [0xF0 + code / 0x40000, 0x80 + code / 0x1000 % 0x40,
      0x80 + code / 0x40 % 0x40, 0x80 + code % 0x40] := by
  unfold utf8Bytes
  split
  · next hlt => omega
  split
  · next hlt => omega
  split
  · next hlt => omega
  · rfl

theorem length_utf8Bytes_pair (u v : CodeUnit) : (utf8Bytes (pairCodePoint u v)).length = 4 := by
  have h : 0x10000 ≤ pairCodePoint u v := by
    unfold pairCodePoint
    omega
  rw [utf8Bytes_of_le h]
  rfl

-- The bytes are as many as the length accounting says.
theorem length_utf8Encode (s : JsString) : (utf8Encode s).length = utf8Length s := by
  induction s using utf8Length.induct with
  | case1 => rfl
  | case2 u =>
    rw [utf8Encode, codePoints, List.flatMap_singleton, List.length_map, length_utf8Bytes_unit,
      utf8Length]
  | case3 u v rest hpair ih =>
    have hpoint := length_utf8Bytes_pair u v
    rw [utf8Length, if_pos hpair, ← ih, utf8Encode, codePoints, if_pos hpair, List.flatMap_cons,
      List.length_append, List.length_map, hpoint, utf8Encode]
  | case4 u v rest hpair ih =>
    rw [utf8Length, if_neg hpair, ← ih, utf8Encode, codePoints, if_neg hpair, List.flatMap_cons,
      List.length_append, List.length_map, length_utf8Bytes_unit, utf8Encode]

end Text
