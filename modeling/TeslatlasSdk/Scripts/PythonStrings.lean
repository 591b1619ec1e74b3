import TeslatlasSdk.Json.Write
import TeslatlasSdk.Text.Utf8Encoder
import Mathlib.Data.List.Lex
import Mathlib.Data.Nat.Bitwise

/-!
# Strings as Python has them

The provenance checker orders names and writes strings as a checker in Python does: by code points,
and in ASCII alone.
-/

open Text Json

namespace Scripts

/-- `Array.from(s, (character) => character.codePointAt(0))`: a surrogate without its partner counts
as a code point of its own. -/
def characterPoints : JsString → List Nat
  | [] => []
  | [u] => [u.toNat]
  | u :: v :: rest =>
      if isHighSurrogate u && isLowSurrogate v then pairCodePoint u v :: characterPoints rest
      else u.toNat :: characterPoints (v :: rest)

/-- The loop over the shared indices, and what is left where one list ends. -/
def comparePoints : List Nat → List Nat → Int
  | left :: leftPoints, right :: rightPoints =>
      if left ≠ right then (left : Int) - right else comparePoints leftPoints rightPoints
  | leftPoints, rightPoints => (leftPoints.length : Int) - rightPoints.length

def comparePythonStrings (left right : JsString) : Int :=
  comparePoints (characterPoints left) (characterPoints right)

/-- `n.toString(16)`. -/
def hexText (n : Nat) : JsString :=
  if n < 0x10 then [hexUnitOf n] else hexText (n / 0x10) ++ [hexUnitOf (n % 0x10)]

/-- `s.padStart(length, "0")`. -/
def padZeros (length : Nat) (s : JsString) : JsString := List.replicate (length - s.length) 0x30 ++ s

def pythonAsciiPoint (point : Nat) : JsString :=
  if point = 0x22 then [backslash, quote]
  else if point = 0x5C then [backslash, backslash]
  else if point = 0x08 then [backslash, 0x62]
  else if point = 0x09 then [backslash, 0x74]
  else if point = 0x0A then [backslash, 0x6E]
  else if point = 0x0C then [backslash, 0x66]
  else if point = 0x0D then [backslash, 0x72]
  else if 0x20 ≤ point ∧ point ≤ 0x7E then [UInt16.ofNat point]
  else if point ≤ 0xFFFF then [backslash, 0x75] ++ padZeros 4 (hexText point)
  else
    let scalar := point - 0x10000
    let high := 0xD800 + (scalar >>> 10)
    let low := 0xDC00 + (scalar &&& 0x3FF)
    [backslash, 0x75] ++ hexText high ++ [backslash, 0x75] ++ hexText low

def pythonAsciiJsonString (value : JsString) : JsString :=
  quote :: (characterPoints value).flatMap pythonAsciiPoint ++ [quote]

/-! ## Python's own encoder -/

/-- The code points with an escape of their own, and what stands behind the backslash. -/
def pythonEscapes : List (Nat × CodeUnit) :=
  [(0x5C, 0x5C), (0x22, 0x22), (0x08, 0x62), (0x0C, 0x66), (0x0A, 0x6E), (0x0D, 0x72), (0x09, 0x74)]

/-- What `json.dumps` writes for a code point: the printable ones but quote and backslash stand for
themselves, and every other one is escaped, in two halves beyond the first plane. -/
def ensureAsciiPoint (n : Nat) : JsString :=
  if 0x20 ≤ n ∧ n ≤ 0x7E ∧ n ≠ 0x5C ∧ n ≠ 0x22 then [UInt16.ofNat n]
  else
    match pythonEscapes.lookup n with
    | some escape => [backslash, escape]
    | none =>
        if n < 0x10000 then unicodeEscape (UInt16.ofNat n)
        else
          let m := n - 0x10000
          unicodeEscape (UInt16.ofNat (0xD800 ||| ((m >>> 10) &&& 0x3FF))) ++
            unicodeEscape (UInt16.ofNat (0xDC00 ||| (m &&& 0x3FF)))

/-- `json.dumps(s, ensure_ascii=True)` of a Python string, which is a list of code points. -/
def ensureAscii (points : List Nat) : JsString :=
  quote :: points.flatMap ensureAsciiPoint ++ [quote]

/-! ## Order -/

theorem comparePoints_le {left right : List Nat} : comparePoints left right ≤ 0 ↔ left ≤ right := by
  induction left generalizing right with
  | nil =>
    have hle : ([] : List Nat) ≤ right := not_lt.mp (List.not_lt_nil right)
    rw [comparePoints]
    · simp only [hle, iff_true, List.length_nil]
      omega
    · simp
  | cons l left ih =>
    cases right with
    | nil =>
      have hnot : ¬ l :: left ≤ [] := not_le.mpr (List.nil_lt_cons l left)
      rw [comparePoints]
      · simp only [hnot, iff_false, List.length_nil, List.length_cons]
        omega
      · simp
    | cons r right =>
      have hle : l :: left ≤ r :: right ↔ ¬ (r < l ∨ r = l ∧ right < left) := by
        rw [← not_lt, List.cons_lt_cons_iff]
      rw [comparePoints, hle]
      split
      · next hne => omega
      · next heq =>
        rw [not_not] at heq
        rw [ih, heq, ← not_lt]
        simp

theorem comparePythonStrings_le {left right : JsString} :
    comparePythonStrings left right ≤ 0 ↔ characterPoints left ≤ characterPoints right :=
  comparePoints_le

/-- The units of a code point. -/
def pointUnits (point : Nat) : JsString :=
  if point < 0x10000 then [UInt16.ofNat point]
  else [UInt16.ofNat (0xD800 + (point - 0x10000) / 0x400),
    UInt16.ofNat (0xDC00 + (point - 0x10000) % 0x400)]

theorem pointUnits_unit (u : CodeUnit) : pointUnits u.toNat = [u] := by
  rw [pointUnits, if_pos u.toNat_lt, UInt16.ofNat_toNat]

-- The halves of the code point of a surrogate pair.
theorem pair_halves {u v : CodeUnit} (hpair : (isHighSurrogate u && isLowSurrogate v) = true) :
    0x10000 ≤ pairCodePoint u v ∧ 0xD800 + (pairCodePoint u v - 0x10000) / 0x400 = u.toNat ∧
      0xDC00 + (pairCodePoint u v - 0x10000) % 0x400 = v.toNat := by
  rw [Bool.and_eq_true, (surrogate_bounds u).1, (surrogate_bounds v).2] at hpair
  unfold pairCodePoint
  omega

theorem pairCodePoint_lt {u v : CodeUnit}
    (hpair : (isHighSurrogate u && isLowSurrogate v) = true) : pairCodePoint u v < 0x110000 := by
  rw [Bool.and_eq_true, (surrogate_bounds u).1, (surrogate_bounds v).2] at hpair
  unfold pairCodePoint
  omega

-- A string is made of its code points.
theorem flatMap_pointUnits (s : JsString) : (characterPoints s).flatMap pointUnits = s := by
  fun_induction characterPoints s with
  | case1 => rfl
  | case2 u => rw [List.flatMap_singleton, pointUnits_unit]
  | case3 u v rest hpair ih =>
    obtain ⟨hlarge, hhigh, hlow⟩ := pair_halves hpair
    rw [List.flatMap_cons, ih, pointUnits, if_neg (by omega), hhigh, hlow, UInt16.ofNat_toNat,
      UInt16.ofNat_toNat]
    rfl
  | case4 u v rest _ ih =>
    rw [List.flatMap_cons, ih, pointUnits_unit]
    rfl

theorem characterPoints_injective {left right : JsString}
    (h : characterPoints left = characterPoints right) : left = right := by
  rw [← flatMap_pointUnits left, h, flatMap_pointUnits]

/-! ## Escapes -/

theorem hexText_digit {n : Nat} (h : n < 0x10) : hexText n = [hexUnitOf n] := by
  rw [hexText, if_pos h]

theorem hexText_append {n : Nat} (h : 0x10 ≤ n) :
    hexText n = hexText (n / 0x10) ++ [hexUnitOf (n % 0x10)] := by
  rw [hexText, if_neg (by omega)]

theorem hexText_wide {n : Nat} (hlow : 0x1000 ≤ n) (h : n < 0x10000) :
    hexText n = [hexUnitOf (n / 0x1000), hexUnitOf (n / 0x100 % 0x10), hexUnitOf (n / 0x10 % 0x10),
      hexUnitOf (n % 0x10)] := by
  have hdiv : n / 0x10 / 0x10 = n / 0x100 ∧ n / 0x100 / 0x10 = n / 0x1000 := by omega
  rw [hexText_append (by omega), hexText_append (n := n / 0x10) (by omega), hdiv.1,
    hexText_append (n := n / 0x100) (by omega), hdiv.2, hexText_digit (by omega)]
  rfl

-- Padded to four digits, a unit's number is written digit by digit.
theorem padZeros_hexText {n : Nat} (h : n < 0x10000) :
    padZeros 4 (hexText n) =
      [hexUnitOf (n / 0x1000), hexUnitOf (n / 0x100 % 0x10), hexUnitOf (n / 0x10 % 0x10),
        hexUnitOf (n % 0x10)] := by
  by_cases ha : n < 0x10
  · have hzero : n / 0x1000 = 0 ∧ n / 0x100 % 0x10 = 0 ∧ n / 0x10 % 0x10 = 0 ∧ n % 0x10 = n := by
      omega
    rw [hexText_digit ha, hzero.1, hzero.2.1, hzero.2.2.1, hzero.2.2.2]
    rfl
  by_cases hb : n < 0x100
  · have hzero : n / 0x1000 = 0 ∧ n / 0x100 % 0x10 = 0 ∧ n / 0x10 % 0x10 = n / 0x10 := by omega
    rw [hexText_append (by omega), hexText_digit (n := n / 0x10) (by omega), hzero.1, hzero.2.1,
      hzero.2.2]
    rfl
  by_cases hc : n < 0x1000
  · have hzero : n / 0x1000 = 0 ∧ n / 0x100 % 0x10 = n / 0x100 ∧ n / 0x10 / 0x10 = n / 0x100 := by
      omega
    rw [hexText_append (by omega), hexText_append (n := n / 0x10) (by omega), hzero.2.2,
      hexText_digit (n := n / 0x100) (by omega), hzero.1, hzero.2.1]
    rfl
  · rw [hexText_wide (by omega) h]
    rfl

theorem toNat_ofNat {n : Nat} (h : n < 0x10000) : (UInt16.ofNat n).toNat = n := by
  rw [UInt16.toNat_ofNat']
  exact Nat.mod_eq_of_lt h

theorem padded_escape {n : Nat} (h : n < 0x10000) :
    [backslash, 0x75] ++ padZeros 4 (hexText n) = unicodeEscape (UInt16.ofNat n) := by
  rw [padZeros_hexText h, unicodeEscape, toNat_ofNat h]
  rfl

-- Four digits need no padding.
theorem wide_escape {n : Nat} (hlow : 0x1000 ≤ n) (h : n < 0x10000) :
    [backslash, 0x75] ++ hexText n = unicodeEscape (UInt16.ofNat n) := by
  rw [hexText_wide hlow h, unicodeEscape, toNat_ofNat h]
  rfl

theorem halves_of_scalar (m : Nat) : m >>> 10 = m / 0x400 ∧ m &&& 0x3FF = m % 0x400 :=
  ⟨Nat.shiftRight_eq_div_pow m 10, Nat.and_two_pow_sub_one_eq_mod m 10⟩

-- A code point beyond the first plane, in two escapes.
theorem pythonAsciiPoint_large {n : Nat} (hlow : 0x10000 ≤ n) (h : n < 0x110000) :
    pythonAsciiPoint n =
      unicodeEscape (UInt16.ofNat (0xD800 + (n - 0x10000) / 0x400)) ++
        unicodeEscape (UInt16.ofNat (0xDC00 + (n - 0x10000) % 0x400)) := by
  obtain ⟨hhigh, hlow'⟩ := halves_of_scalar (n - 0x10000)
  unfold pythonAsciiPoint
  rw [if_neg (by omega), if_neg (by omega), if_neg (by omega), if_neg (by omega), if_neg (by omega),
    if_neg (by omega), if_neg (by omega), if_neg (by omega), if_neg (by omega)]
  simp only
  rw [hhigh, hlow', List.append_assoc, wide_escape (by omega) (by omega),
    wide_escape (by omega) (by omega)]

-- A surrogate, escaped.
theorem pythonAsciiPoint_surrogate {n : Nat} (hlow : 0xD800 ≤ n) (h : n < 0x10000) :
    pythonAsciiPoint n = unicodeEscape (UInt16.ofNat n) := by
  unfold pythonAsciiPoint
  rw [if_neg (by omega), if_neg (by omega), if_neg (by omega), if_neg (by omega), if_neg (by omega),
    if_neg (by omega), if_neg (by omega), if_neg (by omega), if_pos (by omega), padded_escape h]

-- Unit by unit: the two escapes of a pair are those of its surrogates.
theorem pythonAsciiJsonString_units (s : JsString) :
    (characterPoints s).flatMap pythonAsciiPoint = s.flatMap fun u => pythonAsciiPoint u.toNat := by
  fun_induction characterPoints s with
  | case1 => rfl
  | case2 u => rw [List.flatMap_singleton, List.flatMap_singleton]
  | case3 u v rest hpair ih =>
    obtain ⟨hlarge, hhigh, hlow⟩ := pair_halves hpair
    have hbounds := hpair
    rw [Bool.and_eq_true, (surrogate_bounds u).1, (surrogate_bounds v).2] at hbounds
    rw [List.flatMap_cons, ih, List.flatMap_cons, List.flatMap_cons,
      pythonAsciiPoint_large hlarge (pairCodePoint_lt hpair), hhigh, hlow,
      pythonAsciiPoint_surrogate hbounds.1.1 u.toNat_lt,
      pythonAsciiPoint_surrogate (by omega) v.toNat_lt, List.append_assoc]
  | case4 u v rest _ ih =>
    rw [List.flatMap_cons, ih]
    rfl

/-! ## Python writes the same -/

theorem lookup_pythonEscapes {n : Nat} (h : n ∉ pythonEscapes.map Prod.fst) :
    pythonEscapes.lookup n = none := by
  rw [List.lookup_eq_none_iff]
  intro escape hescape
  rw [bne_iff_ne]
  rintro rfl
  exact h (List.mem_map_of_mem hescape)

theorem or_high {m : Nat} (h : m < 0x400) : 0xD800 ||| m = 0xD800 + m :=
  (Nat.two_pow_add_eq_or_of_lt (i := 10) h 54).symm

theorem or_low {m : Nat} (h : m < 0x400) : 0xDC00 ||| m = 0xDC00 + m :=
  (Nat.two_pow_add_eq_or_of_lt (i := 10) h 55).symm

theorem ensureAsciiPoint_large {n : Nat} (hlow : 0x10000 ≤ n) (h : n < 0x110000) :
    ensureAsciiPoint n = pythonAsciiPoint n := by
  have hnone : pythonEscapes.lookup n = none := by
    refine lookup_pythonEscapes fun hmem => ?_
    have hsmall : ∀ k ∈ pythonEscapes.map Prod.fst, k < 0x10000 := by decide
    exact absurd (hsmall n hmem) (by omega)
  obtain ⟨hhigh, hlow'⟩ := halves_of_scalar (n - 0x10000)
  have hmask : (n - 0x10000) >>> 10 &&& 0x3FF = (n - 0x10000) / 0x400 := by
    rw [(halves_of_scalar _).2, hhigh]
    exact Nat.mod_eq_of_lt (by omega)
  rw [ensureAsciiPoint, if_neg (by omega), hnone, pythonAsciiPoint_large hlow h]
  simp only
  rw [if_neg (by omega), hmask, hlow', or_high (by omega), or_low (by omega)]

theorem ensureAsciiPoint_eq {n : Nat} (h : n < 0x110000) :
    pythonAsciiPoint n = ensureAsciiPoint n := by
  by_cases hlarge : 0x10000 ≤ n
  · exact (ensureAsciiPoint_large hlarge h).symm
  by_cases hescape : n ∈ pythonEscapes.map Prod.fst
  · have hall : ∀ k ∈ pythonEscapes.map Prod.fst, pythonAsciiPoint k = ensureAsciiPoint k := by
      decide
    exact hall n hescape
  have hnone := lookup_pythonEscapes hescape
  simp only [pythonEscapes, List.map_cons, List.map_nil, List.mem_cons, List.not_mem_nil, or_false,
    not_or] at hescape
  obtain ⟨h5c, h22, h08, h0c, h0a, h0d, h09⟩ := hescape
  rw [pythonAsciiPoint, if_neg h22, if_neg h5c, if_neg h08, if_neg h09, if_neg h0a, if_neg h0c,
    if_neg h0d, ensureAsciiPoint, hnone]
  by_cases hplain : 0x20 ≤ n ∧ n ≤ 0x7E
  · rw [if_pos hplain, if_pos ⟨hplain.1, hplain.2, h5c, h22⟩]
  · rw [if_neg hplain, if_pos (by omega), padded_escape (by omega), if_neg (by omega)]
    simp only
    rw [if_pos (by omega)]

theorem characterPoints_lt (s : JsString) : ∀ point ∈ characterPoints s, point < 0x110000 := by
  have hunit : ∀ u : CodeUnit, u.toNat < 0x110000 := fun u => Nat.lt_trans u.toNat_lt (by decide)
  fun_induction characterPoints s with
  | case1 => simp
  | case2 u =>
    intro point hpoint
    rw [List.mem_singleton.mp hpoint]
    exact hunit u
  | case3 u v rest hpair ih =>
    intro point hpoint
    rcases List.mem_cons.mp hpoint with heq | hpoint
    · rw [heq]
      exact pairCodePoint_lt hpair
    · exact ih point hpoint
  | case4 u v rest _ ih =>
    intro point hpoint
    rcases List.mem_cons.mp hpoint with rfl | hpoint
    · exact hunit u
    · exact ih point hpoint

theorem pythonAsciiJsonString_eq (s : JsString) :
    pythonAsciiJsonString s = ensureAscii (characterPoints s) := by
  have hpoints : (characterPoints s).flatMap pythonAsciiPoint =
      (characterPoints s).flatMap ensureAsciiPoint :=
    List.flatMap_congr fun point hpoint => ensureAsciiPoint_eq (characterPoints_lt s point hpoint)
  rw [pythonAsciiJsonString, hpoints, ensureAscii]

/-! ## The string is read back -/

/-- The characters that stand for themselves in ASCII. -/
abbrev IsPrintable (u : CodeUnit) : Prop := 0x20 ≤ u.toNat ∧ u.toNat ≤ 0x7E

-- A unit is escaped by a letter, stands for itself, or is escaped by its number.
theorem pythonAsciiPoint_cases (u : CodeUnit) :
    (∃ e, pythonAsciiPoint u.toNat = [backslash, e] ∧ e ≠ 0x75 ∧ simpleEscape e = some u ∧
      IsPrintable e) ∨
    (pythonAsciiPoint u.toNat = [u] ∧ IsPrintable u ∧ u ≠ quote ∧ u ≠ backslash) ∨
    pythonAsciiPoint u.toNat = unicodeEscape u := by
  have hunit : ∀ v : CodeUnit, u.toNat = v.toNat → u = v := fun v => UInt16.toNat_inj.mp
  have hu : u.toNat < 0x10000 := u.toNat_lt
  rw [pythonAsciiPoint]
  by_cases hquote : u.toNat = 0x22
  · rw [if_pos hquote]
    exact .inl ⟨quote, rfl, by decide, by rw [hunit quote hquote]; rfl, by decide⟩
  rw [if_neg hquote]
  by_cases hbackslash : u.toNat = 0x5C
  · rw [if_pos hbackslash]
    exact .inl ⟨backslash, rfl, by decide, by rw [hunit backslash hbackslash]; rfl, by decide⟩
  rw [if_neg hbackslash]
  by_cases hb : u.toNat = 0x08
  · rw [if_pos hb]
    exact .inl ⟨0x62, rfl, by decide, by rw [hunit 0x08 hb]; rfl, by decide⟩
  rw [if_neg hb]
  by_cases ht : u.toNat = 0x09
  · rw [if_pos ht]
    exact .inl ⟨0x74, rfl, by decide, by rw [hunit 0x09 ht]; rfl, by decide⟩
  rw [if_neg ht]
  by_cases hn : u.toNat = 0x0A
  · rw [if_pos hn]
    exact .inl ⟨0x6E, rfl, by decide, by rw [hunit 0x0A hn]; rfl, by decide⟩
  rw [if_neg hn]
  by_cases hf : u.toNat = 0x0C
  · rw [if_pos hf]
    exact .inl ⟨0x66, rfl, by decide, by rw [hunit 0x0C hf]; rfl, by decide⟩
  rw [if_neg hf]
  by_cases hr : u.toNat = 0x0D
  · rw [if_pos hr]
    exact .inl ⟨0x72, rfl, by decide, by rw [hunit 0x0D hr]; rfl, by decide⟩
  rw [if_neg hr]
  by_cases hplain : 0x20 ≤ u.toNat ∧ u.toNat ≤ 0x7E
  · rw [if_pos hplain, UInt16.ofNat_toNat]
    refine .inr (.inl ⟨rfl, hplain, ?_, ?_⟩)
    · rintro rfl
      exact hquote rfl
    · rintro rfl
      exact hbackslash rfl
  · rw [if_neg hplain, if_pos (by omega), padded_escape hu, UInt16.ofNat_toNat]
    exact .inr (.inr rfl)

theorem printable_unicodeEscape (u : CodeUnit) : ∀ v ∈ unicodeEscape u, IsPrintable v := by
  have hhex : ∀ n, n < 0x10 → IsPrintable (hexUnitOf n) := by decide
  have hu : u.toNat < 0x10000 := u.toNat_lt
  intro v hv
  simp only [unicodeEscape, List.mem_cons, List.not_mem_nil, or_false] at hv
  rcases hv with rfl | rfl | rfl | rfl | rfl | rfl
  · decide
  · decide
  · exact hhex _ (by omega)
  · exact hhex _ (by omega)
  · exact hhex _ (by omega)
  · exact hhex _ (by omega)

theorem printable_pythonAsciiPoint (u : CodeUnit) :
    ∀ v ∈ pythonAsciiPoint u.toNat, IsPrintable v := by
  have hbackslash : IsPrintable backslash := by decide
  intro v hv
  rcases pythonAsciiPoint_cases u with ⟨e, htext, -, -, he⟩ | ⟨htext, hplain, -⟩ | htext
  · rw [htext] at hv
    rcases List.mem_cons.mp hv with rfl | hv
    · exact hbackslash
    · rw [List.mem_singleton.mp hv]
      exact he
  · rw [htext] at hv
    rw [List.mem_singleton.mp hv]
    exact hplain
  · rw [htext] at hv
    exact printable_unicodeEscape u v hv

theorem printable_pythonAsciiJsonString (s : JsString) :
    ∀ v ∈ pythonAsciiJsonString s, IsPrintable v := by
  have hquote : IsPrintable quote := by decide
  intro v hv
  rw [pythonAsciiJsonString, pythonAsciiJsonString_units] at hv
  rcases List.mem_append.mp hv with hv | hv
  · rcases List.mem_cons.mp hv with rfl | hv
    · exact hquote
    · obtain ⟨u, -, hv⟩ := List.mem_flatMap.mp hv
      exact printable_pythonAsciiPoint u v hv
  · rw [List.mem_singleton.mp hv]
    exact hquote

theorem lexString_pythonAsciiPoint (u : CodeUnit) (s : JsString) :
    lexString (pythonAsciiPoint u.toNat ++ s) = (lexString s).map (prependUnit u) := by
  rcases pythonAsciiPoint_cases u with ⟨e, htext, he, hsimple, -⟩ | ⟨htext, hplain, hq, hb⟩ | htext
  · rw [htext]
    exact lexString_simple he hsimple s
  · have hcontrol : ¬ u < 0x20 := by
      rw [UInt16.lt_iff_toNat_lt]
      exact Nat.not_lt.mpr hplain.1
    rw [htext]
    exact lexString_plain hq hb hcontrol s
  · rw [htext]
    exact lexString_unicode (hexUnit_unicodeEscape u) s

theorem lexes_pythonAsciiJsonString (s : JsString) :
    Lexes (pythonAsciiJsonString s) [.scalar (.string s)] := by
  refine Lexes.literal fun later => ?_
  rw [pythonAsciiJsonString_units]
  induction s with
  | nil => exact lexString_quote later
  | cons u s ih =>
    rw [List.flatMap_cons, List.append_assoc, lexString_pythonAsciiPoint, ih]
    rfl

theorem jsonParse_pythonAsciiJsonString (s : JsString) :
    jsonParse (pythonAsciiJsonString s) = some (.leaf (.string s)) := by
  have hparse : parse (pythonAsciiJsonString s) = some (.leaf (.string s)) :=
    parse_of_lexes (lexes_pythonAsciiJsonString s)
  rw [jsonParse, hparse]
  rfl

end Scripts
