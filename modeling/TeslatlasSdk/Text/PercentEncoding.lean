import TeslatlasSdk.Text.FormUrlencoded
import TeslatlasSdk.Text.WellFormed

/-!
# Percent-encoding is undone by decoding

Both encodings write bytes, some as themselves and the others as a percent sign and two digits.
What `encodeURIComponent` and a form write of well-formed strings, percent-decoding gives back.
-/

namespace Text

/-! ## Decoding -/

def hexByte? (byte : UInt8) : Option Nat :=
  if 0x30 ≤ byte.toNat ∧ byte.toNat ≤ 0x39 then some (byte.toNat - 0x30)
  else if 0x41 ≤ byte.toNat ∧ byte.toNat ≤ 0x46 then some (byte.toNat - 0x37)
  else if 0x61 ≤ byte.toNat ∧ byte.toNat ≤ 0x66 then some (byte.toNat - 0x57)
  else none

/-- Percent-decoding of bytes. -/
def percentDecode : List UInt8 → List UInt8
  | [] => []
  | [b] => [b]
  | [b, c] => [b, c]
  | b :: c :: d :: rest =>
      if b = 0x25 then
        match hexByte? c, hexByte? d with
        | some high, some low => UInt8.ofNat (high * 0x10 + low) :: percentDecode rest
        | _, _ => b :: percentDecode (c :: d :: rest)
      else b :: percentDecode (c :: d :: rest)

/-- The string that a part of a URL stands for. -/
def decodeComponent (s : JsString) : JsString :=
  ofScalars (decodeUtf8 (percentDecode (utf8Encode s)))

def plusToSpace (byte : UInt8) : UInt8 := if byte = 0x2B then 0x20 else byte

/-- A name or a value of a form. -/
def formDecode (s : JsString) : JsString :=
  ofScalars (decodeUtf8 (percentDecode ((utf8Encode s).map plusToSpace)))

/-- A name and a value, with an equals sign between them. -/
def formPair (s : JsString) : JsString × JsString :=
  (formDecode (s.takeWhile (· ≠ 0x3D)), formDecode ((s.dropWhile (· ≠ 0x3D)).drop 1))

/-- `new URLSearchParams(s)`, for a string without a question mark before it. -/
def formParse (s : JsString) : List (JsString × JsString) :=
  ((s.splitOn 0x26).filter (· ≠ [])).map formPair

/-! ## Bytes -/

theorem utf8Encode_cons {u : CodeUnit} (h : u.toNat < 0x80) (s : JsString) :
    utf8Encode (u :: s) = UInt8.ofNat u.toNat :: utf8Encode s := by
  obtain ⟨hhigh, hlow⟩ := surrogate_bounds u
  have hhigh' : isHighSurrogate u = false := by
    rw [Bool.eq_false_iff, ne_eq, hhigh]
    omega
  have hlow' : isLowSurrogate u = false := by
    rw [Bool.eq_false_iff, ne_eq, hlow]
    omega
  have hpoint : unitCodePoint u = u.toNat := by
    rw [unitCodePoint, hhigh', hlow', Bool.or_self, if_neg Bool.false_ne_true]
  have hbytes : utf8Bytes u.toNat = [u.toNat] := by
    unfold utf8Bytes
    exact if_pos h
  rw [utf8Encode, codePoints_cons hhigh', hpoint, List.flatMap_cons, hbytes]
  rfl

def unitByte (u : CodeUnit) : UInt8 := UInt8.ofNat u.toNat

theorem utf8Encode_ascii {s : JsString} (h : ∀ u ∈ s, u.toNat < 0x80) :
    utf8Encode s = s.map unitByte := by
  induction s with
  | nil => rfl
  | cons u s ih =>
    rw [utf8Encode_cons (h u List.mem_cons_self), ih fun v hv => h v (List.mem_cons_of_mem u hv),
      List.map_cons, unitByte]

theorem percentDecode_cons {b : UInt8} (h : b ≠ 0x25) (bytes : List UInt8) :
    percentDecode (b :: bytes) = b :: percentDecode bytes := by
  match bytes with
  | [] => rfl
  | [c] => rfl
  | c :: d :: rest => rw [percentDecode, if_neg h]

theorem upperHexUnit_spec {n : Nat} (h : n < 0x10) :
    hexByte? (unitByte (upperHexUnit n)) = some n ∧ (upperHexUnit n).toNat < 0x80 ∧
      upperHexUnit n ≠ 0x26 ∧ upperHexUnit n ≠ 0x3D ∧ unitByte (upperHexUnit n) ≠ 0x2B := by
  have hall : ∀ n, n < 0x10 → hexByte? (unitByte (upperHexUnit n)) = some n ∧
      (upperHexUnit n).toNat < 0x80 ∧ upperHexUnit n ≠ 0x26 ∧ upperHexUnit n ≠ 0x3D ∧
      unitByte (upperHexUnit n) ≠ 0x2B := by decide
  exact hall n h

theorem percentDecode_percentByte (byte : UInt8) (rest : List UInt8) :
    percentDecode ((percentByte byte.toNat).map unitByte ++ rest) = byte :: percentDecode rest := by
  have hbyte : byte.toNat < 0x100 := byte.toNat_lt
  obtain ⟨hhigh, -⟩ := upperHexUnit_spec (n := byte.toNat / 16) (by omega)
  obtain ⟨hlow, -⟩ := upperHexUnit_spec (n := byte.toNat % 16) (by omega)
  have hvalue : byte.toNat / 16 * 0x10 + byte.toNat % 16 = byte.toNat := by omega
  show percentDecode (0x25 :: unitByte (upperHexUnit (byte.toNat / 16)) ::
    unitByte (upperHexUnit (byte.toNat % 16)) :: rest) = _
  rw [percentDecode, if_pos rfl, hhigh, hlow]
  simp only [hvalue, UInt8.ofNat_toNat]

-- Bytes come back one by one.
theorem percentDecode_flatMap {block : UInt8 → List UInt8}
    (h : ∀ byte rest, percentDecode (block byte ++ rest) = byte :: percentDecode rest)
    (bytes : List UInt8) : percentDecode (bytes.flatMap block) = bytes := by
  induction bytes with
  | nil => rfl
  | cons byte bytes ih => rw [List.flatMap_cons, h, ih]

/-! ## `encodeURIComponent` -/

def uriByte (byte : UInt8) : JsString :=
  if isUriUnreserved (UInt16.ofNat byte.toNat) then [UInt16.ofNat byte.toNat]
  else percentByte byte.toNat

theorem isUriUnreserved_lt {u : CodeUnit} (h : isUriUnreserved u = true) : u.toNat < 0x80 := by
  simp only [isUriUnreserved, isDigit, Bool.or_eq_true, Bool.and_eq_true, decide_eq_true_eq,
    UInt16.le_iff_toNat_le] at h
  rcases h with ((⟨-, h⟩ | ⟨-, h⟩) | ⟨-, h⟩) | h
  · exact Nat.lt_of_le_of_lt h (by decide)
  · exact Nat.lt_of_le_of_lt h (by decide)
  · exact Nat.lt_of_le_of_lt h (by decide)
  · have hall : (js "-_.!~*'()").all (fun u => u.toNat < 0x80) = true := rfl
    exact of_decide_eq_true (List.all_eq_true.mp hall u (List.contains_iff_mem.mp h))

theorem utf8Bytes_bounds {code : Nat} (hlo : 0x80 ≤ code) (hhi : code < 0x110000) :
    ∀ n ∈ utf8Bytes code, 0x80 ≤ n ∧ n < 0x100 := by
  intro n hn
  unfold utf8Bytes at hn
  rw [if_neg (by omega)] at hn
  split at hn
  · simp only [List.mem_cons, List.not_mem_nil, or_false] at hn
    omega
  split at hn
  · simp only [List.mem_cons, List.not_mem_nil, or_false] at hn
    omega
  · simp only [List.mem_cons, List.not_mem_nil, or_false] at hn
    omega

theorem percentEncode_eq {code : Nat} (hlo : 0x80 ≤ code) (hhi : code < 0x110000) :
    percentEncode code = ((utf8Bytes code).map UInt8.ofNat).flatMap uriByte := by
  rw [percentEncode, List.flatMap_map]
  refine List.flatMap_congr fun n hn => ?_
  obtain ⟨hn', hn''⟩ := utf8Bytes_bounds hlo hhi n hn
  have hbyte : (UInt8.ofNat n).toNat = n := toNat_ofNat_uint8 hn''
  have hreserved : ¬ isUriUnreserved (UInt16.ofNat n) = true := by
    intro h
    have hlt := isUriUnreserved_lt h
    rw [UInt16.toNat_ofNat'] at hlt
    omega
  rw [uriByte, hbyte, if_neg hreserved]

theorem encodeUnit_eq (u : CodeUnit) :
    (if isUriUnreserved u then [u] else percentEncode u.toNat) =
      ((utf8Bytes u.toNat).map UInt8.ofNat).flatMap uriByte := by
  have hu : u.toNat < 0x10000 := u.toNat_lt
  by_cases hlo : u.toNat < 0x80
  · have hbytes : utf8Bytes u.toNat = [u.toNat] := by
      unfold utf8Bytes
      exact if_pos hlo
    have hunit : UInt16.ofNat (UInt8.ofNat u.toNat).toNat = u := by
      rw [toNat_ofNat_uint8 (by omega), UInt16.ofNat_toNat]
    rw [percentEncode, hbytes, List.map_singleton, List.flatMap_singleton, List.flatMap_singleton,
      uriByte, hunit, toNat_ofNat_uint8 (by omega)]
  · have hreserved : ¬ isUriUnreserved u = true := fun h => hlo (isUriUnreserved_lt h)
    rw [if_neg hreserved, percentEncode_eq (by omega) (by omega)]

theorem utf8Encode_unit {u : CodeUnit} (hsurrogate : (isHighSurrogate u || isLowSurrogate u) = false)
    (s : JsString) :
    utf8Encode (u :: s) = (utf8Bytes u.toNat).map UInt8.ofNat ++ utf8Encode s := by
  have hhigh : isHighSurrogate u = false := (Bool.or_eq_false_iff.mp hsurrogate).1
  have hpoint : unitCodePoint u = u.toNat := by
    rw [unitCodePoint, hsurrogate, if_neg Bool.false_ne_true]
  rw [utf8Encode, codePoints_cons hhigh, hpoint, List.flatMap_cons]
  rfl

theorem pairCodePoint_bounds {u v : CodeUnit} (hhigh : isHighSurrogate u = true)
    (hlow : isLowSurrogate v = true) :
    0x10000 ≤ pairCodePoint u v ∧ pairCodePoint u v < 0x110000 := by
  rw [(surrogate_bounds u).1] at hhigh
  rw [(surrogate_bounds v).2] at hlow
  unfold pairCodePoint
  omega

-- What is written, or the `URIError`.
theorem encodeURIComponent_eq (s : JsString) :
    encodeURIComponent s =
      if isWellFormed s then some ((utf8Encode s).flatMap uriByte) else none := by
  fun_induction encodeURIComponent s with
  | case1 => rfl
  | case2 u hsurrogate =>
    have hill : isWellFormed [u] = false := by
      rw [isWellFormed, ← Bool.not_or, hsurrogate]
      rfl
    rw [hill, if_neg Bool.false_ne_true]
  | case3 u hsurrogate =>
    rw [Bool.not_eq_true] at hsurrogate
    have hwell : isWellFormed [u] = true := by
      rw [isWellFormed, ← Bool.not_or, hsurrogate]
      rfl
    rw [hwell, if_pos rfl, encodeUnit_eq, utf8Encode_unit hsurrogate]
    show _ = some (((utf8Bytes u.toNat).map UInt8.ofNat ++ []).flatMap uriByte)
    rw [List.append_nil]
  | case4 u v rest hpair ih =>
    obtain ⟨hhigh, hlow⟩ := Bool.and_eq_true_iff.mp hpair
    obtain ⟨hlo, hhi⟩ := pairCodePoint_bounds hhigh hlow
    have hbytes : utf8Encode (u :: v :: rest) =
        (utf8Bytes (pairCodePoint u v)).map UInt8.ofNat ++ utf8Encode rest := by
      rw [utf8Encode, codePoints, if_pos hpair, List.flatMap_cons]
      rfl
    rw [ih, isWellFormed, if_pos hpair, hbytes, List.flatMap_append,
      percentEncode_eq (by omega) hhi]
    split
    · rfl
    · rfl
  | case5 u v rest hpair hsurrogate =>
    have hill : isWellFormed (u :: v :: rest) = false := by
      rw [isWellFormed, if_neg hpair, ← Bool.not_or, hsurrogate]
      rfl
    rw [hill, if_neg Bool.false_ne_true]
  | case6 u v rest hpair hsurrogate ih =>
    rw [Bool.not_eq_true] at hsurrogate
    have hwell : isWellFormed (u :: v :: rest) = isWellFormed (v :: rest) := by
      rw [isWellFormed, if_neg hpair, ← Bool.not_or, hsurrogate]
      rfl
    rw [ih, hwell, encodeUnit_eq, utf8Encode_unit hsurrogate, List.flatMap_append]
    split
    · rfl
    · rfl

theorem encodeURIComponent_eq_none {s : JsString} :
    encodeURIComponent s = none ↔ isWellFormed s = false := by
  rw [encodeURIComponent_eq]
  cases isWellFormed s with
  | true => simp
  | false => simp

theorem toNat_uriByte (byte : UInt8) : ∀ u ∈ uriByte byte, u.toNat < 0x80 := by
  have hbyte : byte.toNat < 0x100 := byte.toNat_lt
  intro u hu
  rw [uriByte] at hu
  split at hu
  · next hunreserved =>
    rw [List.mem_singleton.mp hu]
    exact isUriUnreserved_lt hunreserved
  · rw [percentByte] at hu
    simp only [List.mem_cons, List.not_mem_nil, or_false] at hu
    rcases hu with rfl | rfl | rfl
    · decide
    · exact (upperHexUnit_spec (by omega)).2.1
    · exact (upperHexUnit_spec (by omega)).2.1

theorem percentDecode_uriByte (byte : UInt8) (rest : List UInt8) :
    percentDecode ((uriByte byte).map unitByte ++ rest) = byte :: percentDecode rest := by
  have hbyte : byte.toNat < 0x100 := byte.toNat_lt
  rw [uriByte]
  split
  · next hunreserved =>
    have hunit : unitByte (UInt16.ofNat byte.toNat) = byte := by
      rw [unitByte, UInt16.toNat_ofNat', Nat.mod_eq_of_lt (by omega), UInt8.ofNat_toNat]
    have hpercent : byte ≠ 0x25 := by
      rintro rfl
      exact absurd hunreserved (by decide)
    rw [List.map_singleton, hunit, List.singleton_append, percentDecode_cons hpercent]
  · exact percentDecode_percentByte byte rest

-- What has been encoded is decoded as it was.
theorem decodeComponent_encodeURIComponent {s t : JsString} (h : encodeURIComponent s = some t) :
    decodeComponent t = s := by
  rw [encodeURIComponent_eq] at h
  split at h
  · next hwell =>
    obtain rfl := Option.some.inj h
    have hascii : ∀ u ∈ (utf8Encode s).flatMap uriByte, u.toNat < 0x80 := by
      intro u hu
      obtain ⟨byte, -, hu⟩ := List.mem_flatMap.mp hu
      exact toNat_uriByte byte u hu
    rw [decodeComponent, utf8Encode_ascii hascii, List.map_flatMap,
      percentDecode_flatMap percentDecode_uriByte, decodeUtf8_of_wellFormed hwell]
  · cases h

/-! ## Forms -/

theorem isFormUnreserved_lt {n : Nat} (h : isFormUnreserved n = true) :
    n < 0x80 ∧ n ≠ 0x25 ∧ n ≠ 0x26 ∧ n ≠ 0x2B ∧ n ≠ 0x3D := by
  simp only [isFormUnreserved, Bool.or_eq_true, Bool.and_eq_true, decide_eq_true_eq] at h
  omega

theorem toNat_ofNat_byte (byte : UInt8) : (UInt16.ofNat byte.toNat).toNat = byte.toNat := by
  have hbyte : byte.toNat < 0x100 := byte.toNat_lt
  rw [UInt16.toNat_ofNat', Nat.mod_eq_of_lt (by omega)]

theorem mem_formByte {byte : UInt8} {u : CodeUnit} (h : u ∈ formByte byte) :
    u.toNat < 0x80 ∧ u ≠ 0x26 ∧ u ≠ 0x3D := by
  have hbyte : byte.toNat < 0x100 := byte.toNat_lt
  rw [formByte] at h
  split at h
  · rw [List.mem_singleton.mp h]
    decide
  split at h
  · next hunreserved =>
    obtain ⟨hlt, -, hand, -, hequals⟩ := isFormUnreserved_lt hunreserved
    rw [List.mem_singleton.mp h, ne_eq, ne_eq, ← UInt16.toNat_inj, ← UInt16.toNat_inj,
      toNat_ofNat_byte]
    exact ⟨hlt, hand, hequals⟩
  · rw [percentByte] at h
    simp only [List.mem_cons, List.not_mem_nil, or_false] at h
    rcases h with rfl | rfl | rfl
    · decide
    · obtain ⟨-, hlt, hand, hequals, -⟩ := upperHexUnit_spec (n := byte.toNat / 16) (by omega)
      exact ⟨hlt, hand, hequals⟩
    · obtain ⟨-, hlt, hand, hequals, -⟩ := upperHexUnit_spec (n := byte.toNat % 16) (by omega)
      exact ⟨hlt, hand, hequals⟩

theorem mem_formEncode {s : JsString} {u : CodeUnit} (h : u ∈ formEncode s) :
    u.toNat < 0x80 ∧ u ≠ 0x26 ∧ u ≠ 0x3D := by
  obtain ⟨byte, -, hu⟩ := List.mem_flatMap.mp h
  exact mem_formByte hu

theorem percentDecode_formByte (byte : UInt8) (rest : List UInt8) :
    percentDecode (((formByte byte).map unitByte).map plusToSpace ++ rest) =
      byte :: percentDecode rest := by
  have hbyte : byte.toNat < 0x100 := byte.toNat_lt
  rw [formByte]
  split
  · next hspace =>
    rw [hspace]
    exact percentDecode_cons (by decide) rest
  split
  · next hunreserved =>
    obtain ⟨-, hpercent, -, hplus, -⟩ := isFormUnreserved_lt hunreserved
    have hunit : unitByte (UInt16.ofNat byte.toNat) = byte := by
      rw [unitByte, toNat_ofNat_byte, UInt8.ofNat_toNat]
    have hsame : plusToSpace byte = byte := if_neg fun h => hplus (by rw [h]; rfl)
    rw [List.map_singleton, List.map_singleton, hunit, hsame, List.singleton_append,
      percentDecode_cons fun h => hpercent (by rw [h]; rfl)]
  · -- There is no plus sign in the percent sign and two digits.
    have hsame : ((percentByte byte.toNat).map unitByte).map plusToSpace =
        (percentByte byte.toNat).map unitByte := by
      obtain ⟨-, -, -, -, hhigh⟩ := upperHexUnit_spec (n := byte.toNat / 16) (by omega)
      obtain ⟨-, -, -, -, hlow⟩ := upperHexUnit_spec (n := byte.toNat % 16) (by omega)
      rw [percentByte]
      simp only [List.map_cons, List.map_nil, plusToSpace, if_neg hhigh, if_neg hlow]
      rfl
    rw [hsame, percentDecode_percentByte]

theorem formDecode_formEncode {s : JsString} (h : isWellFormed s = true) :
    formDecode (formEncode s) = s := by
  have hascii : ∀ u ∈ formEncode s, u.toNat < 0x80 := fun u hu => (mem_formEncode hu).1
  rw [formDecode, utf8Encode_ascii hascii, formEncode, List.map_flatMap, List.map_flatMap,
    percentDecode_flatMap percentDecode_formByte, decodeUtf8_of_wellFormed h]

/-- A name and its value as the parameters write them. -/
def formComponent (pair : JsString × JsString) : JsString :=
  formEncode pair.1 ++ 0x3D :: formEncode pair.2

theorem formPair_formComponent (pair : JsString × JsString) :
    formPair (formComponent pair) = (formDecode (formEncode pair.1), formDecode (formEncode pair.2)) := by
  have hname : ∀ u ∈ formEncode pair.1, (decide (u ≠ 0x3D)) = true :=
    fun u hu => decide_eq_true (mem_formEncode hu).2.2
  rw [formPair, formComponent, List.takeWhile_append_of_pos hname,
    List.dropWhile_append_of_pos hname]
  simp

theorem splitOn_formSerialize (pair : JsString × JsString) (pairs : List (JsString × JsString)) :
    (formSerialize (pair :: pairs)).splitOn 0x26 = (pair :: pairs).map formComponent := by
  have hcomponent : ∀ pair : JsString × JsString, 0x26 ∉ formComponent pair := by
    intro pair hmem
    rcases List.mem_append.mp hmem with h | h
    · exact (mem_formEncode h).2.1 rfl
    · rcases List.mem_cons.mp h with h | h
      · exact absurd h (by decide)
      · exact (mem_formEncode h).2.1 rfl
  induction pairs generalizing pair with
  | nil => exact List.splitOn_eq_singleton (hcomponent pair)
  | cons next pairs ih =>
    have hsplit : formSerialize (pair :: next :: pairs) =
        formComponent pair ++ 0x26 :: formSerialize (next :: pairs) := by
      rw [formSerialize, formComponent, List.append_assoc, List.cons_append]
      exact fun h => nomatch h
    rw [hsplit, List.splitOn_append_cons_self_of_not_mem (hcomponent pair), ih, List.map_cons,
      List.map_cons, List.map_cons]

-- The pairs come back as far as their code points go.
theorem formParse_formSerialize (pairs : List (JsString × JsString)) :
    formParse (formSerialize pairs) =
      pairs.map fun pair => (formDecode (formEncode pair.1), formDecode (formEncode pair.2)) := by
  cases pairs with
  | nil => rfl
  | cons pair pairs =>
    have hfilter : ((pair :: pairs).map formComponent).filter (· ≠ []) =
        (pair :: pairs).map formComponent := by
      refine List.filter_eq_self.mpr fun s hs => ?_
      obtain ⟨pair, -, rfl⟩ := List.mem_map.mp hs
      exact decide_eq_true (by simp [formComponent])
    rw [formParse, splitOn_formSerialize, hfilter, List.map_map]
    exact List.map_congr_left fun pair _ => formPair_formComponent pair

theorem isWellFormed_formDecode (s : JsString) : isWellFormed (formDecode s) = true :=
  isWellFormed_ofScalars _

-- Exactly the well-formed pairs come back as they are.
theorem formParse_formSerialize_iff {pairs : List (JsString × JsString)} :
    formParse (formSerialize pairs) = pairs ↔
      ∀ pair ∈ pairs, isWellFormed pair.1 = true ∧ isWellFormed pair.2 = true := by
  rw [formParse_formSerialize]
  constructor
  · intro h pair hpair
    rw [← h] at hpair
    obtain ⟨source, -, rfl⟩ := List.mem_map.mp hpair
    exact ⟨isWellFormed_formDecode _, isWellFormed_formDecode _⟩
  · intro h
    refine (List.map_congr_left fun pair hpair => ?_).trans (List.map_id pairs)
    rw [formDecode_formEncode (h pair hpair).1, formDecode_formEncode (h pair hpair).2]
    rfl

end Text
