import TeslatlasSdk.Text.Utf8Encoder

/-!
# Well-formed strings

A string without lone surrogates spells scalar values, and comes back from the decoder as it was
encoded.
-/

namespace Text

/-! ## The decoder on encoded text -/

theorem toNat_ofNat_uint8 {n : Nat} (h : n < 0x100) : (UInt8.ofNat n).toNat = n := by
  rw [UInt8.toNat_ofNat']
  exact Nat.mod_eq_of_lt h

namespace Utf8Decoder

theorem decode_one {n : Nat} (h : n < 0x80) :
    decode {} ((utf8Bytes n).map UInt8.ofNat) = ([Char.ofNat n], {}) := by
  have hbyte := toNat_ofNat_uint8 (n := n) (by omega)
  rw [utf8Bytes, if_pos h]
  simp only [List.map_cons, List.map_nil, decode, decodeByte, if_pos, hbyte, lead,
    if_pos (show n ≤ 0x7F by omega), List.append_nil]

theorem decode_two {n : Nat} (hlo : 0x80 ≤ n) (hhi : n < 0x800) :
    decode {} ((utf8Bytes n).map UInt8.ofNat) = ([Char.ofNat n], {}) := by
  have hfirst := toNat_ofNat_uint8 (n := 0xC0 + n / 0x40) (by omega)
  have hsecond := toNat_ofNat_uint8 (n := 0x80 + n % 0x40) (by omega)
  have hlead : lead (0xC0 + n / 0x40) = ([], { codePoint := n / 0x40, bytesNeeded := 1 }) := by
    rw [lead, if_neg (by omega), if_pos (by omega)]
    congr 2
    omega
  have hcode : n / 0x40 * 0x40 + (0x80 + n % 0x40) % 0x40 = n := by omega
  rw [utf8Bytes, if_neg (by omega), if_pos hhi]
  simp only [List.map_cons, List.map_nil, decode, decodeByte, if_pos, hfirst, hlead, hsecond,
    if_neg (show ¬ 1 = 0 by omega),
    if_neg (show ¬ (0x80 + n % 0x40 < 0x80 ∨ 0xBF < 0x80 + n % 0x40) by omega), Nat.zero_add, hcode,
    List.nil_append, List.append_nil]

theorem decode_three {n : Nat} (hlo : 0x800 ≤ n) (hhi : n < 0x10000)
    (hscalar : n < 0xD800 ∨ 0xDFFF < n) :
    decode {} ((utf8Bytes n).map UInt8.ofNat) = ([Char.ofNat n], {}) := by
  have hfirst := toNat_ofNat_uint8 (n := 0xE0 + n / 0x1000) (by omega)
  have hsecond := toNat_ofNat_uint8 (n := 0x80 + n / 0x40 % 0x40) (by omega)
  have hthird := toNat_ofNat_uint8 (n := 0x80 + n % 0x40) (by omega)
  have hlead : lead (0xE0 + n / 0x1000) =
      ([], { codePoint := n / 0x1000, bytesNeeded := 2,
             lowerBoundary := if 0xE0 + n / 0x1000 = 0xE0 then 0xA0 else 0x80,
             upperBoundary := if 0xE0 + n / 0x1000 = 0xED then 0x9F else 0xBF }) := by
    rw [lead, if_neg (by omega), if_neg (by omega), if_pos (by omega)]
    congr 2
    omega
  have hbounds : ¬ (0x80 + n / 0x40 % 0x40 < (if 0xE0 + n / 0x1000 = 0xE0 then 0xA0 else 0x80) ∨
      (if 0xE0 + n / 0x1000 = 0xED then 0x9F else 0xBF) < 0x80 + n / 0x40 % 0x40) := by
    split <;> split <;> omega
  have hcode : (n / 0x1000 * 0x40 + (0x80 + n / 0x40 % 0x40) % 0x40) * 0x40 +
      (0x80 + n % 0x40) % 0x40 = n := by omega
  rw [utf8Bytes, if_neg (by omega), if_neg (by omega), if_pos hhi]
  simp only [List.map_cons, List.map_nil, decode, decodeByte, if_pos, hfirst, hlead, hsecond,
    hthird, if_neg (show ¬ 2 = 0 by omega), if_neg hbounds, Nat.zero_add,
    if_neg (show ¬ 1 = 2 by omega),
    if_neg (show ¬ (0x80 + n % 0x40 < 0x80 ∨ 0xBF < 0x80 + n % 0x40) by omega), hcode,
    List.nil_append, List.append_nil]

theorem decode_four {n : Nat} (hlo : 0x10000 ≤ n) (hhi : n < 0x110000) :
    decode {} ((utf8Bytes n).map UInt8.ofNat) = ([Char.ofNat n], {}) := by
  have hfirst := toNat_ofNat_uint8 (n := 0xF0 + n / 0x40000) (by omega)
  have hsecond := toNat_ofNat_uint8 (n := 0x80 + n / 0x1000 % 0x40) (by omega)
  have hthird := toNat_ofNat_uint8 (n := 0x80 + n / 0x40 % 0x40) (by omega)
  have hfourth := toNat_ofNat_uint8 (n := 0x80 + n % 0x40) (by omega)
  have hlead : lead (0xF0 + n / 0x40000) =
      ([], { codePoint := n / 0x40000, bytesNeeded := 3,
             lowerBoundary := if 0xF0 + n / 0x40000 = 0xF0 then 0x90 else 0x80,
             upperBoundary := if 0xF0 + n / 0x40000 = 0xF4 then 0x8F else 0xBF }) := by
    rw [lead, if_neg (by omega), if_neg (by omega), if_neg (by omega), if_pos (by omega)]
    congr 2
    omega
  have hbounds : ¬ (0x80 + n / 0x1000 % 0x40 <
        (if 0xF0 + n / 0x40000 = 0xF0 then 0x90 else 0x80) ∨
      (if 0xF0 + n / 0x40000 = 0xF4 then 0x8F else 0xBF) < 0x80 + n / 0x1000 % 0x40) := by
    split <;> split <;> omega
  have hcode : ((n / 0x40000 * 0x40 + (0x80 + n / 0x1000 % 0x40) % 0x40) * 0x40 +
      (0x80 + n / 0x40 % 0x40) % 0x40) * 0x40 + (0x80 + n % 0x40) % 0x40 = n := by omega
  rw [utf8Bytes_of_le hlo]
  simp only [List.map_cons, List.map_nil, decode, decodeByte, if_pos, hfirst, hlead, hsecond,
    hthird, hfourth, if_neg (show ¬ 3 = 0 by omega), if_neg hbounds, Nat.zero_add,
    if_neg (show ¬ 1 = 3 by omega), if_neg (show ¬ 1 + 1 = 3 by omega),
    if_neg (show ¬ (0x80 + n / 0x40 % 0x40 < 0x80 ∨ 0xBF < 0x80 + n / 0x40 % 0x40) by omega),
    if_neg (show ¬ (0x80 + n % 0x40 < 0x80 ∨ 0xBF < 0x80 + n % 0x40) by omega), hcode,
    List.nil_append, List.append_nil]

theorem decode_scalar (c : Char) :
    decode {} ((utf8Bytes c.toNat).map UInt8.ofNat) = ([c], {}) := by
  have hc : Char.ofNat c.toNat = c := Char.ofNat_toNat c
  have hranges := scalar_ranges c
  by_cases h1 : c.toNat < 0x80
  · rw [decode_one h1, hc]
  by_cases h2 : c.toNat < 0x800
  · rw [decode_two (by omega) h2, hc]
  by_cases h3 : c.toNat < 0x10000
  · rw [decode_three (by omega) h3 (by omega), hc]
  · rw [decode_four (by omega) (by omega), hc]

-- Decoding goes on from where encoded text ends.
theorem decode_scalars (cs : List Char) (bytes : List UInt8) :
    decode {} ((cs.flatMap fun c => (utf8Bytes c.toNat).map UInt8.ofNat) ++ bytes) =
      (cs ++ (decode {} bytes).1, (decode {} bytes).2) := by
  induction cs with
  | nil => rfl
  | cons c cs ih => rw [List.flatMap_cons, List.append_assoc, decode_append, decode_scalar, ih]; rfl

end Utf8Decoder

/-! ## Code points -/

-- A scalar value is spelled by a unit of its own or by a surrogate pair.
theorem encodeScalar_cases (c : Char) :
    (∃ u, encodeScalar c = [u] ∧ isHighSurrogate u = false ∧ isLowSurrogate u = false ∧
      u.toNat = c.toNat) ∨
    ∃ u v, encodeScalar c = [u, v] ∧ isHighSurrogate u = true ∧ isLowSurrogate v = true ∧
      pairCodePoint u v = c.toNat := by
  have hr := scalar_ranges c
  have hunit : c.toNat < 0x10000 → _ := encodeScalar_of_lt
  have hpair : 0x10000 ≤ c.toNat → _ := encodeScalar_of_le
  generalize c.toNat = n at *
  by_cases hb : n < 0x10000
  · obtain ⟨u, hu, hfirst⟩ : ∃ u : CodeUnit, u.toNat = n ∧ UInt16.ofNat n = u := by
      refine ⟨_, ?_, rfl⟩
      rw [UInt16.toNat_ofNat']
      exact Nat.mod_eq_of_lt hb
    rw [hfirst] at hunit
    obtain ⟨hhigh, hlow⟩ := surrogate_bounds u
    refine .inl ⟨u, hunit hb, ?_, ?_, hu⟩
    · rw [Bool.eq_false_iff, ne_eq, hhigh]
      omega
    · rw [Bool.eq_false_iff, ne_eq, hlow]
      omega
  · obtain ⟨u, hu, hfirst⟩ : ∃ u : CodeUnit, u.toNat = 0xD800 + (n - 0x10000) / 0x400 ∧
        UInt16.ofNat (0xD800 + (n - 0x10000) / 0x400) = u := by
      refine ⟨_, ?_, rfl⟩
      rw [UInt16.toNat_ofNat']
      exact Nat.mod_eq_of_lt (by omega)
    obtain ⟨v, hv, hsecond⟩ : ∃ v : CodeUnit, v.toNat = 0xDC00 + (n - 0x10000) % 0x400 ∧
        UInt16.ofNat (0xDC00 + (n - 0x10000) % 0x400) = v := by
      refine ⟨_, ?_, rfl⟩
      rw [UInt16.toNat_ofNat']
      exact Nat.mod_eq_of_lt (by omega)
    rw [hfirst, hsecond] at hpair
    have hhigh := (surrogate_bounds u).1
    have hlow := (surrogate_bounds v).2
    refine .inr ⟨u, v, hpair (by omega), hhigh.mpr (by omega), hlow.mpr (by omega), ?_⟩
    unfold pairCodePoint
    omega

theorem codePoints_cons {u : CodeUnit} (hhigh : isHighSurrogate u = false) (s : JsString) :
    codePoints (u :: s) = unitCodePoint u :: codePoints s := by
  cases s with
  | nil => rfl
  | cons v rest =>
    rw [codePoints, hhigh, Bool.false_and, if_neg Bool.false_ne_true]

theorem codePoints_encodeScalar (c : Char) (s : JsString) :
    codePoints (encodeScalar c ++ s) = c.toNat :: codePoints s := by
  rcases encodeScalar_cases c with ⟨u, hc, hhigh, hlow, hu⟩ | ⟨u, v, hc, hhigh, hlow, huv⟩
  · rw [hc, List.singleton_append, codePoints_cons hhigh, unitCodePoint, hhigh, hlow, Bool.or_self,
      if_neg Bool.false_ne_true, hu]
  · rw [hc, List.cons_append, List.singleton_append, codePoints, hhigh, hlow, Bool.and_self,
      if_pos rfl, huv]

theorem codePoints_ofScalars (cs : List Char) : codePoints (ofScalars cs) = cs.map Char.toNat := by
  induction cs with
  | nil => rfl
  | cons c cs ih => rw [ofScalars_cons, codePoints_encodeScalar, ih, List.map_cons]

theorem utf8Encode_ofScalars (cs : List Char) :
    utf8Encode (ofScalars cs) = cs.flatMap fun c => (utf8Bytes c.toNat).map UInt8.ofNat := by
  rw [utf8Encode, codePoints_ofScalars, List.flatMap_map]

-- Text that spells scalar values is decoded as it was encoded.
theorem decodeUtf8_utf8Encode (cs : List Char) : decodeUtf8 (utf8Encode (ofScalars cs)) = cs := by
  have h := Utf8Decoder.decode_scalars cs []
  rw [List.append_nil, ← utf8Encode_ofScalars] at h
  rw [decodeUtf8, h]
  simp [Utf8Decoder.flush]

/-! ## Well-formed strings -/

/-- `isWellFormed`: no surrogate is without its partner. -/
def isWellFormed : JsString → Bool
  | [] => true
  | [u] => !isHighSurrogate u && !isLowSurrogate u
  | u :: v :: rest =>
      if isHighSurrogate u && isLowSurrogate v then isWellFormed rest
      else !isHighSurrogate u && !isLowSurrogate u && isWellFormed (v :: rest)

theorem isWellFormed_cons {u : CodeUnit} (hhigh : isHighSurrogate u = false)
    (hlow : isLowSurrogate u = false) (s : JsString) : isWellFormed (u :: s) = isWellFormed s := by
  cases s with
  | nil => simp [isWellFormed, hhigh, hlow]
  | cons v rest =>
    rw [isWellFormed, hhigh, hlow, Bool.false_and, if_neg Bool.false_ne_true]
    rfl

theorem isWellFormed_ofScalars (cs : List Char) : isWellFormed (ofScalars cs) = true := by
  induction cs with
  | nil => rfl
  | cons c cs ih =>
    rw [ofScalars_cons]
    rcases encodeScalar_cases c with ⟨u, hc, hhigh, hlow, -⟩ | ⟨u, v, hc, hhigh, hlow, -⟩
    · rw [hc, List.singleton_append, isWellFormed_cons hhigh hlow, ih]
    · rw [hc, List.cons_append, List.singleton_append, isWellFormed, hhigh, hlow, Bool.and_self,
        if_pos rfl, ih]

theorem toNat_charOfNat {n : Nat} (h : n.isValidChar) : (Char.ofNat n).toNat = n := by
  rw [Char.ofNat, dif_pos h]
  rfl

theorem encodeScalar_ofNat_unit {u : CodeUnit} (hhigh : isHighSurrogate u = false)
    (hlow : isLowSurrogate u = false) : encodeScalar (Char.ofNat u.toNat) = [u] := by
  obtain ⟨hhigh', hlow'⟩ := surrogate_bounds u
  have hu : u.toNat < 0x10000 := u.toNat_lt
  rw [Bool.eq_false_iff, ne_eq, hhigh'] at hhigh
  rw [Bool.eq_false_iff, ne_eq, hlow'] at hlow
  have hc : (Char.ofNat u.toNat).toNat = u.toNat := toNat_charOfNat (by
    rw [Nat.isValidChar]
    omega)
  rw [encodeScalar_of_lt (by omega), hc, UInt16.ofNat_toNat]

theorem encodeScalar_ofNat_pair {u v : CodeUnit} (hhigh : isHighSurrogate u = true)
    (hlow : isLowSurrogate v = true) : encodeScalar (Char.ofNat (pairCodePoint u v)) = [u, v] := by
  rw [(surrogate_bounds u).1] at hhigh
  rw [(surrogate_bounds v).2] at hlow
  obtain ⟨n, hn⟩ : ∃ n, pairCodePoint u v = n := ⟨_, rfl⟩
  rw [hn]
  unfold pairCodePoint at hn
  have hle : 0x10000 ≤ n := by omega
  have hvalid : n.isValidChar := by
    rw [Nat.isValidChar]
    omega
  have hfirst : 0xD800 + (n - 0x10000) / 0x400 = u.toNat := by omega
  have hsecond : 0xDC00 + (n - 0x10000) % 0x400 = v.toNat := by omega
  have hc := toNat_charOfNat hvalid
  rw [encodeScalar_of_le (by rw [hc]; exact hle), hc, hfirst, hsecond, UInt16.ofNat_toNat,
    UInt16.ofNat_toNat]

theorem isWellFormed_iff {s : JsString} : isWellFormed s = true ↔ ∃ cs, ofScalars cs = s := by
  constructor
  · intro h
    fun_induction isWellFormed s with
    | case1 => exact ⟨[], rfl⟩
    | case2 u =>
      simp only [Bool.and_eq_true, Bool.not_eq_true'] at h
      exact ⟨[Char.ofNat u.toNat], by rw [ofScalars_cons, encodeScalar_ofNat_unit h.1 h.2]; rfl⟩
    | case3 u v rest hpair ih =>
      obtain ⟨cs, hcs⟩ := ih h
      rw [Bool.and_eq_true] at hpair
      refine ⟨Char.ofNat (pairCodePoint u v) :: cs, ?_⟩
      rw [ofScalars_cons, encodeScalar_ofNat_pair hpair.1 hpair.2, hcs]
      rfl
    | case4 u v rest hpair ih =>
      simp only [Bool.and_eq_true, Bool.not_eq_true'] at h
      obtain ⟨cs, hcs⟩ := ih h.2
      refine ⟨Char.ofNat u.toNat :: cs, ?_⟩
      rw [ofScalars_cons, encodeScalar_ofNat_unit h.1.1 h.1.2, hcs]
      rfl
  · rintro ⟨cs, rfl⟩
    exact isWellFormed_ofScalars cs

-- A well-formed string is decoded as it was encoded.
theorem decodeUtf8_of_wellFormed {s : JsString} (h : isWellFormed s = true) :
    ofScalars (decodeUtf8 (utf8Encode s)) = s := by
  obtain ⟨cs, rfl⟩ := isWellFormed_iff.mp h
  rw [decodeUtf8_utf8Encode]

theorem isWellFormed_append {s t : JsString} (hs : isWellFormed s = true)
    (ht : isWellFormed t = true) : isWellFormed (s ++ t) = true := by
  obtain ⟨cs, rfl⟩ := isWellFormed_iff.mp hs
  obtain ⟨ds, rfl⟩ := isWellFormed_iff.mp ht
  rw [← ofScalars_append]
  exact isWellFormed_ofScalars _

theorem utf8Encode_append {s t : JsString} (hs : isWellFormed s = true)
    (ht : isWellFormed t = true) : utf8Encode (s ++ t) = utf8Encode s ++ utf8Encode t := by
  obtain ⟨cs, rfl⟩ := isWellFormed_iff.mp hs
  obtain ⟨ds, rfl⟩ := isWellFormed_iff.mp ht
  rw [← ofScalars_append, utf8Encode_ofScalars, utf8Encode_ofScalars, utf8Encode_ofScalars,
    List.flatMap_append]

-- Units below the surrogates are well-formed anywhere.
theorem isWellFormed_of_lt {s : JsString} (h : ∀ u ∈ s, u.toNat < 0xD800) :
    isWellFormed s = true := by
  induction s with
  | nil => rfl
  | cons u s ih =>
    have hu := h u List.mem_cons_self
    obtain ⟨hhigh, hlow⟩ := surrogate_bounds u
    rw [isWellFormed_cons, ih fun v hv => h v (List.mem_cons_of_mem u hv)]
    · rw [Bool.eq_false_iff, ne_eq, hhigh]
      omega
    · rw [Bool.eq_false_iff, ne_eq, hlow]
      omega

/-! ## Decoding without replacement -/

/-- `new TextDecoder("utf-8", { fatal: true })`, which throws at bytes that are malformed: those that
are not the encoding of what they are decoded to. -/
def decodeFatal (bytes : List UInt8) : Option (List Char) :=
  if utf8Encode (ofScalars (decodeUtf8 bytes)) = bytes then some (decodeUtf8 bytes) else none

theorem decodeFatal_eq_some {bytes : List UInt8} {cs : List Char} :
    decodeFatal bytes = some cs ↔ utf8Encode (ofScalars cs) = bytes := by
  unfold decodeFatal
  constructor
  · intro h
    split at h
    · next hb =>
      obtain rfl := Option.some.inj h
      exact hb
    · cases h
  · rintro rfl
    rw [decodeUtf8_utf8Encode, if_pos rfl]

/-- A decoder strips one leading byte order mark. -/
def withoutByteOrderMark : List Char → List Char
  | [] => []
  | c :: cs => if c.toNat = 0xFEFF then cs else c :: cs

end Text
