import TeslatlasSdk.Scripts.TarLayout
import Mathlib.Data.FinEnum

/-!
# Header fields

Which fields of an accepted header are read as any reader of tar archives reads them.
-/

open Text Core

namespace Scripts

/-! ## Octal fields -/

/-- A field of the form that archives are written with: blanks, octal digits, and blanks or NULs at
the end. -/
def OctalField (bytes : List UInt8) (value : Nat) : Prop :=
  ∃ blanks digits terminators, bytes = blanks ++ digits ++ terminators ∧
    (∀ b ∈ blanks, b = 0x20) ∧ digits ≠ [] ∧ (∀ b ∈ digits, isOctalDigit b = true) ∧
    (∀ b ∈ terminators, b = 0x20 ∨ b = 0) ∧ value = octalValue digits

/-- No byte has its highest bit set or is a control character from tab to carriage return, and no
NUL stands in front of a digit. -/
def PlainField (bytes : List UInt8) : Prop :=
  (∀ b ∈ bytes, b < 0x80 ∧ ¬ (0x09 ≤ b ∧ b ≤ 0x0D)) ∧
    bytes.Pairwise fun a b => a = 0 → isOctalDigit b = false

instance (bytes : List UInt8) : Decidable (PlainField bytes) := by
  unfold PlainField
  infer_instance

theorem forall_byte {p : UInt8 → Prop} (h : ∀ n < 256, p (UInt8.ofNat n)) (b : UInt8) : p b := by
  have hb := h b.toNat b.toNat_lt
  rw [UInt8.ofNat_toNat] at hb
  exact hb

theorem isOctalDigit_plain : ∀ b : UInt8, isOctalDigit b = true →
    b < 0x80 ∧ ¬ (0x09 ≤ b ∧ b ≤ 0x0D) ∧ b ≠ 0 ∧ isAsciiSpace b = false :=
  forall_byte (by decide +kernel)

theorem terminator_not_digit : ∀ b : UInt8, b = 0x20 ∨ b = 0 → isOctalDigit b = false :=
  forall_byte (by decide +kernel)

theorem sevenBits : ∀ b : UInt8, b < 0x80 → b &&& 0x7F = b :=
  forall_byte (by decide +kernel)

theorem isAsciiSpace_plain : ∀ b : UInt8, isAsciiSpace b = true → ¬ (0x09 ≤ b ∧ b ≤ 0x0D) →
    b = 0x20 :=
  forall_byte (by decide +kernel)

theorem OctalField.plain {bytes : List UInt8} {value : Nat} (h : OctalField bytes value) :
    PlainField bytes := by
  obtain ⟨blanks, digits, terminators, rfl, hblanks, -, hdigits, hterminators, -⟩ := h
  have hblank : (0x20 : UInt8) < 0x80 ∧ ¬ ((0x09 : UInt8) ≤ 0x20 ∧ (0x20 : UInt8) ≤ 0x0D) := by
    decide
  have hnul : (0 : UInt8) < 0x80 ∧ ¬ ((0x09 : UInt8) ≤ 0 ∧ (0 : UInt8) ≤ 0x0D) := by decide
  refine ⟨?_, ?_⟩
  · intro b hb
    rw [List.mem_append, List.mem_append] at hb
    obtain (hb | hb) | hb := hb
    · rw [hblanks b hb]
      exact hblank
    · have hplain := isOctalDigit_plain b (hdigits b hb)
      exact ⟨hplain.1, hplain.2.1⟩
    · obtain rfl | rfl := hterminators b hb
      · exact hblank
      · exact hnul
  · have hfront : ∀ b ∈ blanks ++ digits, b ≠ 0 := by
      intro b hb
      obtain hb | hb := List.mem_append.mp hb
      · rw [hblanks b hb]
        decide
      · exact (isOctalDigit_plain b (hdigits b hb)).2.2.1
    rw [List.pairwise_append]
    refine ⟨?_, ?_, fun a ha b hb hzero => absurd hzero (hfront a ha)⟩
    · exact List.Pairwise.imp_of_mem (fun ha _ _ hzero => absurd hzero (hfront _ ha))
        (List.pairwise_of_forall fun _ _ => trivial)
    · exact List.Pairwise.imp_of_mem
        (fun _ hb _ _ => terminator_not_digit _ (hterminators _ hb))
        (List.pairwise_of_forall fun _ _ => trivial)

theorem trimAscii_split (text : List UInt8) :
    ∃ front back, text = front ++ trimAscii text ++ back ∧
      (∀ b ∈ front, isAsciiSpace b = true) ∧ ∀ b ∈ back, isAsciiSpace b = true := by
  refine ⟨text.takeWhile isAsciiSpace, (text.dropWhile isAsciiSpace).rtakeWhile isAsciiSpace, ?_,
    fun b hb => List.mem_takeWhile_imp hb, fun b hb => List.mem_rtakeWhile_imp hb⟩
  rw [trimAscii, List.append_assoc, List.rdropWhile_append_rtakeWhile, List.takeWhile_append_dropWhile]

-- Up to a digit, a field is what is left of it without NULs.
theorem append_of_filter {front later bytes : List UInt8} {d : UInt8}
    (hd : isOctalDigit d = true)
    (hpairs : bytes.Pairwise fun a b => a = 0 → isOctalDigit b = false)
    (h : bytes.filter (· ≠ 0) = front ++ d :: later) :
    ∃ terminators, bytes = front ++ d :: terminators ∧ terminators.filter (· ≠ 0) = later := by
  induction bytes generalizing front with
  | nil => exact absurd h.symm (List.append_ne_nil_of_right_ne_nil _ (List.cons_ne_nil _ _))
  | cons b bytes ih =>
    obtain ⟨hb, hpairs⟩ := List.pairwise_cons.mp hpairs
    by_cases hzero : b = 0
    · -- A NUL has no digit behind it.
      rw [List.filter_cons_of_neg (by simp [hzero])] at h
      have hmem : d ∈ bytes := by
        have hfilter : d ∈ bytes.filter (· ≠ 0) := by
          rw [h]
          exact List.mem_append_right _ List.mem_cons_self
        exact List.mem_of_mem_filter hfilter
      rw [hb d hmem hzero] at hd
      cases hd
    · rw [List.filter_cons_of_pos (by simp [hzero])] at h
      cases front with
      | nil =>
        obtain ⟨rfl, hlater⟩ := List.cons.inj h
        exact ⟨bytes, rfl, hlater⟩
      | cons first front =>
        obtain ⟨rfl, hrest⟩ := List.cons.inj h
        obtain ⟨terminators, rfl, hlater⟩ := ih hpairs hrest
        exact ⟨terminators, rfl, hlater⟩

theorem tarOctal_ok {field : TarField} {bytes : List UInt8} {value : Nat}
    (h : tarOctal field bytes = .ok value) :
    ∃ text, trimAscii ((bytes.map (· &&& 0x7F)).filter (· ≠ 0)) = text ∧ text ≠ [] ∧
      (∀ b ∈ text, isOctalDigit b = true) ∧ value = octalValue text := by
  rw [tarOctal] at h
  split at h
  · next hdigits =>
    obtain rfl := Except.ok.inj h
    exact ⟨_, rfl, hdigits.1, List.all_eq_true.mp hdigits.2, rfl⟩
  · cases h

theorem PlainField.octal {field : TarField} {bytes : List UInt8} {value : Nat}
    (hplain : PlainField bytes) (h : tarOctal field bytes = .ok value) :
    OctalField bytes value := by
  obtain ⟨text, htext, hne, hdigits, rfl⟩ := tarOctal_ok h
  obtain ⟨hbytes, hpairs⟩ := hplain
  have hseven : bytes.map (· &&& 0x7F) = bytes := by
    rw [List.map_congr_left fun b hb => sevenBits b (hbytes b hb).1, List.map_id']
  obtain ⟨front, back, hsplit, hfront, hback⟩ := trimAscii_split (bytes.filter (· ≠ 0))
  rw [hseven] at htext
  rw [htext] at hsplit
  obtain ⟨init, d, rfl⟩ : ∃ init d, text = init ++ [d] :=
    ⟨text.dropLast, text.getLast hne, (List.dropLast_append_getLast hne).symm⟩
  have hd := hdigits d (List.mem_append_right _ List.mem_cons_self)
  have hfilter : bytes.filter (· ≠ 0) = (front ++ init) ++ d :: back := by
    rw [hsplit]
    simp
  obtain ⟨terminators, hwhole, hterminators⟩ := append_of_filter hd hpairs hfilter
  -- White space that is not a control character is a blank.
  have hblank : ∀ b ∈ bytes, isAsciiSpace b = true → b = 0x20 :=
    fun b hb hspace => isAsciiSpace_plain b hspace (hbytes b hb).2
  refine ⟨front, init ++ [d], terminators, ?_, ?_, hne, hdigits, ?_, rfl⟩
  · rw [hwhole]
    simp
  · intro b hb
    refine hblank b ?_ (hfront b hb)
    rw [hwhole]
    exact List.mem_append_left _ (List.mem_append_left _ hb)
  · intro b hb
    by_cases hzero : b = 0
    · exact .inr hzero
    · have hmem : b ∈ back := by
        rw [← hterminators]
        exact List.mem_filter.mpr ⟨hb, by simp [hzero]⟩
      refine .inl (hblank b ?_ (hback b hmem))
      rw [hwhole]
      exact List.mem_append_right _ (List.mem_cons_of_mem _ hb)

-- An accepted field is in the form of archives if and only if it is plain.
theorem octalField_iff {field : TarField} {bytes : List UInt8} {value : Nat}
    (h : tarOctal field bytes = .ok value) : OctalField bytes value ↔ PlainField bytes :=
  ⟨OctalField.plain, fun hplain => hplain.octal h⟩

/-! ## Paths -/

/-- U+FEFF in UTF-8. -/
def byteOrderMark : List UInt8 := [0xEF, 0xBB, 0xBF]

/-- The bytes of a header's name and prefix. -/
def pathBytes (header : List UInt8) : List UInt8 :=
  let name := untilNul (header.extract 0 100)
  let namePrefix := untilNul (header.extract 345 500)
  if namePrefix = [] then name else namePrefix ++ 0x2F :: name

/-- The bytes of scalar values in UTF-8. -/
def scalarsUtf8 (cs : List Char) : List UInt8 := utf8Encode (ofScalars cs)

theorem scalarsUtf8_append (cs ds : List Char) :
    scalarsUtf8 (cs ++ ds) = scalarsUtf8 cs ++ scalarsUtf8 ds := by
  rw [scalarsUtf8, ofScalars_append,
    utf8Encode_append (isWellFormed_ofScalars cs) (isWellFormed_ofScalars ds)]
  rfl

theorem scalarsUtf8_eq_nil {cs : List Char} : scalarsUtf8 cs = [] ↔ cs = [] := by
  constructor
  · intro h
    have hdecode := decodeUtf8_utf8Encode cs
    rw [scalarsUtf8] at h
    rw [h] at hdecode
    exact hdecode.symm
  · rintro rfl
    rfl

-- What a decoder makes of text that spells `cs`.
theorem byteOrderMark_iff (cs : List Char) :
    byteOrderMark <+: scalarsUtf8 cs ↔ ∃ rest, cs = Char.ofNat 0xFEFF :: rest := by
  constructor
  · rintro ⟨rest, hrest⟩
    have hdecode := decodeUtf8_utf8Encode cs
    rw [← scalarsUtf8, ← hrest] at hdecode
    rw [← hdecode, decodeUtf8, Utf8Decoder.decode_append]
    exact ⟨_, rfl⟩
  · rintro ⟨rest, rfl⟩
    rw [show Char.ofNat 0xFEFF :: rest = [Char.ofNat 0xFEFF] ++ rest from rfl, scalarsUtf8_append]
    exact ⟨scalarsUtf8 rest, rfl⟩

theorem tarText_ok {bytes : List UInt8} {text : JsString} (h : tarText bytes = .ok text) :
    ∃ cs, untilNul bytes = scalarsUtf8 cs ∧ text = ofScalars (withoutByteOrderMark cs) := by
  rw [tarText] at h
  split at h
  · next cs hcs =>
    obtain rfl := Except.ok.inj h
    exact ⟨cs, (decodeFatal_eq_some.mp hcs).symm, rfl⟩
  · cases h

theorem withoutByteOrderMark_eq {cs : List Char} (h : ¬ byteOrderMark <+: scalarsUtf8 cs) :
    withoutByteOrderMark cs = cs := by
  cases cs with
  | nil => rfl
  | cons c cs =>
    rw [withoutByteOrderMark]
    split
    · next hc =>
      refine absurd ((byteOrderMark_iff _).mpr ⟨cs, ?_⟩) h
      rw [← hc, Char.ofNat_toNat]
    · rfl

-- A byte order mark is three bytes that are not in the text.
theorem length_byteOrderMark {cs : List Char} (h : byteOrderMark <+: scalarsUtf8 cs) :
    (scalarsUtf8 cs).length = (scalarsUtf8 (withoutByteOrderMark cs)).length + 3 := by
  obtain ⟨rest, rfl⟩ := (byteOrderMark_iff cs).mp h
  have hrest : withoutByteOrderMark (Char.ofNat 0xFEFF :: rest) = rest := rfl
  rw [hrest, show Char.ofNat 0xFEFF :: rest = [Char.ofNat 0xFEFF] ++ rest from rfl,
    scalarsUtf8_append, List.length_append]
  have hmark : (scalarsUtf8 [Char.ofNat 0xFEFF]).length = 3 := by decide
  omega

theorem length_withoutByteOrderMark (cs : List Char) :
    (scalarsUtf8 (withoutByteOrderMark cs)).length ≤ (scalarsUtf8 cs).length := by
  by_cases h : byteOrderMark <+: scalarsUtf8 cs
  · rw [length_byteOrderMark h]
    omega
  · rw [withoutByteOrderMark_eq h]

/-! ### The slash at the end -/

-- The last element of pieces put together is that of the last piece.
theorem getLast?_flatMap {α β : Type} {f : α → List β} {a : α} {b : β}
    (hne : ∀ x, f x ≠ []) (hlast : ∀ x, (f x).getLast? = some b ↔ x = a) (xs : List α) :
    (xs.flatMap f).getLast? = some b ↔ xs.getLast? = some a := by
  obtain rfl | ⟨front, x, rfl⟩ := List.eq_nil_or_concat xs
  · simp
  · rw [List.concat_eq_append, List.flatMap_append, List.flatMap_singleton,
      List.getLast?_append_of_ne_nil _ (hne x), hlast, List.getLast?_concat, Option.some.injEq]

theorem encodeScalar_slash (c : Char) : (encodeScalar c).getLast? = some slash ↔ c = '/' := by
  constructor
  · intro h
    obtain ⟨u, hc, -, -, hu⟩ | ⟨u, v, hc, -, hlow, -⟩ := encodeScalar_cases c
    · rw [hc] at h
      obtain rfl := Option.some.inj h
      exact Char.toNat_inj.mp hu.symm
    · rw [hc] at h
      obtain rfl := Option.some.inj h
      cases hlow
  · rintro rfl
    decide

theorem utf8Bytes_getLast? (n : Nat) :
    (utf8Bytes n).getLast? = some (if n < 0x80 then n else 0x80 + n % 0x40) := by
  unfold utf8Bytes
  by_cases h : n < 0x80
  · rw [if_pos h, if_pos h]
    rfl
  · rw [if_neg h, if_neg h]
    split
    · rfl
    split
    · rfl
    · rfl

theorem utf8Bytes_slash (c : Char) :
    ((utf8Bytes c.toNat).map UInt8.ofNat).getLast? = some 0x2F ↔ c = '/' := by
  constructor
  · intro h
    rw [List.getLast?_map, utf8Bytes_getLast?, Option.map_some, Option.some.injEq] at h
    apply Char.toNat_inj.mp
    have hn := congrArg UInt8.toNat h
    split at hn
    · rw [UInt8.toNat_ofNat', Nat.mod_eq_of_lt (by omega)] at hn
      exact hn
    · rw [UInt8.toNat_ofNat', Nat.mod_eq_of_lt (by omega)] at hn
      have hslash : (0x2F : UInt8).toNat = 0x2F := rfl
      omega
  · rintro rfl
    decide

-- A string ends with a slash if and only if its bytes do.
theorem slash_iff (cs : List Char) :
    ((ofScalars cs).getLast? = some slash ↔ cs.getLast? = some '/') ∧
      ((scalarsUtf8 cs).getLast? = some 0x2F ↔ cs.getLast? = some '/') := by
  refine ⟨getLast?_flatMap encodeScalar_ne_nil encodeScalar_slash cs, ?_⟩
  rw [scalarsUtf8, utf8Encode_ofScalars]
  refine getLast?_flatMap (fun c => ?_) utf8Bytes_slash cs
  intro hnil
  have hlast := utf8Bytes_getLast? c.toNat
  rw [List.map_eq_nil_iff.mp hnil] at hlast
  cases hlast

-- `withoutTrailingSlash`, on scalar values.
theorem archivePath_scalars (cs : List Char) (type : MemberType) :
    ∃ ds, archivePath (ofScalars cs) type = ofScalars ds ∧
      if type = .directory ∧ (scalarsUtf8 cs).getLast? = some 0x2F then
        (scalarsUtf8 ds).length < (scalarsUtf8 cs).length
      else ds = cs := by
  obtain ⟨hunits, hbytes⟩ := slash_iff cs
  rw [archivePath]
  by_cases hdir : type = .directory
  · rw [if_pos hdir, withoutTrailingSlash]
    by_cases hslash : cs.getLast? = some '/'
    · obtain ⟨front, rfl⟩ := List.getLast?_eq_some_iff.mp hslash
      refine ⟨front, ?_, ?_⟩
      · rw [if_pos (hunits.mpr hslash), ofScalars_append]
        exact List.dropLast_concat
      · rw [if_pos ⟨hdir, hbytes.mpr hslash⟩, scalarsUtf8_append, List.length_append]
        exact Nat.lt_add_of_pos_right (by decide)
    · refine ⟨cs, if_neg (mt hunits.mp hslash), ?_⟩
      rw [if_neg fun h => hslash (hbytes.mp h.2)]
  · refine ⟨cs, if_neg hdir, ?_⟩
    rw [if_neg fun h => hdir h.1]

/-! ### Name and prefix -/

/-- `joinPrefix`, on scalar values. -/
def joinScalars (namePrefix name : List Char) : List Char :=
  if namePrefix = [] then name else namePrefix ++ '/' :: name

theorem joinPrefix_scalars (namePrefix name : List Char) :
    joinPrefix (ofScalars namePrefix) (ofScalars name) =
      ofScalars (joinScalars namePrefix name) := by
  rw [joinPrefix, joinScalars]
  by_cases hnil : namePrefix = []
  · subst hnil
    rfl
  · have hlength : (ofScalars namePrefix).length ≠ 0 := by
      intro hzero
      exact hnil (ofScalars_eq_nil.mp (List.eq_nil_of_length_eq_zero hzero))
    rw [if_neg hlength, if_neg hnil, ofScalars_append, ofScalars_cons]
    rfl

theorem length_joinScalars (namePrefix name : List Char) :
    (scalarsUtf8 (joinScalars namePrefix name)).length =
      if namePrefix = [] then (scalarsUtf8 name).length
      else (scalarsUtf8 namePrefix).length + 1 + (scalarsUtf8 name).length := by
  rw [joinScalars]
  split
  · rfl
  · rw [show '/' :: name = ['/'] ++ name from rfl, scalarsUtf8_append, scalarsUtf8_append,
      List.length_append, List.length_append, Nat.add_assoc]
    rfl

theorem pathBytes_scalars {header : List UInt8} {namePrefix name : List Char}
    (hname : untilNul (header.extract 0 100) = scalarsUtf8 name)
    (hprefixBytes : untilNul (header.extract 345 500) = scalarsUtf8 namePrefix) :
    pathBytes header = scalarsUtf8 (joinScalars namePrefix name) := by
  rw [pathBytes, hname, hprefixBytes, joinScalars]
  by_cases hnil : namePrefix = []
  · rw [if_pos (scalarsUtf8_eq_nil.mpr hnil), if_pos hnil]
  · rw [if_neg (mt scalarsUtf8_eq_nil.mp hnil), if_neg hnil,
      show '/' :: name = ['/'] ++ name from rfl, scalarsUtf8_append, scalarsUtf8_append]
    rfl

-- With a byte order mark in front of the name or the prefix, bytes are lost.
theorem length_join_lt {namePrefix name : List Char}
    (h : byteOrderMark <+: scalarsUtf8 name ∨ byteOrderMark <+: scalarsUtf8 namePrefix) :
    (scalarsUtf8 (joinScalars (withoutByteOrderMark namePrefix)
      (withoutByteOrderMark name))).length < (scalarsUtf8 (joinScalars namePrefix name)).length := by
  have hname := length_withoutByteOrderMark name
  have hprefix := length_withoutByteOrderMark namePrefix
  have hnil : namePrefix = [] → withoutByteOrderMark namePrefix = [] := by
    rintro rfl
    rfl
  rw [length_joinScalars, length_joinScalars]
  obtain hmark | hmark := h
  · have hlength := length_byteOrderMark hmark
    split
    · split
      · omega
      · omega
    · next hne =>
      rw [if_neg (mt hnil hne)]
      omega
  · have hlength := length_byteOrderMark hmark
    have hne : namePrefix ≠ [] := by
      rintro rfl
      exact absurd hlength (by decide)
    rw [if_neg hne]
    split
    · omega
    · omega

/-! ## Accepted headers -/

/-- Each field of a header is in the form of archives and has the value that its digits spell, and
the path is spelled by the bytes of the name and the prefix. -/
structure ReadsExactly (header : List UInt8) (h : TarHeader) : Prop where
  mode : OctalField (header.extract 100 108) h.mode
  size : OctalField (header.extract 124 136) h.size
  checksum : OctalField (header.extract 148 156) (headerSum header)
  path : (decodeFatal (pathBytes header)).map ofScalars = some h.path

/-- The numeric fields are plain, neither the name nor the prefix starts with a byte order mark, and
no directory is marked by a slash at the end. -/
structure PlainHeader (header : List UInt8) : Prop where
  mode : PlainField (header.extract 100 108)
  size : PlainField (header.extract 124 136)
  checksum : PlainField (header.extract 148 156)
  name : ¬ byteOrderMark <+: untilNul (header.extract 0 100)
  namePrefix : ¬ byteOrderMark <+: untilNul (header.extract 345 500)
  slash : ¬ (memberType (header.getD 156 0) = some .directory ∧
    (pathBytes header).getLast? = some 0x2F)

theorem decodeFatal_map_iff {bytes : List UInt8} {cs : List Char} :
    (decodeFatal bytes).map ofScalars = some (ofScalars cs) ↔ scalarsUtf8 cs = bytes := by
  constructor
  · intro h
    obtain ⟨ds, hds, heq⟩ := Option.map_eq_some_iff.mp h
    rw [scalarsUtf8, ← heq]
    exact decodeFatal_eq_some.mp hds
  · intro h
    rw [decodeFatal_eq_some.mpr h, Option.map_some]

theorem path_iff {paths : List JsString} {header : List UInt8} {h : TarHeader}
    (hread : ReadsHeader paths header h) :
    (decodeFatal (pathBytes header)).map ofScalars = some h.path ↔
      ¬ byteOrderMark <+: untilNul (header.extract 0 100) ∧
        ¬ byteOrderMark <+: untilNul (header.extract 345 500) ∧
        ¬ (memberType (header.getD 156 0) = some .directory ∧
          (pathBytes header).getLast? = some 0x2F) := by
  obtain ⟨name, namePrefix, hname, hprefix, hpath⟩ := hread.path
  obtain ⟨name, hnameBytes, rfl⟩ := tarText_ok hname
  obtain ⟨namePrefix, hprefixBytes, rfl⟩ := tarText_ok hprefix
  obtain ⟨-, hpath⟩ := safeArchivePath_ok hpath
  rw [joinPrefix_scalars] at hpath
  obtain ⟨ds, hds, hslash⟩ := archivePath_scalars
    (joinScalars (withoutByteOrderMark namePrefix) (withoutByteOrderMark name)) h.type
  rw [hpath, hds, decodeFatal_map_iff, pathBytes_scalars hnameBytes hprefixBytes, hread.type,
    Option.some.injEq, hnameBytes, hprefixBytes]
  by_cases hmark : byteOrderMark <+: scalarsUtf8 name ∨ byteOrderMark <+: scalarsUtf8 namePrefix
  · have hlt := length_join_lt hmark
    have hle : (scalarsUtf8 ds).length ≤ (scalarsUtf8 (joinScalars
        (withoutByteOrderMark namePrefix) (withoutByteOrderMark name))).length := by
      split at hslash
      · exact Nat.le_of_lt hslash
      · rw [hslash]
    constructor
    · intro heq
      rw [heq] at hle
      omega
    · rintro ⟨hn, hp, -⟩
      exact absurd hmark (not_or.mpr ⟨hn, hp⟩)
  · obtain ⟨hn, hp⟩ := not_or.mp hmark
    rw [withoutByteOrderMark_eq hn, withoutByteOrderMark_eq hp] at hslash
    constructor
    · intro heq
      refine ⟨hn, hp, fun hmarked => ?_⟩
      rw [if_pos hmarked, heq] at hslash
      exact absurd hslash (Nat.lt_irrefl _)
    · rintro ⟨-, -, hunmarked⟩
      rw [if_neg hunmarked] at hslash
      rw [hslash]

theorem readsExactly_iff {paths : List JsString} {header : List UInt8} {h : TarHeader}
    (hheader : readHeader paths header = .ok h) : ReadsExactly header h ↔ PlainHeader header := by
  have hread := readHeader_ok hheader
  have hpath := path_iff hread
  constructor
  · rintro ⟨hmode, hsize, hchecksum, hexact⟩
    obtain ⟨hname, hprefix, hslash⟩ := hpath.mp hexact
    exact ⟨hmode.plain, hsize.plain, hchecksum.plain, hname, hprefix, hslash⟩
  · rintro ⟨hmode, hsize, hchecksum, hname, hprefix, hslash⟩
    exact ⟨hmode.octal hread.mode, hsize.octal hread.size, hchecksum.octal hread.checksum,
      hpath.mpr ⟨hname, hprefix, hslash⟩⟩

-- Among plain headers, only those with the same bytes give the same path.
theorem headerFields_iff (paths : List JsString) (header : List UInt8) :
    match readHeader paths header with
    | .error _ => True
    | .ok h =>
        (ReadsExactly header h ↔ PlainHeader header) ∧
          ∀ paths' header' h', readHeader paths' header' = .ok h' → PlainHeader header →
            PlainHeader header' → h.path = h'.path → pathBytes header = pathBytes header' := by
  split
  · trivial
  · next h hheader =>
    refine ⟨readsExactly_iff hheader, ?_⟩
    intro paths' header' h' hheader' hplain hplain' heq
    have hexact := ((readsExactly_iff hheader).mpr hplain).path
    have hexact' := ((readsExactly_iff hheader').mpr hplain').path
    rw [← heq] at hexact'
    obtain ⟨cs, hcs, hpath⟩ := Option.map_eq_some_iff.mp hexact
    obtain ⟨ds, hds, hpath'⟩ := Option.map_eq_some_iff.mp hexact'
    rw [← decodeFatal_eq_some.mp hcs, ← decodeFatal_eq_some.mp hds, hpath, hpath']

/-! ## A header that other readers read otherwise -/

/-- A file whose size is 49 in the binary form of other writers, and 1 here. -/
def binarySizeHeader : List UInt8 :=
  [0x70, 0x61, 0x63, 0x6B, 0x61, 0x67, 0x65, 0x2F, 0x61] ++ List.replicate 91 0 ++
    [0x30, 0x30, 0x30, 0x30, 0x36, 0x34, 0x34, 0] ++ List.replicate 16 0 ++
    [0x80, 0, 0, 0, 0, 0, 0, 0, 0, 0, 0, 0x31] ++ List.replicate 12 0 ++
    [0x30, 0x30, 0x33, 0x32, 0x33, 0x33, 0, 0x20] ++ [0x30] ++ List.replicate 355 0

/-- An archive of one file with that header. -/
def binarySizeArchive : List UInt8 := binarySizeHeader ++ List.replicate 1536 0

theorem binarySizeArchive_inexact :
    parseTar binarySizeArchive = .ok [⟨js "package/a", .file, 0o644, [0]⟩] ∧
      readHeader [] (binarySizeArchive.take 512) = .ok ⟨js "package/a", .file, 0o644, 1⟩ ∧
      ¬ ReadsExactly (binarySizeArchive.take 512) ⟨js "package/a", .file, 0o644, 1⟩ := by
  refine ⟨by decide +kernel, by decide +kernel, fun hexact => ?_⟩
  have hplain := hexact.size.plain
  revert hplain
  decide +kernel

end Scripts
