import TeslatlasSdk.Core.Version
import TeslatlasSdk.Json.Rounding

/-!
# The grammar of semantic versions

A semantic version is three numbers, the identifiers of a prerelease and those of a build.
`parseProtocolVersion` accepts the texts of the versions whose numbers are safe integers, and keeps
every part.
-/

open Text Json

namespace Core

/-! ## Versions -/

/-- A number is written without leading zeros. -/
def IsNumericIdentifier (s : JsString) : Prop := ∃ n, s = decimal n

structure IsBuildIdentifier (s : JsString) : Prop where
  nonempty : s ≠ []
  units : ∀ u ∈ s, isIdentifierUnit u = true

structure IsPrereleaseIdentifier (s : JsString) : Prop extends IsBuildIdentifier s where
  numeric : (∀ u ∈ s, isDigit u = true) → IsNumericIdentifier s

/-- A version of the grammar; without a prerelease or a build it has no identifiers of it. -/
structure SemanticVersion where
  major : Nat
  minor : Nat
  patch : Nat
  prerelease : List JsString
  build : List JsString
  prerelease_identifiers : ∀ s ∈ prerelease, IsPrereleaseIdentifier s
  build_identifiers : ∀ s ∈ build, IsBuildIdentifier s

/-- Identifiers with dots between them. -/
def dotted (identifiers : List JsString) : JsString := [point].intercalate identifiers

/-- What stands behind a mark, with the mark. -/
def marked (mark : CodeUnit) : Option JsString → JsString
  | none => []
  | some s => mark :: s

/-- No identifiers are not written. -/
def dotted? : List JsString → Option JsString
  | [] => none
  | identifiers => some (dotted identifiers)

def plus : CodeUnit := 0x2B

/-- `major.minor.patch[-prerelease][+build]`. -/
def ProtocolVersion.text (version : ProtocolVersion) : JsString :=
  decimal version.major ++ point :: (decimal version.minor ++ point :: (decimal version.patch ++
    (marked hyphen version.prerelease ++ marked plus version.build)))

namespace SemanticVersion

/-- The parts that `parseProtocolVersion` returns. -/
def protocolVersion (version : SemanticVersion) : ProtocolVersion where
  major := version.major
  minor := version.minor
  patch := version.patch
  prerelease := dotted? version.prerelease
  build := dotted? version.build

def text (version : SemanticVersion) : JsString := version.protocolVersion.text

/-- The numbers are safe integers. -/
structure IsSafe (version : SemanticVersion) : Prop where
  major : version.major ≤ maximumSafeInteger
  minor : version.minor ≤ maximumSafeInteger
  patch : version.patch ≤ maximumSafeInteger

end SemanticVersion

/-! ## Runs of units -/

-- A run of units that a test passes is found in front of what starts with a unit that fails it.
theorem span_run {p : CodeUnit → Bool} {run rest : JsString} (hrun : ∀ u ∈ run, p u = true)
    (hrest : ∀ u s, rest = u :: s → p u = false) :
    (run ++ rest).takeWhile p = run ∧ (run ++ rest).dropWhile p = rest := by
  have hhead : rest.takeWhile p = [] ∧ rest.dropWhile p = rest := by
    cases rest with
    | nil => exact ⟨rfl, rfl⟩
    | cons u s =>
      have hu := hrest u s rfl
      exact ⟨by rw [List.takeWhile_cons, hu]; rfl, by rw [List.dropWhile_cons, hu]; rfl⟩
  rw [List.takeWhile_append_of_pos hrun, List.dropWhile_append_of_pos hrun, hhead.1, hhead.2,
    List.append_nil]
  exact ⟨rfl, rfl⟩

theorem not_mem_of_mem_splitOn {x : CodeUnit} {s part : JsString} (h : part ∈ s.splitOn x) :
    x ∉ part := by
  induction s generalizing part with
  | nil =>
    rw [List.splitOn_nil, List.mem_singleton] at h
    rw [h]
    exact List.not_mem_nil
  | cons u s ih =>
    rw [List.splitOn_cons_eq_if_modifyHead] at h
    by_cases hu : u = x
    · rw [if_pos (beq_iff_eq.mpr hu)] at h
      rcases List.mem_cons.mp h with rfl | h
      · exact List.not_mem_nil
      · exact ih h
    · rw [if_neg (by simpa using hu)] at h
      cases hsplit : s.splitOn x with
      | nil => exact absurd hsplit (List.splitOn_ne_nil x s)
      | cons first others =>
        rw [hsplit] at h ih
        rcases List.mem_cons.mp h with rfl | h
        · intro hmem
          rcases List.mem_cons.mp hmem with heq | hmem
          · exact hu heq.symm
          · exact ih List.mem_cons_self hmem
        · exact ih (List.mem_cons_of_mem first h)

/-! ## Numbers -/

theorem decimal_zero : decimal 0 = [0x30] := by
  rw [decimal, if_pos (by decide)]
  rfl

-- Digits without a zero in front are the text of their value.
theorem decimal_digitsValue {u : CodeUnit} {s : JsString} (hu : u ≠ 0x30)
    (hdigits : ∀ v ∈ u :: s, isDigit v = true) : decimal (digitsValue (u :: s)) = u :: s := by
  induction s using List.reverseRecOn with
  | nil =>
    have hdigit := hdigits u List.mem_cons_self
    have hvalue : digitsValue [u] = u.toNat - 0x30 := by
      show 10 * 0 + (u.toNat - 0x30) = _
      omega
    simp only [isDigit, Bool.and_eq_true, decide_eq_true_eq, UInt16.le_iff_toNat_le] at hdigit
    have hlow : 0x30 ≤ u.toNat := hdigit.1
    have hhigh : u.toNat ≤ 0x39 := hdigit.2
    have hsum : 0x30 + (u.toNat - 0x30) = u.toNat := by omega
    rw [hvalue, decimal, if_pos (by omega), hsum, UInt16.ofNat_toNat]
  | append_singleton s v ih =>
    have hinit : decimal (digitsValue (u :: s)) = u :: s := by
      refine ih fun w hw => hdigits w ?_
      rw [← List.cons_append]
      exact List.mem_append_left _ hw
    have hdigit := hdigits v (by simp)
    simp only [isDigit, Bool.and_eq_true, decide_eq_true_eq, UInt16.le_iff_toNat_le] at hdigit
    have hlow : 0x30 ≤ v.toNat := hdigit.1
    have hhigh : v.toNat ≤ 0x39 := hdigit.2
    have hpos : 0 < digitsValue (u :: s) := by
      rw [Nat.pos_iff_ne_zero]
      intro hzero
      rw [hzero, decimal_zero, List.cons.injEq] at hinit
      exact hu hinit.1.symm
    have hlast : (10 * digitsValue (u :: s) + (v.toNat - 0x30)) / 10 = digitsValue (u :: s) := by
      omega
    have hdigitOf : 0x30 + (10 * digitsValue (u :: s) + (v.toNat - 0x30)) % 10 = v.toNat := by
      omega
    rw [← List.cons_append, digitsValue_append_singleton, decimal, if_neg (by omega), hlast, hinit,
      hdigitOf, UInt16.ofNat_toNat]

theorem matchInteger_decimal (n : Nat) {rest : JsString}
    (hrest : ∀ u s, rest = u :: s → isDigit u = false) :
    matchInteger (decimal n ++ rest) = some (decimal n, rest) := by
  rcases Nat.eq_zero_or_pos n with rfl | hn
  · rw [decimal_zero, List.singleton_append, matchInteger, if_pos rfl]
  · obtain ⟨u, s, hdecimal, hu⟩ := head_decimal hn
    have hdigits := isDigit_decimal n
    rw [hdecimal] at hdigits
    obtain ⟨htake, hdrop⟩ := span_run (fun v hv => hdigits v (List.mem_cons_of_mem u hv)) hrest
    have hspan : spanDigits (s ++ rest) = (s, rest) := by rw [spanDigits, htake, hdrop]
    rw [hdecimal, List.cons_append, matchInteger, if_neg hu,
      if_pos (hdigits u List.mem_cons_self), hspan]

theorem matchInteger_eq_some {s digits rest : JsString} (h : matchInteger s = some (digits, rest)) :
    s = digits ++ rest ∧ digits = decimal (digitsValue digits) := by
  obtain ⟨happend, -, -⟩ := matchInteger_spec h
  refine ⟨happend.symm, ?_⟩
  cases s with
  | nil => cases h
  | cons u s =>
    rw [matchInteger] at h
    split at h
    · next hu =>
      obtain ⟨rfl, -⟩ := Prod.mk.inj (Option.some.inj h)
      rw [hu, show digitsValue [0x30] = 0 from rfl, decimal_zero]
    · next hu =>
      split at h
      · next hdigit =>
        obtain ⟨rfl, -⟩ := Prod.mk.inj (Option.some.inj h)
        refine (decimal_digitsValue hu fun v hv => ?_).symm
        rcases List.mem_cons.mp hv with rfl | hv
        · exact hdigit
        · exact List.all_eq_true.mp List.all_takeWhile v hv
      · cases h

/-- `Number.isSafeInteger(value) && value >= 0`, with the integer. -/
def nonNegativeSafeInteger? : Binary64 → Option Nat
  | .infinite _ => none
  | .finite negative m e =>
      let value := m * 2 ^ e.toNat / 2 ^ (-e).toNat
      if m % 2 ^ (-e).toNat = 0 ∧ value ≤ maximumSafeInteger ∧ (negative → value = 0) then some value
      else none

theorem decimalOfToken_digits {digits : JsString} (hdigits : ∀ u ∈ digits, isDigit u = true) :
    decimalOfToken digits = { negative := false, digits := digitsValue digits, exponent := 0 } := by
  have hsign : matchSign digits = ([], digits) := by
    cases digits with
    | nil => rfl
    | cons u s =>
      have hne : u ≠ minus := by
        rintro rfl
        exact absurd (hdigits minus List.mem_cons_self) (by decide)
      rw [matchSign, if_neg hne]
  have hend : ∀ (u : CodeUnit) (s : JsString), [] = u :: s → isDigit u = false := by
    intro u s h
    cases h
  obtain ⟨htake, hdrop⟩ := span_run hdigits hend
  rw [List.append_nil] at htake hdrop
  rw [decimalOfToken, hsign]
  simp only
  rw [spanDigits, htake, hdrop]
  show Decimal.mk false (digitsValue (digits ++ [])) (0 - 0) = _
  rw [List.append_nil]
  rfl

-- The number that digits are converted to is safe just when the integer is.
theorem parseSafeInteger_number {digits : JsString} (hdigits : ∀ u ∈ digits, isDigit u = true) :
    parseSafeInteger digits = nonNegativeSafeInteger? (numberOfToken digits) := by
  have hnumber : numberOfToken digits = .ofNat (digitsValue digits) := by
    rw [numberOfToken, decimalOfToken_digits hdigits, Decimal.toBinary64]
    show Binary64.ofRatio false (digitsValue digits * 1) 1 = _
    rw [Nat.mul_one]
    rfl
  rw [hnumber, parseSafeInteger]
  generalize digitsValue digits = n
  rcases Nat.eq_zero_or_pos n with rfl | hn
  · rw [Binary64.ofNat, Binary64.ofRatio, if_pos rfl, nonNegativeSafeInteger?]
    simp
  by_cases hsafe : n ≤ maximumSafeInteger
  · have hbits : n < 2 ^ 53 := by
      rw [maximumSafeInteger] at hsafe
      omega
    obtain ⟨heq, -, hlog⟩ := ofNat_eq hn hbits
    have hneg : (-((n.log2 : Int) - 52)).toNat = 52 - n.log2 := by omega
    have hpos : ((n.log2 : Int) - 52).toNat = 0 := by omega
    have hvalue : n * 2 ^ (52 - n.log2) * 2 ^ 0 / 2 ^ (52 - n.log2) = n := by
      rw [Nat.pow_zero, Nat.mul_one, Nat.mul_div_cancel _ (Nat.two_pow_pos _)]
    rw [heq, nonNegativeSafeInteger?, hneg, hpos, hvalue, if_pos hsafe,
      if_pos ⟨Nat.mul_mod_left _ _, hsafe, fun hfalse => absurd hfalse Bool.false_ne_true⟩]
  · have hlarge : 2 ^ 53 * 1 ≤ n := by
      rw [maximumSafeInteger] at hsafe
      omega
    rw [if_neg hsafe]
    rcases ofRatio_large false Nat.one_pos hlarge with heq | ⟨m, e, heq, he, hm⟩
    · rw [Binary64.ofNat, heq]
      rfl
    · have hneg : (-e).toNat = 0 := by omega
      rw [Binary64.ofNat, heq, nonNegativeSafeInteger?, hneg, Nat.pow_zero, Nat.div_one, if_neg]
      rintro ⟨-, hle, -⟩
      rw [maximumSafeInteger] at hle
      omega

theorem parseSafeInteger_decimal {n : Nat} (h : n ≤ maximumSafeInteger) :
    parseSafeInteger (decimal n) = some n := by
  rw [parseSafeInteger, digitsValue_decimal, if_pos h]

theorem parseSafeInteger_eq_some {digits : JsString} {n : Nat}
    (h : parseSafeInteger digits = some n) : n = digitsValue digits ∧ n ≤ maximumSafeInteger := by
  rw [parseSafeInteger] at h
  split at h
  · next hle =>
    obtain rfl := Option.some.inj h
    exact ⟨rfl, hle⟩
  · cases h

/-! ## Identifiers -/

def isDottedUnit (u : CodeUnit) : Bool := isIdentifierUnit u || u = point

/-- A text does not go on with a unit of dotted identifiers. -/
def EndsIdentifiers (rest : JsString) : Prop := ∀ u s, rest = u :: s → isDottedUnit u = false

theorem point_not_mem {s : JsString} (h : IsBuildIdentifier s) : point ∉ s := by
  intro hmem
  exact absurd (h.units point hmem) (by decide)

theorem splitOn_dotted {identifiers : List JsString} (hne : identifiers ≠ [])
    (h : ∀ s ∈ identifiers, IsBuildIdentifier s) :
    (dotted identifiers).splitOn point = identifiers :=
  List.splitOn_intercalate point (fun s hs => point_not_mem (h s hs)) hne

theorem dotted_units {identifiers : List JsString} (h : ∀ s ∈ identifiers, IsBuildIdentifier s) :
    ∀ u ∈ dotted identifiers, isDottedUnit u = true := by
  induction identifiers with
  | nil => exact nofun
  | cons s identifiers ih =>
    have hs : ∀ u ∈ s, isDottedUnit u = true := fun u hu => by
      rw [isDottedUnit, (h s List.mem_cons_self).units u hu, Bool.true_or]
    have hrest := ih fun t ht => h t (List.mem_cons_of_mem s ht)
    cases identifiers with
    | nil =>
      rw [dotted, List.intercalate_singleton]
      exact hs
    | cons t identifiers =>
      rw [dotted, List.intercalate_cons_cons]
      intro u hu
      rcases List.mem_append.mp hu with hu | hu
      · rcases List.mem_append.mp hu with hu | hu
        · exact hs u hu
        · rw [List.mem_singleton.mp hu]
          decide
      · exact hrest u hu

theorem matchIdentifiers_dotted {identifiers : List JsString} (hne : identifiers ≠ [])
    (h : ∀ s ∈ identifiers, IsBuildIdentifier s) {rest : JsString} (hrest : EndsIdentifiers rest) :
    matchIdentifiers (dotted identifiers ++ rest) = some (dotted identifiers, rest) := by
  obtain ⟨hrun, hlater⟩ := span_run (dotted_units h) hrest
  have hparts : (identifiers.any List.isEmpty) = false := by
    rw [List.any_eq_false]
    intro s hs
    simpa using (h s hs).nonempty
  show (if (((dotted identifiers ++ rest).takeWhile isDottedUnit).splitOn point).any List.isEmpty
      then none else some ((dotted identifiers ++ rest).takeWhile isDottedUnit,
        (dotted identifiers ++ rest).dropWhile isDottedUnit)) = _
  rw [hrun, hlater, splitOn_dotted hne h, hparts]
  rfl

theorem mem_dotted {identifiers : List JsString} {s : JsString} (hs : s ∈ identifiers) :
    ∀ u ∈ s, u ∈ dotted identifiers := by
  intro u hu
  induction identifiers with
  | nil => cases hs
  | cons t identifiers ih =>
    cases identifiers with
    | nil =>
      rw [dotted, List.intercalate_singleton]
      rw [List.mem_singleton] at hs
      rw [← hs]
      exact hu
    | cons t' identifiers =>
      rw [dotted, List.intercalate_cons_cons]
      rcases List.mem_cons.mp hs with rfl | hs
      · exact List.mem_append_left _ (List.mem_append_left _ hu)
      · exact List.mem_append_right _ (ih hs)

-- What is matched is what its identifiers make.
theorem matchIdentifiers_eq_some {s run rest : JsString}
    (h : matchIdentifiers s = some (run, rest)) :
    s = run ++ rest ∧ ∃ identifiers, identifiers ≠ [] ∧ run = dotted identifiers ∧
      run.splitOn point = identifiers ∧ ∀ part ∈ identifiers, IsBuildIdentifier part := by
  change (if ((s.takeWhile isDottedUnit).splitOn point).any List.isEmpty then none
    else some (s.takeWhile isDottedUnit, s.dropWhile isDottedUnit)) = some (run, rest) at h
  split at h
  · cases h
  · next hparts =>
    obtain ⟨hrun, hrest⟩ := Prod.mk.inj (Option.some.inj h)
    rw [hrun] at hparts
    refine ⟨by rw [← hrun, ← hrest, List.takeWhile_append_dropWhile], run.splitOn point,
      List.splitOn_ne_nil point run, (List.intercalate_splitOn point).symm, rfl, ?_⟩
    intro part hpart
    refine ⟨?_, fun u hu => ?_⟩
    · rintro rfl
      exact hparts (List.any_eq_true.mpr ⟨[], hpart, rfl⟩)
    · have hmem : u ∈ run := by
        have hsplit : List.intercalate [point] (run.splitOn point) = run :=
          List.intercalate_splitOn point
        rw [← hsplit]
        exact mem_dotted hpart u hu
      have hunit : isDottedUnit u = true := by
        rw [← hrun] at hmem
        exact List.all_eq_true.mp List.all_takeWhile u hmem
      rw [isDottedUnit, Bool.or_eq_true, decide_eq_true_eq] at hunit
      rcases hunit with hunit | rfl
      · exact hunit
      · exact absurd hu (not_mem_of_mem_splitOn hpart)

/-! ## Marked parts -/

theorem matchMarked_dotted (mark : CodeUnit) {identifiers : List JsString}
    (h : ∀ s ∈ identifiers, IsBuildIdentifier s) {rest : JsString} (hrest : EndsIdentifiers rest)
    (hmark : ∀ u s, rest = u :: s → u ≠ mark) :
    matchMarked mark (marked mark (dotted? identifiers) ++ rest) =
      some (dotted? identifiers, rest) := by
  cases identifiers with
  | nil =>
    show matchMarked mark rest = some (none, rest)
    cases rest with
    | nil => rfl
    | cons u s => rw [matchMarked, if_neg (hmark u s rfl)]
  | cons s identifiers =>
    show matchMarked mark (mark :: (dotted (s :: identifiers) ++ rest)) = _
    rw [matchMarked, if_pos rfl, matchIdentifiers_dotted (List.cons_ne_nil s identifiers) h hrest]
    rfl

theorem matchMarked_eq_some {mark : CodeUnit} {s rest : JsString} {found : Option JsString}
    (h : matchMarked mark s = some (found, rest)) :
    s = marked mark found ++ rest ∧ ∃ identifiers, found = dotted? identifiers ∧
      (∀ run, found = some run → run.splitOn point = identifiers) ∧
      ∀ part ∈ identifiers, IsBuildIdentifier part := by
  have hnone : ∀ rest, s = rest → s = marked mark none ++ rest ∧ ∃ identifiers,
      (none : Option JsString) = dotted? identifiers ∧
      (∀ run, (none : Option JsString) = some run → run.splitOn point = identifiers) ∧
      ∀ part ∈ identifiers, IsBuildIdentifier part :=
    fun rest hrest => ⟨hrest, [], rfl, nofun, nofun⟩
  cases s with
  | nil =>
    obtain ⟨rfl, rfl⟩ := Prod.mk.inj (Option.some.inj h)
    exact hnone [] rfl
  | cons u s =>
    rw [matchMarked] at h
    split at h
    · next hu =>
      rw [Option.map_eq_some_iff] at h
      obtain ⟨⟨run, later⟩, hmatch, hfound⟩ := h
      obtain ⟨rfl, rfl⟩ := Prod.mk.inj hfound
      obtain ⟨happend, identifiers, hne, hrun, hsplit, hparts⟩ := matchIdentifiers_eq_some hmatch
      refine ⟨by rw [hu, happend]; rfl, identifiers, ?_, ?_, hparts⟩
      · cases identifiers with
        | nil => exact absurd rfl hne
        | cons first others => exact congrArg some hrun
      · rintro _ ⟨⟩
        exact hsplit
    · obtain ⟨rfl, rfl⟩ := Prod.mk.inj (Option.some.inj h)
      exact hnone (u :: s) rfl

/-! ## Prereleases -/

-- A part is refused when it is a number with a zero in front.
theorem isInvalidNumeric_eq_false {part : JsString} :
    isInvalidNumeric part = false ↔
      (part ≠ [] → (∀ u ∈ part, isDigit u = true) → IsNumericIdentifier part) := by
  cases part with
  | nil => exact ⟨fun _ hne => absurd rfl hne, fun _ => rfl⟩
  | cons u s =>
    have hiff : isInvalidNumeric (u :: s) = true ↔
        (∀ v ∈ u :: s, isDigit v = true) ∧ u = 0x30 ∧ s ≠ [] := by
      simp only [isInvalidNumeric, List.isEmpty_cons, Bool.not_false, Bool.true_and,
        Bool.and_eq_true, List.all_eq_true, decide_eq_true_eq, List.head?_cons, Option.some.injEq,
        List.length_cons, and_assoc]
      rw [show 1 < s.length + 1 ↔ s ≠ [] from by
        rw [← List.length_pos_iff]
        omega]
    rw [← Bool.not_eq_true, hiff]
    constructor
    · intro hvalid _ hdigits
      by_cases hu : u = 0x30
      · have hs : s = [] := by
          by_contra hs
          exact hvalid ⟨hdigits, hu, hs⟩
        exact ⟨0, by rw [hu, hs, decimal_zero]⟩
      · exact ⟨_, (decimal_digitsValue hu hdigits).symm⟩
    · rintro hnumeric ⟨hdigits, hu, hs⟩
      obtain ⟨n, hn⟩ := hnumeric (List.cons_ne_nil u s) hdigits
      rcases Nat.eq_zero_or_pos n with rfl | hpos
      · rw [decimal_zero, List.cons.injEq] at hn
        exact hs hn.2
      · obtain ⟨v, t, hdecimal, hv⟩ := head_decimal hpos
        rw [hdecimal, List.cons.injEq] at hn
        exact hv (hn.1.symm.trans hu)

theorem hasInvalidNumericPrerelease_dotted {identifiers : List JsString}
    (h : ∀ s ∈ identifiers, IsPrereleaseIdentifier s) :
    hasInvalidNumericPrerelease (dotted? identifiers) = false := by
  cases identifiers with
  | nil => rfl
  | cons s identifiers =>
    show ((dotted (s :: identifiers)).splitOn point).any isInvalidNumeric = false
    rw [splitOn_dotted (List.cons_ne_nil s identifiers) fun t ht =>
      (h t ht).toIsBuildIdentifier, List.any_eq_false]
    intro t ht
    rw [Bool.not_eq_true, isInvalidNumeric_eq_false]
    exact fun _ => (h t ht).numeric

/-! ## Texts of versions -/

theorem marked_head {mark u : CodeUnit} {found : Option JsString} {s : JsString}
    (h : marked mark found = u :: s) : u = mark := by
  cases found with
  | none => cases h
  | some run =>
    rw [marked, List.cons.injEq] at h
    exact h.1.symm

theorem dotted_ends {mark : CodeUnit} (hmark : isDottedUnit mark = false) (found : Option JsString) :
    EndsIdentifiers (marked mark found) := by
  intro u s heq
  rw [marked_head heq]
  exact hmark

-- The text of a version is parsed into its parts.
theorem parseProtocolVersion_text_eq (version : SemanticVersion) (hsafe : version.IsSafe) :
    parseProtocolVersion version.text = .ok version.protocolVersion := by
  have hprerelease : ∀ s ∈ version.prerelease, IsBuildIdentifier s :=
    fun s hs => (version.prerelease_identifiers s hs).toIsBuildIdentifier
  have hpoint : ∀ (rest : JsString) u s, point :: rest = u :: s → isDigit u = false := by
    rintro rest u s ⟨⟩
    rfl
  have hmarked : ∀ u s, marked hyphen (dotted? version.prerelease) ++
      marked plus (dotted? version.build) = u :: s → isDigit u = false := by
    intro u s heq
    cases hfound : marked hyphen (dotted? version.prerelease) with
    | cons v run =>
      rw [hfound, List.cons_append, List.cons.injEq] at heq
      rw [← heq.1, marked_head hfound]
      rfl
    | nil =>
      rw [hfound, List.nil_append] at heq
      rw [marked_head heq]
      rfl
  have hplus : ∀ u s, marked plus (dotted? version.build) = u :: s → u ≠ hyphen := by
    intro u s heq
    rw [marked_head heq]
    decide
  have hend : EndsIdentifiers [] := nofun
  have hbuild : matchMarked plus (marked plus (dotted? version.build)) =
      some (dotted? version.build, []) := by
    have h := matchMarked_dotted plus version.build_identifiers hend nofun
    rw [List.append_nil] at h
    exact h
  have hmatch : matchSemanticVersion version.text =
      some ⟨decimal version.major, decimal version.minor, decimal version.patch,
        dotted? version.prerelease, dotted? version.build⟩ := by
    rw [matchSemanticVersion, SemanticVersion.text, ProtocolVersion.text]
    rw [matchInteger_decimal _ (hpoint _)]
    simp only [SemanticVersion.protocolVersion, Option.bind_eq_bind, Option.bind_some, matchUnit,
      if_true]
    rw [matchInteger_decimal _ (hpoint _)]
    simp only [Option.bind_some, if_true]
    rw [matchInteger_decimal _ hmarked]
    simp only [Option.bind_some]
    rw [matchMarked_dotted _ hprerelease (dotted_ends (by decide) _) hplus]
    simp only [Option.bind_some]
    rw [show (0x2B : CodeUnit) = plus from rfl, hbuild]
    rfl
  rw [parseProtocolVersion, hmatch]
  simp only [parseSafeInteger_decimal hsafe.major, parseSafeInteger_decimal hsafe.minor,
    parseSafeInteger_decimal hsafe.patch,
    hasInvalidNumericPrerelease_dotted version.prerelease_identifiers]
  rfl

theorem matchUnit_eq_some {unit : CodeUnit} {s rest : JsString}
    (h : matchUnit unit s = some rest) : s = unit :: rest := by
  cases s with
  | nil => cases h
  | cons u s =>
    rw [matchUnit] at h
    split at h
    · next hu => rw [hu, Option.some.inj h]
    · cases h

-- A match cuts a text into the parts of a version.
theorem matchSemanticVersion_eq_some {value : JsString} {found : SemanticVersionMatch}
    (h : matchSemanticVersion value = some found) :
    value = found.major ++ point :: (found.minor ++ point :: (found.patch ++
        (marked hyphen found.prerelease ++ marked plus found.build))) ∧
      (∀ digits ∈ [found.major, found.minor, found.patch],
        digits = decimal (digitsValue digits)) ∧
      (∃ identifiers, found.prerelease = dotted? identifiers ∧
        (∀ run, found.prerelease = some run → run.splitOn point = identifiers) ∧
        ∀ part ∈ identifiers, IsBuildIdentifier part) ∧
      ∃ identifiers, found.build = dotted? identifiers ∧
        ∀ part ∈ identifiers, IsBuildIdentifier part := by
  simp only [matchSemanticVersion, Option.bind_eq_bind, Option.bind_eq_some_iff,
    Prod.exists] at h
  obtain ⟨major, s₁, hmajor, s₂, hpoint, minor, s₃, hminor, s₄, hpoint', patch, s₅, hpatch,
    prerelease, s₆, hprerelease, build, s₇, hbuild, h⟩ := h
  split at h
  · next hend =>
    obtain rfl := Option.some.inj h
    rw [List.isEmpty_iff] at hend
    obtain ⟨rfl, hmajorText⟩ := matchInteger_eq_some hmajor
    obtain rfl := matchUnit_eq_some hpoint
    obtain ⟨rfl, hminorText⟩ := matchInteger_eq_some hminor
    obtain rfl := matchUnit_eq_some hpoint'
    obtain ⟨rfl, hpatchText⟩ := matchInteger_eq_some hpatch
    obtain ⟨rfl, hidentifiers⟩ := matchMarked_eq_some hprerelease
    obtain ⟨hlast, identifiers, hfound, -, hparts⟩ := matchMarked_eq_some hbuild
    rw [hend, List.append_nil] at hlast
    refine ⟨by rw [hlast]; rfl, ?_, hidentifiers, identifiers, hfound, hparts⟩
    simp only [List.mem_cons, List.not_mem_nil, or_false, forall_eq_or_imp, forall_eq]
    exact ⟨hmajorText, hminorText, hpatchText⟩
  · cases h

-- A text that is parsed is that of a version, with its parts.
theorem parseProtocolVersion_eq_ok {value : JsString} {version : ProtocolVersion}
    (h : parseProtocolVersion value = .ok version) :
    ∃ v : SemanticVersion, v.IsSafe ∧ v.text = value ∧ v.protocolVersion = version := by
  rw [parseProtocolVersion] at h
  split at h
  · cases h
  · next found hmatch =>
    split at h
    · next major minor patch hmajor hminor hpatch =>
      split at h
      · cases h
      · next hvalid =>
        obtain rfl := Except.ok.inj h
        obtain ⟨hmajor, hsafe⟩ := parseSafeInteger_eq_some hmajor
        obtain ⟨hminor, hsafe'⟩ := parseSafeInteger_eq_some hminor
        obtain ⟨hpatch, hsafe''⟩ := parseSafeInteger_eq_some hpatch
        obtain ⟨hvalue, hdigits, ⟨prerelease, hprerelease, hsplit, hparts⟩, build, hbuild,
          hbuilds⟩ := matchSemanticVersion_eq_some hmatch
        have hnumeric : ∀ part ∈ prerelease, IsPrereleaseIdentifier part := by
          intro part hpart
          refine ⟨hparts part hpart, fun hall => ?_⟩
          cases prerelease with
          | nil => cases hpart
          | cons first others =>
            have hinvalid : (first :: others).any isInvalidNumeric = false := by
              rw [Bool.not_eq_true, hprerelease] at hvalid
              rw [← hsplit _ hprerelease]
              exact hvalid
            have hpartValid := List.any_eq_false.mp hinvalid part hpart
            rw [Bool.not_eq_true] at hpartValid
            exact isInvalidNumeric_eq_false.mp hpartValid (hparts part hpart).nonempty hall
        refine ⟨⟨major, minor, patch, prerelease, build, hnumeric, hbuilds⟩,
          ⟨hsafe, hsafe', hsafe''⟩, ?_, ?_⟩
        · rw [hvalue, hdigits found.major (by simp), hdigits found.minor (by simp),
            hdigits found.patch (by simp), ← hmajor, ← hminor, ← hpatch, hprerelease, hbuild]
          rfl
        · rw [hprerelease, hbuild]
          rfl
    · cases h

/-- What is made of a text: the parts of a version, from which the text can be written again, or an
error where the text is not that of a version with safe numbers. -/
def ParsesExactly (value : JsString) : Except TeslatlasError ProtocolVersion → Prop
  | .ok version =>
      version.text = value ∧
        ∃ v : SemanticVersion, v.IsSafe ∧ v.text = value ∧ v.protocolVersion = version
  | .error error =>
      error = .invalidProtocolVersion ∧ ¬ ∃ v : SemanticVersion, v.IsSafe ∧ v.text = value

theorem parseProtocolVersion_exact (value : JsString) :
    ParsesExactly value (parseProtocolVersion value) := by
  cases hresult : parseProtocolVersion value with
  | ok version =>
    obtain ⟨v, hsafe, htext, hversion⟩ := parseProtocolVersion_eq_ok hresult
    exact ⟨by rw [← hversion]; exact htext, v, hsafe, htext, hversion⟩
  | error error =>
    refine ⟨parseProtocolVersion_error hresult, ?_⟩
    rintro ⟨v, hsafe, rfl⟩
    rw [parseProtocolVersion_text_eq v hsafe] at hresult
    cases hresult

end Core
