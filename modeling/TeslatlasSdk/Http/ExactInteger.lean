import TeslatlasSdk.Http.BoundedJson
import TeslatlasSdk.Json.NumberText

/-!
# `isExactJsonInteger`

The number that `JSON.parse` has made of a token is compared with the integer that the token spells.
-/

open Text Json

namespace Http

/-- The groups of `/^(-?)([0-9]+)(?:\.([0-9]+))?(?:[eE]([+-]?[0-9]+))?$/u`, the last with its
mark. -/
structure NumberParts where
  negative : Bool
  integer : JsString
  fraction : JsString
  exponent : JsString

def numberParts (token : JsString) : Option NumberParts :=
  let (sign, rest) := matchSign token
  let (integer, rest) := spanDigits rest
  let (fraction, rest) := matchFraction rest
  let (exponent, rest) := matchExponent rest
  if integer = [] ∨ rest ≠ [] then none
  else some { negative := !sign.isEmpty, integer, fraction := fraction.drop 1, exponent }

/-- `BigInt(value)`, for a number that is an integer. -/
def integer? : Binary64 → Option Int
  | .infinite _ => none
  | .finite negative significand exponent =>
      if significand % 2 ^ (-exponent).toNat = 0 then
        let n : Int := significand * 2 ^ exponent.toNat / 2 ^ (-exponent).toNat
        some (if negative then -n else n)
      else none

/-- `isExactJsonInteger`, with the lexeme of the number.  `Number` is exact on the exponent of a
token that is not refused anyway. -/
def isExactJsonInteger (value : Binary64) (token : Option JsString) : Bool :=
  match integer? value, token with
  | none, _ => false
  | some _, none => true
  | some n, some token =>
      match numberParts token with
      | none => false
      | some parts =>
          let digits := (parts.integer ++ parts.fraction).dropWhile (· = 0x30)
          if digits = [] then true
          else
            let significant := digits.rdropWhile (· = 0x30)
            let scale : Int := exponentValue parts.exponent - parts.fraction.length +
              digits.length - significant.length
            if scale < 0 ∨ significant.length + scale > 309 then false
            else
              let spelled : Int := digitsValue (significant ++ List.replicate scale.toNat 0x30)
              (if parts.negative then -spelled else spelled) = n

/-- The decimal is the integer. -/
def Denotes (d : Decimal) (n : Int) : Prop :=
  (if d.negative then -(d.digits : Int) else d.digits) * 10 ^ d.exponent.toNat =
    n * 10 ^ (-d.exponent).toNat

instance (d : Decimal) (n : Int) : Decidable (Denotes d n) := inferInstanceAs (Decidable (_ = _))

theorem decimalOfToken_eq {token : JsString} {parts : NumberParts}
    (h : numberParts token = some parts) :
    decimalOfToken token =
      { negative := parts.negative, digits := digitsValue (parts.integer ++ parts.fraction),
        exponent := exponentValue parts.exponent - parts.fraction.length } := by
  unfold numberParts at h
  simp only [Option.ite_none_left_eq_some, not_or, not_not, Option.some.injEq] at h
  obtain ⟨⟨-, hrest⟩, rfl⟩ := h
  have hexponent := (matchExponent_spec (matchFraction (spanDigits (matchSign token).2).2).2).1
  rw [hrest, List.append_nil] at hexponent
  rw [hexponent]
  rfl

-- An integer of a number that a token of zeros denotes.
theorem integer?_of_digits_zero {token : JsString} (h : (decimalOfToken token).digits = 0) :
    integer? (numberOfToken token) = some 0 := by
  rw [numberOfToken, Decimal.toBinary64, h, zero_mul, Binary64.ofRatio, if_pos rfl]
  rw [integer?, Nat.zero_mod, if_pos rfl, Nat.cast_zero, zero_mul, Int.zero_ediv]
  cases (decimalOfToken token).negative <;> rfl

-- The digits before the trailing zeros, and the power of ten that the zeros and the exponent make.
theorem denotes_of_spelled {negative : Bool} {integer fraction : JsString} {exponent : Int}
    {digits significant : JsString} (hdigits : digits = (integer ++ fraction).dropWhile (· = 0x30))
    (hsignificant : significant = digits.rdropWhile (· = 0x30))
    (hscale : 0 ≤ exponent - fraction.length + digits.length - significant.length) :
    Denotes
      { negative, digits := digitsValue (integer ++ fraction),
        exponent := exponent - fraction.length }
      (if negative then
        -(digitsValue (significant ++ List.replicate
          (exponent - fraction.length + digits.length - significant.length).toNat 0x30) : Int)
       else digitsValue (significant ++ List.replicate
          (exponent - fraction.length + digits.length - significant.length).toNat 0x30)) := by
  have hle : significant.length ≤ digits.length := by
    have h := (List.dropWhile_suffix (p := fun v => decide (v = 0x30)) (l := digits.reverse)).length_le
    rw [hsignificant]
    simpa [List.rdropWhile] using h
  have hvalue : digitsValue (integer ++ fraction) =
      digitsValue significant * 10 ^ (digits.length - significant.length) := by
    rw [← digitsValue_dropWhile_zero, ← hdigits, hsignificant]
    exact digitsValue_rdropWhile_zero digits
  have hspelled : ∀ k, digitsValue (significant ++ List.replicate k 0x30) =
      digitsValue significant * 10 ^ k := by
    intro k
    rw [digitsValue_append, List.length_replicate, digitsValue_replicate_zero, Nat.add_zero]
  have hpower : digitsValue (integer ++ fraction) * 10 ^ (exponent - fraction.length).toNat =
      digitsValue (significant ++ List.replicate
        (exponent - fraction.length + digits.length - significant.length).toNat 0x30) *
          10 ^ (-(exponent - fraction.length)).toNat := by
    rw [hvalue, hspelled, mul_assoc, mul_assoc, ← pow_add, ← pow_add]
    congr 2
    omega
  have hint : ((digitsValue (integer ++ fraction) : Nat) : Int) *
        10 ^ (exponent - fraction.length).toNat =
      (digitsValue (significant ++ List.replicate
        (exponent - fraction.length + digits.length - significant.length).toNat 0x30) : Nat) *
          10 ^ (-(exponent - fraction.length)).toNat := by
    exact_mod_cast hpower
  unfold Denotes
  cases negative with
  | false => exact hint
  | true =>
    simp only [if_true]
    rw [neg_mul, neg_mul, hint]

-- A token that passes spells an integer, and the number is that integer.
theorem isExactJsonInteger_spec {token : JsString}
    (h : isExactJsonInteger (numberOfToken token) (some token) = true) :
    ∃ n, Denotes (decimalOfToken token) n ∧ integer? (numberOfToken token) = some n := by
  unfold isExactJsonInteger at h
  cases hinteger : integer? (numberOfToken token) with
  | none => simp [hinteger] at h
  | some n =>
    rw [hinteger] at h
    cases hparts : numberParts token with
    | none => simp [hparts] at h
    | some parts =>
      simp only [hparts] at h
      have hdecimal := decimalOfToken_eq hparts
      by_cases hzero : (parts.integer ++ parts.fraction).dropWhile (· = 0x30) = []
      · have hdigits : (decimalOfToken token).digits = 0 := by
          rw [hdecimal]
          show digitsValue (parts.integer ++ parts.fraction) = 0
          rw [← digitsValue_dropWhile_zero, hzero]
          rfl
        rw [integer?_of_digits_zero hdigits, Option.some.injEq] at hinteger
        subst hinteger
        refine ⟨0, ?_, rfl⟩
        simp [Denotes, hdigits]
      · rw [if_neg hzero] at h
        split at h
        · simp at h
        · next hscale =>
          rw [decide_eq_true_eq] at h
          refine ⟨n, ?_, rfl⟩
          rw [hdecimal, ← h]
          exact denotes_of_spelled rfl rfl (by omega)

-- An integer that a decimal denotes is the only one.
theorem Denotes.unique {d : Decimal} {m n : Int} (hm : Denotes d m) (hn : Denotes d n) : m = n := by
  unfold Denotes at hm hn
  have hpos : (0 : Int) < 10 ^ (-d.exponent).toNat := Int.pow_pos (by decide)
  exact Int.eq_of_mul_eq_mul_right (ne_of_gt hpos) (hm.symm.trans hn)

example : isExactJsonInteger (numberOfToken (js "10100e-2")) (some (js "10100e-2")) = true := by
  decide +kernel

example : isExactJsonInteger (numberOfToken (js "9007199254740993.0"))
    (some (js "9007199254740993.0")) = false := by
  decide +kernel

/-! ## The integers that are refused -/

theorem integer?_bound {x : Binary64} {n : Int} (h : integer? x = some n)
    (hx : ∀ negative m e, x = .finite negative m e → m < 2 ^ 53 ∧ e ≤ 971) :
    n.natAbs < 10 ^ 309 := by
  cases x with
  | infinite negative => cases h
  | finite negative m e =>
    obtain ⟨hbits, hexponent⟩ := hx negative m e rfl
    rw [integer?] at h
    split at h
    · have habs : n.natAbs = m * 2 ^ e.toNat / 2 ^ (-e).toNat := by
        rw [← Option.some.inj h]
        have hcast : ((m : Int) * 2 ^ e.toNat / 2 ^ (-e).toNat) =
            ((m * 2 ^ e.toNat / 2 ^ (-e).toNat : Nat) : Int) := by
          push_cast
          rfl
        rw [hcast]
        cases negative with
        | false => rfl
        | true => exact Int.natAbs_neg _
      have hexponent : e.toNat ≤ 971 := Int.toNat_le.mpr hexponent
      have hpow := Nat.pow_le_pow_right Nat.two_pos hexponent
      calc n.natAbs ≤ m * 2 ^ e.toNat := habs ▸ Nat.div_le_self _ _
        _ ≤ 2 ^ 53 * 2 ^ 971 := Nat.mul_le_mul (Nat.le_of_lt hbits) hpow
        _ < 10 ^ 309 := by decide +kernel
    · cases h

theorem numberOfToken_bound {token : JsString} {n : Int}
    (h : integer? (numberOfToken token) = some n) : n.natAbs < 10 ^ 309 :=
  integer?_bound h fun _ _ _ heq => (ofRatio_finite (Nat.pow_pos (by decide)) heq).2

-- The digits of a number do not start or end with zeros once these are dropped.
theorem digitsValue_ge {u : CodeUnit} {s : JsString} (hu : u ≠ 0x30) (hdigit : isDigit u = true) :
    10 ^ s.length ≤ digitsValue (u :: s) := by
  have hsplit : digitsValue (u :: s) = digitsValue [u] * 10 ^ s.length + digitsValue s :=
    digitsValue_append [u] s
  have hpos : 1 ≤ digitsValue [u] := by
    simp only [isDigit, Bool.and_eq_true, decide_eq_true_eq, UInt16.le_iff_toNat_le] at hdigit
    have hlow : 0x30 ≤ u.toNat := hdigit.1
    have hne : u.toNat ≠ 0x30 := fun heq => hu (UInt16.toNat_inj.mp heq)
    show 1 ≤ 10 * 0 + (u.toNat - 0x30)
    omega
  rw [hsplit]
  calc 10 ^ s.length = 1 * 10 ^ s.length := (Nat.one_mul _).symm
    _ ≤ digitsValue [u] * 10 ^ s.length := Nat.mul_le_mul_right _ hpos
    _ ≤ _ := Nat.le_add_right _ _

theorem digitsValue_mod {s : JsString} {u : CodeUnit} (hu : u ≠ 0x30) (hdigit : isDigit u = true) :
    digitsValue (s ++ [u]) % 10 ≠ 0 := by
  simp only [isDigit, Bool.and_eq_true, decide_eq_true_eq, UInt16.le_iff_toNat_le] at hdigit
  have hlow : 0x30 ≤ u.toNat := hdigit.1
  have hhigh : u.toNat ≤ 0x39 := hdigit.2
  have hne : u.toNat ≠ 0x30 := fun heq => hu (UInt16.toNat_inj.mp heq)
  rw [digitsValue_append_singleton]
  omega

/-! ## Tokens -/

theorem matchFraction_digits (s : JsString) :
    ∀ u ∈ (matchFraction s).1.drop 1, isDigit u = true := by
  unfold matchFraction
  split
  · next v d s =>
    split
    · next h =>
      rw [Bool.and_eq_true] at h
      intro u hu
      rcases List.mem_cons.mp hu with rfl | hu
      · exact h.2
      · exact List.all_eq_true.mp List.all_takeWhile u hu
    · exact nofun
  · exact nofun

-- A digit is neither the start of a fraction nor of an exponent.
theorem matchTail_digit {u : CodeUnit} {s : JsString} (hu : isDigit u = true) :
    (matchExponent (matchFraction (u :: s)).2).2 = u :: s := by
  have hpoint : u ≠ point := by
    rintro rfl
    exact absurd hu (by decide)
  have hmark : isExponentMark u = false := by
    rw [← Bool.not_eq_true]
    intro hmark
    simp only [isExponentMark, Bool.or_eq_true, decide_eq_true_eq] at hmark
    rcases hmark with rfl | rfl
    · exact absurd hu (by decide)
    · exact absurd hu (by decide)
  have hfraction : (matchFraction (u :: s)).2 = u :: s := by
    cases s with
    | nil => rfl
    | cons d s =>
      have hfails : ¬ (decide (u = point) && isDigit d) = true := by simp [hpoint]
      rw [matchFraction, if_neg hfails]
  rw [hfraction]
  unfold matchExponent
  split
  · next v d s heq =>
    obtain ⟨rfl, rfl⟩ := List.cons.inj heq
    rw [if_neg (by simp [hmark])]
    cases s with
    | nil => rfl
    | cons e s =>
      simp only
      rw [if_neg (by simp [hmark])]
  · rfl

theorem spanDigits_of_matchInteger {s integer rest : JsString}
    (h : matchInteger s = some (integer, rest))
    (hend : (matchExponent (matchFraction rest).2).2 = []) : spanDigits s = (integer, rest) := by
  cases s with
  | nil => cases h
  | cons u s =>
    rw [matchInteger] at h
    split at h
    · next hu =>
      obtain ⟨rfl, rfl⟩ := Prod.mk.inj (Option.some.inj h)
      have hs : ∀ v t, s = v :: t → isDigit v = false := by
        rintro v t rfl
        rw [← Bool.not_eq_true]
        intro hv
        rw [matchTail_digit hv] at hend
        cases hend
      have hdigit : ∀ v ∈ [u], isDigit v = true := by
        intro v hv
        rw [List.mem_singleton.mp hv, hu]
        rfl
      exact spanDigits_run hdigit hs
    · split at h
      · next hu =>
        obtain ⟨rfl, rfl⟩ := Prod.mk.inj (Option.some.inj h)
        rw [spanDigits, List.takeWhile_cons, List.dropWhile_cons, hu]
        rfl
      · cases h

-- A number token has the groups of the expression, and the first two are digits.
theorem numberParts_of_token {token : JsString} (h : matchNumber token = some (token, [])) :
    ∃ parts, numberParts token = some parts ∧ (∀ u ∈ parts.integer, isDigit u = true) ∧
      ∀ u ∈ parts.fraction, isDigit u = true := by
  rw [matchNumber] at h
  split at h
  · cases h
  · next integer rest hinteger =>
    obtain ⟨-, hend⟩ := Prod.mk.inj (Option.some.inj h)
    have hspan := spanDigits_of_matchInteger hinteger hend
    have hne : integer ≠ [] := (matchInteger_spec hinteger).2.1
    have hdigits : ∀ u ∈ integer, isDigit u = true := by
      have htake : (matchSign token).2.takeWhile isDigit = integer := congrArg Prod.fst hspan
      rw [← htake]
      exact fun u hu => List.all_eq_true.mp List.all_takeWhile u hu
    refine ⟨⟨!(matchSign token).1.isEmpty, integer, (matchFraction rest).1.drop 1,
      (matchExponent (matchFraction rest).2).1⟩, ?_, hdigits, matchFraction_digits rest⟩
    rw [numberParts]
    simp only [hspan]
    rw [if_neg]
    rintro (hnil | hrest)
    · exact hne hnil
    · exact hrest hend

/-! ## Every exact token passes -/

-- What is left when the zeros around digits are dropped.
theorem stripped {digits : JsString} (hdigits : ∀ u ∈ digits, isDigit u = true)
    (hne : digits.dropWhile (· = 0x30) ≠ []) :
    let significant := (digits.dropWhile (· = 0x30)).rdropWhile (· = 0x30)
    10 ^ significant.length ≤ digitsValue significant * 10 ∧ digitsValue significant % 10 ≠ 0 := by
  intro significant
  have hall : ∀ u ∈ significant, isDigit u = true := fun u hu =>
    hdigits u ((List.dropWhile_sublist _).subset ((List.rdropWhile_prefix _ _).subset hu))
  obtain ⟨u, s, hcons⟩ := List.exists_cons_of_ne_nil hne
  have hhead : u ≠ 0x30 := by
    have hnot := List.head?_dropWhile_not (fun v => decide (v = 0x30)) digits
    rw [hcons] at hnot
    exact of_decide_eq_false hnot
  have hsome : significant ≠ [] := by
    intro hnil
    rw [List.rdropWhile_eq_nil_iff] at hnil
    exact hhead (of_decide_eq_true (hnil u (hcons ▸ List.mem_cons_self)))
  have hlast : significant.getLast hsome ≠ 0x30 := by
    have hnot := List.rdropWhile_last_not (fun v => decide (v = 0x30)) _ hsome
    exact fun heq => hnot (decide_eq_true heq)
  constructor
  · obtain ⟨v, t, hsignificant⟩ := List.exists_cons_of_ne_nil hsome
    have hv : v = u := by
      have hprefix : significant <+: digits.dropWhile (· = 0x30) := List.rdropWhile_prefix _ _
      rw [hcons, hsignificant, List.cons_prefix_cons] at hprefix
      exact hprefix.1
    have hge := digitsValue_ge (hv ▸ hhead) (hall v (by rw [hsignificant]; exact List.mem_cons_self))
      (s := t)
    rw [hsignificant, List.length_cons, Nat.pow_succ]
    exact Nat.mul_le_mul_right 10 hge
  · rw [← List.dropLast_append_getLast hsome]
    exact digitsValue_mod hlast (hall _ (List.getLast_mem hsome))

-- The size of an integer that a decimal denotes.
theorem Denotes.natAbs {d : Decimal} {n : Int} (h : Denotes d n) :
    d.digits * 10 ^ d.exponent.toNat = n.natAbs * 10 ^ (-d.exponent).toNat := by
  unfold Denotes at h
  have habs := congrArg Int.natAbs h
  rw [Int.natAbs_mul, Int.natAbs_mul, Int.natAbs_pow, Int.natAbs_pow] at habs
  cases hsign : d.negative with
  | false =>
    rw [hsign] at habs
    exact habs
  | true =>
    rw [hsign, if_pos rfl, Int.natAbs_neg] at habs
    exact habs

/-- The power of ten behind the significant digits of a token. -/
def NumberParts.scale (parts : NumberParts) : Int :=
  let digits := (parts.integer ++ parts.fraction).dropWhile (· = 0x30)
  exponentValue parts.exponent - parts.fraction.length + digits.length -
    (digits.rdropWhile (· = 0x30)).length

-- An integer of at most 309 digits is spelled by digits and zeros, and there are at most 309.
theorem scale_of_denotes {parts : NumberParts} {n : Int}
    (hdigits : ∀ u ∈ parts.integer ++ parts.fraction, isDigit u = true)
    (hne : (parts.integer ++ parts.fraction).dropWhile (· = 0x30) ≠ [])
    (h : Denotes
      { negative := parts.negative, digits := digitsValue (parts.integer ++ parts.fraction),
        exponent := exponentValue parts.exponent - parts.fraction.length } n)
    (hn : n.natAbs < 10 ^ 309) :
    0 ≤ parts.scale ∧
      (((parts.integer ++ parts.fraction).dropWhile (· = 0x30)).rdropWhile (· = 0x30)).length +
        parts.scale ≤ 309 := by
  obtain ⟨hlow, hmod⟩ := stripped hdigits hne
  have habs := h.natAbs
  simp only at habs
  rw [← digitsValue_dropWhile_zero, digitsValue_rdropWhile_zero] at habs
  have hle : (((parts.integer ++ parts.fraction).dropWhile (· = 0x30)).rdropWhile
      (· = 0x30)).length ≤ ((parts.integer ++ parts.fraction).dropWhile (· = 0x30)).length :=
    (List.rdropWhile_prefix _ _).length_le
  unfold NumberParts.scale
  simp only
  generalize exponentValue parts.exponent - (parts.fraction.length : Int) = exponent at habs ⊢
  generalize (parts.integer ++ parts.fraction).dropWhile (fun u => decide (u = 0x30)) = digits
    at hlow hmod habs hle ⊢
  generalize digits.rdropWhile (fun u => decide (u = 0x30)) = significant at hlow hmod habs hle ⊢
  have hscale : 0 ≤ exponent + digits.length - significant.length := by
    by_contra hneg
    obtain ⟨k, hk⟩ : ∃ k : Nat, (-exponent).toNat = digits.length - significant.length + (k + 1) :=
      ⟨(-exponent).toNat - (digits.length - significant.length) - 1, by omega⟩
    have hzero : exponent.toNat = 0 := by omega
    rw [hzero, Nat.pow_zero, Nat.mul_one, hk, Nat.pow_add, Nat.pow_succ, Nat.mul_comm (10 ^ _),
      ← Nat.mul_assoc] at habs
    have hcancel := Nat.eq_of_mul_eq_mul_right (Nat.pow_pos (by decide)) habs
    rw [hcancel, ← Nat.mul_assoc, Nat.mul_mod_left] at hmod
    exact hmod rfl
  refine ⟨hscale, ?_⟩
  have hspelled : digitsValue significant *
      10 ^ (exponent + digits.length - significant.length).toNat = n.natAbs := by
    have hsum : digits.length - significant.length + exponent.toNat =
        (exponent + digits.length - significant.length).toNat + (-exponent).toNat := by omega
    rw [Nat.mul_assoc, ← Nat.pow_add, hsum, Nat.pow_add, ← Nat.mul_assoc] at habs
    exact Nat.eq_of_mul_eq_mul_right (Nat.pow_pos (by decide)) habs
  have hpow : 10 ^ (significant.length +
      (exponent + digits.length - significant.length).toNat) < 10 ^ 310 := by
    calc 10 ^ (significant.length + (exponent + digits.length - significant.length).toNat)
        = 10 ^ significant.length * 10 ^ (exponent + digits.length - significant.length).toNat :=
          Nat.pow_add _ _ _
      _ ≤ digitsValue significant * 10 *
          10 ^ (exponent + digits.length - significant.length).toNat :=
          Nat.mul_le_mul_right _ hlow
      _ = n.natAbs * 10 := by rw [Nat.mul_right_comm, hspelled]
      _ < 10 ^ 310 := by
          rw [Nat.pow_succ 10 309]
          exact Nat.mul_lt_mul_of_pos_right hn (by decide)
  have hlength := (Nat.pow_lt_pow_iff_right (by decide)).mp hpow
  omega

-- A token passes as soon as it denotes the number's integer.
theorem isExactJsonInteger_complete {token : JsString} {n : Int}
    (htoken : matchNumber token = some (token, []))
    (hvalue : integer? (numberOfToken token) = some n) (h : Denotes (decimalOfToken token) n) :
    isExactJsonInteger (numberOfToken token) (some token) = true := by
  obtain ⟨parts, hparts, hinteger, hfraction⟩ := numberParts_of_token htoken
  rw [decimalOfToken_eq hparts] at h
  have hdigits : ∀ u ∈ parts.integer ++ parts.fraction, isDigit u = true := by
    intro u hu
    rcases List.mem_append.mp hu with hu | hu
    · exact hinteger u hu
    · exact hfraction u hu
  unfold isExactJsonInteger
  rw [hvalue]
  simp only [hparts]
  by_cases hzero : (parts.integer ++ parts.fraction).dropWhile (· = 0x30) = []
  · rw [if_pos hzero]
  · obtain ⟨hscale, hlength⟩ := scale_of_denotes hdigits hzero h (numberOfToken_bound hvalue)
    unfold NumberParts.scale at hscale hlength
    simp only at hscale hlength
    rw [if_neg hzero, if_neg (by omega), decide_eq_true_eq]
    exact Denotes.unique (denotes_of_spelled rfl rfl (by omega)) h

/-! ## The arithmetic of numbers -/

/-- The number nearest to an integer. -/
def nearest (n : Int) : Binary64 := .ofRatio (n < 0) n.natAbs 1

/-- `x + n`, where `x` is an integer or an infinity. -/
def plus (x : Binary64) (n : Int) : Binary64 :=
  match integer? x with
  | none => x
  | some m => nearest (m + n)

/-- `Number(parts[4] ?? "0") - fraction.length + digits.length - significant.length`. -/
def NumberParts.numberScale (parts : NumberParts) : Binary64 :=
  let digits := (parts.integer ++ parts.fraction).dropWhile (· = 0x30)
  plus (plus (plus (nearest (exponentValue parts.exponent)) (-parts.fraction.length))
    digits.length) (-(digits.rdropWhile (· = 0x30)).length)

/-- `isExactJsonInteger`, where the scale is a number that each operation rounds. -/
def isExactJsonIntegerInNumbers (value : Binary64) (token : Option JsString) : Bool :=
  match integer? value, token with
  | none, _ => false
  | some _, none => true
  | some n, some token =>
      match numberParts token with
      | none => false
      | some parts =>
          let digits := (parts.integer ++ parts.fraction).dropWhile (· = 0x30)
          if digits = [] then true
          else
            let significant := digits.rdropWhile (· = 0x30)
            match integer? parts.numberScale with
            | none => false
            | some scale =>
                if scale < 0 ∨ ¬ (integer? (nearest (significant.length + scale))).any (· ≤ 309) then
                  false
                else
                  let spelled : Int := digitsValue (significant ++ List.replicate scale.toNat 0x30)
                  (if parts.negative then -spelled else spelled) = n

theorem integer?_large (negative : Bool) {m : Nat} {e : Int} (he : 0 ≤ e) :
    integer? (.finite negative m e) =
      some (if negative then -((m * 2 ^ e.toNat : Nat) : Int) else (m * 2 ^ e.toNat : Nat)) := by
  have hzero : (-e).toNat = 0 := by omega
  have hcast : (m : Int) * 2 ^ e.toNat / 2 ^ 0 = ((m * 2 ^ e.toNat : Nat) : Int) := by
    rw [pow_zero, Int.ediv_one]
    push_cast
    rfl
  rw [integer?, hzero, Nat.pow_zero, if_pos (Nat.mod_one m)]
  simp only [hcast]

theorem integer?_nearest {n : Int} (h : n.natAbs < 2 ^ 53) : integer? (nearest n) = some n := by
  rcases Nat.eq_zero_or_pos n.natAbs with hzero | hpos
  · rw [nearest, Binary64.ofRatio, if_pos hzero, integer?, Nat.zero_mod, if_pos rfl, Nat.cast_zero,
      zero_mul, Int.zero_ediv, Int.natAbs_eq_zero.mp hzero]
    rfl
  · obtain ⟨heq, -, hlog⟩ := ofNat_eq hpos h
    have hle := Nat.log2_self_le (Nat.pos_iff_ne_zero.mp hpos)
    have hexponent : (-((n.natAbs.log2 : Int) - 52)).toNat = 52 - n.natAbs.log2 := by omega
    have hzero : ((n.natAbs.log2 : Int) - 52).toNat = 0 := by omega
    have hpower : (0 : Int) < 2 ^ (52 - n.natAbs.log2) := by positivity
    rw [nearest, ofRatio_sign _ heq, integer?, hexponent, hzero, if_pos (Nat.mul_mod_left _ _)]
    simp only
    push_cast
    rw [mul_one, Int.mul_ediv_cancel _ (ne_of_gt hpower)]
    by_cases hneg : n < 0
    · rw [if_pos (decide_eq_true hneg), abs_of_neg hneg, neg_neg]
    · rw [if_neg (by simpa using hneg), abs_of_nonneg (not_lt.mp hneg)]

/-- A number below zero, or the infinity. -/
def IsNegative (x : Binary64) : Prop := x = .infinite true ∨ ∃ k, integer? x = some k ∧ k < 0

/-- A number that is not above the safe integers, or the infinity. -/
def IsLow (x : Binary64) : Prop :=
  x = .infinite true ∨ ∃ k, integer? x = some k ∧ k ≤ -(2 ^ 53 : Int)

theorem isLow_nearest {n : Int} (h : n ≤ -(2 ^ 53 : Int)) : IsLow (nearest n) := by
  have hneg : n < 0 := by omega
  have hsize : 2 ^ 53 * 1 ≤ n.natAbs := by omega
  rw [nearest, decide_eq_true hneg]
  rcases ofRatio_large true Nat.one_pos hsize with heq | ⟨m, e, heq, he, hm⟩
  · exact .inl heq
  · refine .inr ⟨_, by rw [heq]; exact integer?_large true he, ?_⟩
    have hcast : (2 ^ 53 : Int) ≤ ((m * 2 ^ e.toNat : Nat) : Int) := by exact_mod_cast hm
    rw [if_pos rfl]
    omega

theorem isNegative_nearest {n : Int} (h : n < 0) : IsNegative (nearest n) := by
  by_cases hsmall : n.natAbs < 2 ^ 53
  · exact .inr ⟨n, integer?_nearest hsmall, h⟩
  · rcases isLow_nearest (n := n) (by omega) with heq | ⟨k, hk, hlow⟩
    · exact .inl heq
    · exact .inr ⟨k, hk, by omega⟩

theorem IsLow.lowered {x : Binary64} (h : IsLow x) {n : Int} (hn : n ≤ 0) : IsLow (plus x n) := by
  rcases h with rfl | ⟨k, hk, hlow⟩
  · exact .inl rfl
  · rw [plus, hk]
    exact isLow_nearest (by omega)

theorem IsLow.raised {x : Binary64} (h : IsLow x) {n : Int} (hn : n < 2 ^ 53) :
    IsNegative (plus x n) := by
  rcases h with rfl | ⟨k, hk, hlow⟩
  · exact .inl rfl
  · rw [plus, hk]
    exact isNegative_nearest (by omega)

theorem IsNegative.lowered {x : Binary64} (h : IsNegative x) {n : Int} (hn : n ≤ 0) :
    IsNegative (plus x n) := by
  rcases h with rfl | ⟨k, hk, hneg⟩
  · exact .inl rfl
  · rw [plus, hk]
    exact isNegative_nearest (by omega)

theorem plus_nearest {n m : Int} (h : n.natAbs < 2 ^ 53) : plus (nearest n) m = nearest (n + m) := by
  rw [plus, integer?_nearest h]

-- The scale is computed without an error, or it is negative and so is what is computed.
theorem numberScale_eq {parts : NumberParts} (length : Nat) (hlength : length < 2 ^ 53)
    (hparts : parts.integer.length + parts.fraction.length ≤ length)
    (hhigh : exponentValue parts.exponent - parts.fraction.length +
      ((parts.integer ++ parts.fraction).dropWhile (· = 0x30)).length ≤ 309)
    (hexponent : exponentValue parts.exponent < 2 ^ 53) :
    integer? parts.numberScale = some parts.scale ∨
      IsNegative parts.numberScale ∧ parts.scale < 0 := by
  have hdigits : ((parts.integer ++ parts.fraction).dropWhile (· = 0x30)).length ≤ length := by
    have hle := (List.dropWhile_sublist (l := parts.integer ++ parts.fraction)
      (fun u => decide (u = 0x30))).length_le
    rw [List.length_append] at hle
    omega
  have hsignificant : (((parts.integer ++ parts.fraction).dropWhile (· = 0x30)).rdropWhile
      (· = 0x30)).length ≤ ((parts.integer ++ parts.fraction).dropWhile (· = 0x30)).length :=
    (List.rdropWhile_prefix _ _).length_le
  unfold NumberParts.numberScale NumberParts.scale
  simp only
  generalize exponentValue parts.exponent = exponent at hhigh hexponent ⊢
  generalize ((parts.integer ++ parts.fraction).dropWhile (fun u => decide (u = 0x30))) = digits
    at hhigh hdigits hsignificant ⊢
  generalize (digits.rdropWhile (fun u => decide (u = 0x30))).length = significant
    at hsignificant ⊢
  by_cases hlow : exponent ≤ -(2 ^ 53 : Int)
  · have hx := (((isLow_nearest hlow).lowered (n := -parts.fraction.length) (by omega)).raised
      (n := digits.length) (by omega)).lowered (n := -significant) (by omega)
    exact .inr ⟨hx, by omega⟩
  rw [plus_nearest (n := exponent) (by omega)]
  by_cases hlow' : exponent + -(parts.fraction.length : Int) ≤ -(2 ^ 53 : Int)
  · have hx := ((isLow_nearest hlow').raised (n := digits.length) (by omega)).lowered
      (n := -significant) (by omega)
    exact .inr ⟨hx, by omega⟩
  rw [plus_nearest (n := exponent + -(parts.fraction.length : Int)) (by omega),
    plus_nearest (n := exponent + -(parts.fraction.length : Int) + digits.length) (by omega)]
  by_cases hsmall : (exponent + -(parts.fraction.length : Int) + digits.length +
      -(significant : Int)).natAbs < 2 ^ 53
  · left
    rw [integer?_nearest hsmall]
    congr 1
  · exact .inr ⟨isNegative_nearest (by omega), by omega⟩

-- A number that is finite has at most 309 digits in front of its point.
theorem numberOfToken_digits {token : JsString} {parts : NumberParts} {n : Int}
    (hparts : numberParts token = some parts)
    (hdigits : ∀ u ∈ parts.integer ++ parts.fraction, isDigit u = true)
    (hne : (parts.integer ++ parts.fraction).dropWhile (· = 0x30) ≠ [])
    (hvalue : integer? (numberOfToken token) = some n) :
    exponentValue parts.exponent - parts.fraction.length +
      ((parts.integer ++ parts.fraction).dropWhile (· = 0x30)).length ≤ 309 := by
  by_contra hgreat
  obtain ⟨u, s, hcons⟩ := List.exists_cons_of_ne_nil hne
  have hhead : u ≠ 0x30 := by
    have hnot := List.head?_dropWhile_not (fun v => decide (v = 0x30))
      (parts.integer ++ parts.fraction)
    rw [hcons] at hnot
    exact of_decide_eq_false hnot
  have hu : isDigit u = true := by
    refine hdigits u ((List.dropWhile_sublist (fun v => decide (v = 0x30))).subset ?_)
    rw [hcons]
    exact List.mem_cons_self
  have hge := digitsValue_ge (s := s) hhead hu
  rw [← hcons, digitsValue_dropWhile_zero] at hge
  rw [hcons, List.length_cons] at hgreat
  have hinfinite : numberOfToken token = .infinite parts.negative := by
    rw [numberOfToken, decimalOfToken_eq hparts, Decimal.toBinary64]
    refine ofRatio_infinite (k := 1026) (Nat.pow_pos (by decide)) (by decide) ?_
    simp only
    generalize exponentValue parts.exponent - (parts.fraction.length : Int) = exponent at hgreat ⊢
    have hbound : 2 ^ 1026 ≤ 10 ^ 309 := by decide +kernel
    have hsum : 309 + (-exponent).toNat ≤ s.length + exponent.toNat := by omega
    calc 2 ^ 1026 * 10 ^ (-exponent).toNat
        ≤ 10 ^ 309 * 10 ^ (-exponent).toNat := Nat.mul_le_mul_right _ hbound
      _ = 10 ^ (309 + (-exponent).toNat) := (Nat.pow_add _ _ _).symm
      _ ≤ 10 ^ (s.length + exponent.toNat) := Nat.pow_le_pow_right (by decide) hsum
      _ = 10 ^ s.length * 10 ^ exponent.toNat := Nat.pow_add _ _ _
      _ ≤ digitsValue (parts.integer ++ parts.fraction) * 10 ^ exponent.toNat :=
          Nat.mul_le_mul_right _ hge
  rw [hinfinite] at hvalue
  cases hvalue

theorem numberParts_length {token : JsString} {parts : NumberParts}
    (h : numberParts token = some parts) :
    parts.integer.length + parts.fraction.length ≤ token.length := by
  unfold numberParts at h
  simp only [Option.ite_none_left_eq_some, not_or, not_not, Option.some.injEq] at h
  obtain ⟨-, rfl⟩ := h
  have hsign := congrArg List.length (matchSign_append token)
  have hinteger := congrArg List.length (spanDigits_append (matchSign token).2)
  have hfraction := congrArg List.length
    (matchFraction_spec (spanDigits (matchSign token).2).2).1
  rw [List.length_append] at hsign hinteger hfraction
  simp only [List.length_drop]
  omega

-- The scale that numbers give decides as the exact one does.
theorem isExactJsonIntegerInNumbers_eq {token : JsString} {n : Int}
    (htoken : matchNumber token = some (token, [])) (hlength : token.length ≤ 2 ^ 53 - 512)
    (hvalue : integer? (numberOfToken token) = some n) :
    isExactJsonIntegerInNumbers (numberOfToken token) (some token) =
      isExactJsonInteger (numberOfToken token) (some token) := by
  obtain ⟨parts, hparts, hinteger, hfraction⟩ := numberParts_of_token htoken
  have hdigits : ∀ u ∈ parts.integer ++ parts.fraction, isDigit u = true := by
    intro u hu
    rcases List.mem_append.mp hu with hu | hu
    · exact hinteger u hu
    · exact hfraction u hu
  unfold isExactJsonIntegerInNumbers isExactJsonInteger
  rw [hvalue]
  simp only [hparts]
  by_cases hzero : (parts.integer ++ parts.fraction).dropWhile (· = 0x30) = []
  · rw [if_pos hzero, if_pos hzero]
  rw [if_neg hzero, if_neg hzero]
  have hhigh := numberOfToken_digits hparts hdigits hzero hvalue
  have hparts := numberParts_length hparts
  rcases numberScale_eq token.length (by omega) hparts hhigh (by omega) with hscale | hneg
  · rw [hscale]
    unfold NumberParts.scale
    simp only
    by_cases hneg : exponentValue parts.exponent - parts.fraction.length +
        ((parts.integer ++ parts.fraction).dropWhile (· = 0x30)).length -
        (((parts.integer ++ parts.fraction).dropWhile (· = 0x30)).rdropWhile (· = 0x30)).length < 0
    · rw [if_pos (Or.inl hneg), if_pos (Or.inl hneg)]
    · have hany : ∀ sum : Int, 0 ≤ sum → sum ≤ 309 →
          (integer? (nearest sum)).any (· ≤ 309) = true := by
        intro sum hlow hhigh
        rw [integer?_nearest (by omega), Option.any_some]
        exact decide_eq_true hhigh
      refine (if_neg (not_or.mpr ⟨hneg, not_not.mpr (hany _ ?_ ?_)⟩)).trans (if_neg ?_).symm
      · omega
      · omega
      · omega
  · obtain ⟨hneg, hscale⟩ := hneg
    unfold NumberParts.scale at hscale
    simp only at hscale
    rw [if_pos (Or.inl hscale)]
    rcases hneg with heq | ⟨k, hk, hk0⟩
    · rw [heq]
      rfl
    · rw [hk]
      exact if_pos (Or.inl hk0)

/-- The rational number that a token denotes. -/
def tokenValue (token : JsString) : ℚ :=
  (if (decimalOfToken token).negative then -((decimalOfToken token).digits : ℚ)
    else (decimalOfToken token).digits) * 10 ^ (decimalOfToken token).exponent

theorem denotes_iff (token : JsString) (n : Int) :
    Denotes (decimalOfToken token) n ↔ tokenValue token = n := by
  have hten : (10 : ℚ) ^ (decimalOfToken token).exponent *
      10 ^ (-(decimalOfToken token).exponent).toNat =
        10 ^ (decimalOfToken token).exponent.toNat := by
    rw [← zpow_natCast, ← zpow_natCast, ← zpow_add₀ (by norm_num)]
    congr 1
    omega
  have hpos : (0 : ℚ) < 10 ^ (-(decimalOfToken token).exponent).toNat := by positivity
  rw [tokenValue, ← mul_left_inj' (ne_of_gt hpos), mul_assoc, hten]
  unfold Denotes
  exact_mod_cast Iff.rfl

-- A token whose number is an integer passes just when it denotes that integer, and the arithmetic
-- of numbers decides the same as long as a string's length leaves room for an exponent.
theorem isExactJsonInteger_iff {token : JsString} {n : Int}
    (htoken : matchNumber token = some (token, []))
    (hvalue : integer? (numberOfToken token) = some n) :
    (isExactJsonInteger (numberOfToken token) (some token) = true ↔ tokenValue token = n) ∧
      (token.length ≤ 2 ^ 53 - 512 →
        (isExactJsonIntegerInNumbers (numberOfToken token) (some token) = true ↔
          tokenValue token = n)) := by
  have hiff : isExactJsonInteger (numberOfToken token) (some token) = true ↔
      tokenValue token = n := by
    rw [← denotes_iff]
    constructor
    · intro h
      obtain ⟨m, hdenotes, hm⟩ := isExactJsonInteger_spec h
      rw [hvalue] at hm
      rw [Option.some.inj hm]
      exact hdenotes
    · exact isExactJsonInteger_complete htoken hvalue
  refine ⟨hiff, fun hlength => ?_⟩
  rw [isExactJsonIntegerInNumbers_eq htoken hlength hvalue]
  exact hiff

theorem isExactJsonInteger_iff_shifted :
    (isExactJsonInteger (numberOfToken (js "12300e-2")) (some (js "12300e-2")) = true ↔
      tokenValue (js "12300e-2") = (123 : Int)) ∧
    ((js "12300e-2").length ≤ 2 ^ 53 - 512 →
      (isExactJsonIntegerInNumbers (numberOfToken (js "12300e-2")) (some (js "12300e-2")) = true ↔
        tokenValue (js "12300e-2") = (123 : Int))) :=
  isExactJsonInteger_iff (by decide +kernel) (by decide +kernel)

end Http
