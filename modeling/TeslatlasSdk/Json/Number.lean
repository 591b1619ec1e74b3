import TeslatlasSdk.Text.Digits

/-!
# JSON number tokens and their values

`matchNumber` takes the longest number token off the front of a text.  The value of a token is the
decimal it denotes, rounded once to the nearest 64-bit binary number, ties to even.
-/

open Text

namespace Json

/-! ## Tokens -/

def minus : CodeUnit := 0x2D

def point : CodeUnit := 0x2E

def isExponentMark (u : CodeUnit) : Bool := u = 0x65 || u = 0x45

def isSign (u : CodeUnit) : Bool := u = 0x2B || u = minus

/-- A run of digits and what follows it. -/
def spanDigits (s : JsString) : JsString × JsString := (s.takeWhile isDigit, s.dropWhile isDigit)

def matchSign : JsString → JsString × JsString
  | [] => ([], [])
  | u :: s => if u = minus then ([u], s) else ([], u :: s)

/-- A lone zero, or digits that do not start with zero. -/
def matchInteger : JsString → Option (JsString × JsString)
  | [] => none
  | u :: s =>
      if u = 0x30 then some ([u], s)
      else if isDigit u then some (u :: (spanDigits s).1, (spanDigits s).2)
      else none

def matchFraction : JsString → JsString × JsString
  | u :: d :: s =>
      if u = point && isDigit d then (u :: d :: (spanDigits s).1, (spanDigits s).2)
      else ([], u :: d :: s)
  | s => ([], s)

def matchExponent : JsString → JsString × JsString
  | u :: d :: s =>
      if isExponentMark u && isDigit d then (u :: d :: (spanDigits s).1, (spanDigits s).2)
      else
        match s with
        | [] => ([], [u, d])
        | e :: s =>
            if isExponentMark u && isSign d && isDigit e then
              (u :: d :: e :: (spanDigits s).1, (spanDigits s).2)
            else ([], u :: d :: e :: s)
  | s => ([], s)

/-- The longest number token at the front of a text, and the rest. -/
def matchNumber (s : JsString) : Option (JsString × JsString) :=
  match matchInteger (matchSign s).2 with
  | none => none
  | some (integer, rest) =>
      let (fraction, rest) := matchFraction rest
      let (exponent, rest) := matchExponent rest
      some ((matchSign s).1 ++ integer ++ fraction ++ exponent, rest)

/-- Units that occur in number tokens. -/
def isNumberUnit (u : CodeUnit) : Bool :=
  isDigit u || isSign u || u = point || isExponentMark u

theorem spanDigits_append (s : JsString) : (spanDigits s).1 ++ (spanDigits s).2 = s :=
  List.takeWhile_append_dropWhile

theorem spanDigits_units (s : JsString) : ∀ u ∈ (spanDigits s).1, isNumberUnit u = true := by
  intro u hu
  have h : isDigit u = true := List.all_eq_true.mp List.all_takeWhile u hu
  simp [isNumberUnit, h]

theorem matchSign_append (s : JsString) : (matchSign s).1 ++ (matchSign s).2 = s := by
  cases s with
  | nil => rfl
  | cons u s =>
    rw [matchSign]
    split <;> simp

theorem matchSign_units (s : JsString) : ∀ u ∈ (matchSign s).1, isNumberUnit u = true := by
  cases s with
  | nil => simp [matchSign]
  | cons v s =>
    rw [matchSign]
    split
    · next h => simp [h, isNumberUnit, isSign]
    · simp

theorem matchInteger_spec {s integer rest : JsString} (h : matchInteger s = some (integer, rest)) :
    integer ++ rest = s ∧ integer ≠ [] ∧ ∀ u ∈ integer, isNumberUnit u = true := by
  cases s with
  | nil => simp [matchInteger] at h
  | cons v s =>
    rw [matchInteger] at h
    split at h
    · next hv =>
      simp only [Option.some.injEq, Prod.mk.injEq] at h
      obtain ⟨rfl, rfl⟩ := h
      simp [hv]
      decide
    split at h
    · next hv =>
      simp only [Option.some.injEq, Prod.mk.injEq] at h
      obtain ⟨rfl, rfl⟩ := h
      refine ⟨by simp [spanDigits_append], by simp, ?_⟩
      intro u hu
      rcases List.mem_cons.mp hu with rfl | hu
      · simp [isNumberUnit, hv]
      · exact spanDigits_units s u hu
    · simp at h

theorem matchFraction_spec (s : JsString) :
    (matchFraction s).1 ++ (matchFraction s).2 = s ∧
      ∀ u ∈ (matchFraction s).1, isNumberUnit u = true := by
  unfold matchFraction
  split
  · next v d s =>
    split
    · next h =>
      rw [Bool.and_eq_true, decide_eq_true_eq] at h
      refine ⟨by simp [spanDigits_append], ?_⟩
      intro u hu
      simp only [List.mem_cons] at hu
      rcases hu with rfl | rfl | hu
      · simp [isNumberUnit, h.1]
      · simp [isNumberUnit, h.2]
      · exact spanDigits_units s u hu
    · simp
  · simp

theorem matchExponent_spec (s : JsString) :
    (matchExponent s).1 ++ (matchExponent s).2 = s ∧
      ∀ u ∈ (matchExponent s).1, isNumberUnit u = true := by
  unfold matchExponent
  split
  · next v d s =>
    split
    · next h =>
      rw [Bool.and_eq_true] at h
      refine ⟨by simp [spanDigits_append], ?_⟩
      intro u hu
      simp only [List.mem_cons] at hu
      rcases hu with rfl | rfl | hu
      · simp [isNumberUnit, h.1]
      · simp [isNumberUnit, h.2]
      · exact spanDigits_units s u hu
    split
    · simp
    · next e s =>
      split
      · next h =>
        simp only [Bool.and_eq_true] at h
        refine ⟨by simp [spanDigits_append], ?_⟩
        intro u hu
        simp only [List.mem_cons] at hu
        rcases hu with rfl | rfl | rfl | hu
        · simp [isNumberUnit, h.1.1]
        · simp [isNumberUnit, h.1.2]
        · simp [isNumberUnit, h.2]
        · exact spanDigits_units s u hu
      · simp
  · simp

-- A match cuts the text in two; the token is not empty and holds number units only.
theorem matchNumber_spec {s token rest : JsString} (h : matchNumber s = some (token, rest)) :
    token ++ rest = s ∧ token ≠ [] ∧ ∀ u ∈ token, isNumberUnit u = true := by
  rw [matchNumber] at h
  split at h
  · simp at h
  · next integer r hi =>
    obtain ⟨hint, hne, hunits⟩ := matchInteger_spec hi
    obtain ⟨hf, hfu⟩ := matchFraction_spec r
    obtain ⟨he, heu⟩ := matchExponent_spec (matchFraction r).2
    simp only [Option.some.injEq, Prod.mk.injEq] at h
    obtain ⟨rfl, rfl⟩ := h
    refine ⟨?_, by simp [hne], ?_⟩
    · rw [List.append_assoc, he, List.append_assoc, hf, List.append_assoc, hint, matchSign_append]
    · intro u hu
      simp only [List.mem_append] at hu
      rcases hu with ((hu | hu) | hu) | hu
      · exact matchSign_units s u hu
      · exact hunits u hu
      · exact hfu u hu
      · exact heu u hu

-- A number starts with a minus sign or a digit.
theorem matchNumber_eq_none {u : CodeUnit} (hd : isDigit u = false) (hm : u ≠ minus)
    (s : JsString) : matchNumber (u :: s) = none := by
  have hz : u ≠ 0x30 := by
    rintro rfl
    exact absurd hd (by decide)
  rw [matchNumber, matchSign, if_neg hm, matchInteger, if_neg hz, if_neg (by simp [hd])]

/-! ## Values -/

/-- A 64-bit binary number that a decimal rounds to: `significand * 2 ^ exponent` with its sign, or
an infinity. -/
inductive Binary64 where
  | finite (negative : Bool) (significand : Nat) (exponent : Int)
  | infinite (negative : Bool)
  deriving DecidableEq, Repr

/-- `Number.isFinite`. -/
def Binary64.isFinite : Binary64 → Bool
  | .finite _ _ _ => true
  | .infinite _ => false

/-- The decimal `digits * 10 ^ exponent` with its sign. -/
structure Decimal where
  negative : Bool
  digits : Nat
  exponent : Int
  deriving DecidableEq, Repr

/-- The exponent part of a token, or zero. -/
def exponentValue : JsString → Int
  | [] => 0
  | _ :: s =>
      match s with
      | [] => 0
      | u :: digits =>
          if u = minus then -(digitsValue digits : Int)
          else if isDigit u then digitsValue (u :: digits)
          else digitsValue digits

/-- What a number token denotes. -/
def decimalOfToken (token : JsString) : Decimal :=
  let (sign, rest) := matchSign token
  let (integer, rest) := spanDigits rest
  let (fraction, exponent) := matchFraction rest
  { negative := !sign.isEmpty
    digits := digitsValue (integer ++ fraction.drop 1)
    exponent := exponentValue exponent - (fraction.drop 1).length }

/-- `n / d` rounded to the nearest integer, ties to even. -/
def roundHalfEven (n d : Nat) : Nat :=
  if 2 * (n % d) < d then n / d
  else if 2 * (n % d) > d then n / d + 1
  else if n / d % 2 = 0 then n / d
  else n / d + 1

/-- `n / (d * 2 ^ e)` as a fraction of naturals. -/
def scaled (n d : Nat) (e : Int) : Nat × Nat :=
  (n * 2 ^ (-e).toNat, d * 2 ^ e.toNat)

/-- The exponent of the greatest power of two that is at most `n / d`. -/
def floorLog2 (n d : Nat) : Int :=
  let k : Int := (n.log2 : Int) - (d.log2 : Int)
  if (scaled n d k).2 ≤ (scaled n d k).1 then k else k - 1

/-- `n / d` with a sign, rounded to 53 significant bits in the exponent range of doubles. -/
def Binary64.ofRatio (negative : Bool) (n d : Nat) : Binary64 :=
  if n = 0 then .finite negative 0 (-1074)
  else
    let e := max (-1074) (floorLog2 n d - 52)
    let m := roundHalfEven (scaled n d e).1 (scaled n d e).2
    let (m, e) := if m = 2 ^ 53 then (2 ^ 52, e + 1) else (m, e)
    if e > 971 then .infinite negative else .finite negative m e

def Decimal.toBinary64 (x : Decimal) : Binary64 :=
  .ofRatio x.negative (x.digits * 10 ^ x.exponent.toNat) (10 ^ (-x.exponent).toNat)

/-- The number that a token denotes. -/
def numberOfToken (token : JsString) : Binary64 := (decimalOfToken token).toBinary64

example : numberOfToken (js "-1.5e1") = .finite true (15 * 2 ^ 49) (-49) := by decide +kernel

example : numberOfToken (js "1e400") = .infinite false := by decide +kernel

end Json
