import TeslatlasSdk.Json.Rounding

/-!
# `String` of a number

The shortest digits that round to the number, nearest ones first, laid out as scripts lay them out.
A number token of that text is read as the number again.
-/

open Text

namespace Json

/-! ## Digits -/

/-- Digits with no zeros at the end, and how many of them stand before the point. -/
structure NumberDigits where
  digits : JsString
  before : Int
  deriving DecidableEq, Repr

/-- The digits of `significand * 10 ^ exponent`. -/
def NumberDigits.ofScaled (significand : Nat) (exponent : Int) : NumberDigits :=
  { digits := (decimal significand).rdropWhile (· = 0x30)
    before := exponent + (decimal significand).length }

def NumberDigits.toDecimal (x : NumberDigits) : Decimal :=
  { negative := false, digits := digitsValue x.digits, exponent := x.before - x.digits.length }

/-- The exponent of the greatest power of ten that is at most `n / d`. -/
def floorLog10 (n d : Nat) : Int :=
  let k : Int := ((decimal n).length : Int) - (decimal d).length
  if d * 10 ^ k.toNat ≤ n * 10 ^ (-k).toNat then k else k - 1

/-- The digits next to `n / d` among those of at most `k` digits, the nearer ones first. -/
def neighbours (n d k : Nat) : List NumberDigits :=
  let exponent := floorLog10 n d + 1 - k
  let numerator := n * 10 ^ (-exponent).toNat
  let denominator := d * 10 ^ exponent.toNat
  let below := numerator / denominator
  let rest := numerator % denominator
  if 2 * rest < denominator ∨ 2 * rest = denominator ∧ below % 2 = 0 then
    [.ofScaled below exponent, .ofScaled (below + 1) exponent]
  else [.ofScaled (below + 1) exponent, .ofScaled below exponent]

/-- All the digits of `m * 2 ^ e`. -/
def exactDigits (m : Nat) (e : Int) : NumberDigits :=
  .ofScaled (m * 2 ^ e.toNat * 5 ^ (-e).toNat) (-((-e).toNat : Int))

/-- The fewest digits that round to `m * 2 ^ e`.  There are some of at most 17. -/
def shortestDigits (m : Nat) (e : Int) : NumberDigits :=
  (((List.range 17).flatMap fun k => neighbours (m * 2 ^ e.toNat) (2 ^ (-e).toNat) (k + 1)).find?
    fun x => x.digits ≠ [] ∧ x.toDecimal.toBinary64 = .finite false m e).getD (exactDigits m e)

/-! ## Layout -/

/-- Positional where that takes at most 21 digits or six zeros, else with an exponent. -/
def NumberDigits.layout (x : NumberDigits) : JsString :=
  let k : Int := x.digits.length
  if k ≤ x.before ∧ x.before ≤ 21 then
    x.digits ++ List.replicate (x.before - k).toNat 0x30
  else if 0 < x.before ∧ x.before ≤ 21 then
    x.digits.take x.before.toNat ++ point :: x.digits.drop x.before.toNat
  else if -6 < x.before ∧ x.before ≤ 0 then
    0x30 :: point :: (List.replicate (-x.before).toNat 0x30 ++ x.digits)
  else
    x.digits.take 1 ++ (if x.digits.length = 1 then [] else point :: x.digits.drop 1) ++
      0x65 :: (if x.before < 1 then minus else 0x2B) :: decimal (x.before - 1).natAbs

/-- `String(x)`. -/
def numberToString : Binary64 → JsString
  | .infinite negative => if negative then js "-Infinity" else js "Infinity"
  | .finite negative m e =>
      if m = 0 then [0x30]
      else if negative then minus :: (shortestDigits m e).layout
      else (shortestDigits m e).layout

example : numberToString (numberOfToken (js "1e23")) = js "1e+23" := by decide +kernel

example : numberToString (numberOfToken (js "0.00000012")) = js "1.2e-7" := by decide +kernel

example : numberToString (numberOfToken (js "5e-324")) = js "5e-324" := by decide +kernel

example : numberToString (numberOfToken (js "-9007199254740993")) = js "-9007199254740992" := by
  decide +kernel

/-! ## The digits round to the number -/

/-- What digits that are laid out are made of. -/
structure NumberDigits.Proper (x : NumberDigits) : Prop where
  digits : ∀ u ∈ x.digits, isDigit u = true
  head : ∃ u s, x.digits = u :: s ∧ u ≠ 0x30

theorem proper_ofScaled {significand : Nat} {exponent : Int}
    (h : (NumberDigits.ofScaled significand exponent).digits ≠ []) :
    (NumberDigits.ofScaled significand exponent).Proper := by
  have hprefix : (NumberDigits.ofScaled significand exponent).digits <+: decimal significand :=
    List.rdropWhile_prefix _ _
  obtain ⟨zeros, hzeros⟩ := hprefix
  refine ⟨fun u hu => ?_, ?_⟩
  · apply isDigit_decimal significand
    rw [← hzeros]
    exact List.mem_append_left _ hu
  · have hpos : 0 < significand := by
      rw [Nat.pos_iff_ne_zero]
      rintro rfl
      apply h
      rw [NumberDigits.ofScaled, decimal]
      rfl
    obtain ⟨u, s, hs, hu⟩ := head_decimal hpos
    obtain ⟨v, t, ht⟩ := List.exists_cons_of_ne_nil h
    refine ⟨v, t, ht, ?_⟩
    rw [ht, hs, List.cons_append, List.cons.injEq] at hzeros
    rw [hzeros.1]
    exact hu

theorem mem_neighbours {n d k : Nat} {x : NumberDigits} (h : x ∈ neighbours n d k) :
    ∃ significand exponent, x = .ofScaled significand exponent := by
  unfold neighbours at h
  simp only at h
  split at h
  all_goals
    simp only [List.mem_cons, List.not_mem_nil, or_false] at h
    rcases h with rfl | rfl
    · exact ⟨_, _, rfl⟩
    · exact ⟨_, _, rfl⟩

theorem Decimal.toBinary64_exact {d : Decimal} {m : Nat} {e : Int}
    (hnormal : (Binary64.finite d.negative m e).isNormal = true)
    (hvalue : (d.digits : ℚ) * 10 ^ d.exponent = m * 2 ^ e) :
    d.toBinary64 = .finite d.negative m e := by
  refine ofRatio_exact d.negative (by positivity) hnormal ?_
  have hten : (10 : ℚ) ^ d.exponent * 10 ^ (-d.exponent).toNat = 10 ^ d.exponent.toNat := by
    rw [← zpow_natCast, ← zpow_natCast, ← zpow_add₀ (by norm_num)]
    congr 1
    omega
  have hpos : (0 : ℚ) < 10 ^ (-d.exponent).toNat := by positivity
  push_cast
  rw [div_eq_iff (ne_of_gt hpos), ← hvalue, mul_assoc, hten]

theorem toDecimal_ofScaled (significand : Nat) (exponent : Int) :
    ((NumberDigits.ofScaled significand exponent).toDecimal.digits : ℚ) *
        10 ^ (NumberDigits.ofScaled significand exponent).toDecimal.exponent =
      significand * 10 ^ exponent := by
  have hle : ((decimal significand).rdropWhile (· = 0x30)).length ≤ (decimal significand).length :=
    (List.rdropWhile_prefix _ _).length_le
  have hnat := digitsValue_rdropWhile_zero (decimal significand)
  rw [digitsValue_decimal] at hnat
  have hvalue : (significand : ℚ) = digitsValue ((decimal significand).rdropWhile (· = 0x30)) *
      10 ^ ((decimal significand).length -
        ((decimal significand).rdropWhile (· = 0x30)).length) := by
    exact_mod_cast hnat
  have hexponent : exponent + (decimal significand).length -
        ((decimal significand).rdropWhile (· = 0x30)).length =
      exponent + (((decimal significand).length -
        ((decimal significand).rdropWhile (· = 0x30)).length : Nat) : Int) := by
    rw [Nat.cast_sub hle]
    omega
  simp only [NumberDigits.ofScaled, NumberDigits.toDecimal]
  rw [hexponent, zpow_add₀ (by norm_num), zpow_natCast, mul_comm ((10 : ℚ) ^ exponent), ← mul_assoc,
    ← hvalue]

theorem exactDigits_spec {m : Nat} {e : Int} (hm : 0 < m)
    (hnormal : (Binary64.finite false m e).isNormal = true) :
    (exactDigits m e).Proper ∧ (exactDigits m e).toDecimal.toBinary64 = .finite false m e := by
  have hvalue : ((exactDigits m e).toDecimal.digits : ℚ) * 10 ^ (exactDigits m e).toDecimal.exponent =
      m * 2 ^ e := by
    rw [exactDigits, toDecimal_ofScaled]
    have hpower : (5 : ℚ) ^ (-e).toNat * 10 ^ (-((-e).toNat : Int)) = 2 ^ (-((-e).toNat : Int)) := by
      have hfactor : (10 : ℚ) = 5 * 2 := by norm_num
      rw [hfactor, mul_zpow, ← mul_assoc, ← zpow_natCast, ← zpow_add₀ (by norm_num), add_neg_cancel,
        zpow_zero, one_mul]
    push_cast
    rw [mul_assoc, hpower, mul_assoc, ← zpow_natCast, ← zpow_add₀ (by norm_num)]
    congr 2
    omega
  have hdigits : (exactDigits m e).digits ≠ [] := by
    intro hnil
    have hzero : (exactDigits m e).toDecimal.digits = 0 := by
      rw [NumberDigits.toDecimal, hnil]
      rfl
    have hpos : (0 : ℚ) < m * 2 ^ e := by positivity
    rw [← hvalue, hzero, Nat.cast_zero, zero_mul] at hpos
    exact lt_irrefl 0 hpos
  exact ⟨proper_ofScaled hdigits, Decimal.toBinary64_exact hnormal hvalue⟩

theorem shortestDigits_spec {m : Nat} {e : Int} (hm : 0 < m)
    (hnormal : (Binary64.finite false m e).isNormal = true) :
    (shortestDigits m e).Proper ∧ (shortestDigits m e).toDecimal.toBinary64 = .finite false m e := by
  rw [shortestDigits]
  cases hfind : ((List.range 17).flatMap fun k =>
      neighbours (m * 2 ^ e.toNat) (2 ^ (-e).toNat) (k + 1)).find?
        (fun x => x.digits ≠ [] ∧ x.toDecimal.toBinary64 = .finite false m e) with
  | none => exact exactDigits_spec hm hnormal
  | some x =>
    have hx := List.find?_some hfind
    rw [decide_eq_true_eq] at hx
    obtain ⟨k, -, hmem⟩ := List.mem_flatMap.mp (List.mem_of_find?_eq_some hfind)
    obtain ⟨significand, exponent, rfl⟩ := mem_neighbours hmem
    exact ⟨proper_ofScaled hx.1, hx.2⟩

/-! ## Reading number texts -/

/-- The parts of a number token behind its sign. -/
structure TokenParts where
  integer : JsString
  fraction : JsString
  exponent : JsString

def TokenParts.text (p : TokenParts) : JsString := p.integer ++ (p.fraction ++ p.exponent)

structure TokenParts.WellFormed (p : TokenParts) : Prop where
  integer : ∃ u s, p.integer = u :: s ∧ (∀ v ∈ p.integer, isDigit v = true) ∧ (u ≠ 0x30 ∨ s = [])
  fraction : p.fraction = [] ∨
    ∃ d s, p.fraction = point :: d :: s ∧ ∀ v ∈ d :: s, isDigit v = true
  exponent : p.exponent = [] ∨
    ∃ g d s, p.exponent = 0x65 :: g :: d :: s ∧ isSign g = true ∧ ∀ v ∈ d :: s, isDigit v = true

/-- The text does not go on with a unit of a number. -/
def EndsNumber (later : JsString) : Prop := ∀ u s, later = u :: s → isNumberUnit u = false

theorem EndsNumber.nil : EndsNumber [] := by
  rintro u s h
  cases h

theorem isDigit_sign {g : CodeUnit} (h : isSign g = true) : isDigit g = false := by
  simp only [isSign, Bool.or_eq_true, decide_eq_true_eq] at h
  rcases h with rfl | rfl
  · rfl
  · rfl

theorem spanDigits_run {ds rest : JsString} (hds : ∀ u ∈ ds, isDigit u = true)
    (hrest : ∀ u s, rest = u :: s → isDigit u = false) : spanDigits (ds ++ rest) = (ds, rest) := by
  have hhead : rest.takeWhile isDigit = [] ∧ rest.dropWhile isDigit = rest := by
    cases rest with
    | nil => exact ⟨rfl, rfl⟩
    | cons u s =>
      have hu := hrest u s rfl
      exact ⟨by rw [List.takeWhile_cons, hu]; rfl, by rw [List.dropWhile_cons, hu]; rfl⟩
  rw [spanDigits, List.takeWhile_append_of_pos hds, List.dropWhile_append_of_pos hds, hhead.1,
    hhead.2, List.append_nil]

namespace TokenParts.WellFormed

variable {p : TokenParts} (h : p.WellFormed) {later : JsString} (hlater : EndsNumber later)

include h

theorem matchSign_eq :
    matchSign (p.text ++ later) = ([], p.integer ++ (p.fraction ++ (p.exponent ++ later))) := by
  obtain ⟨u, s, hinteger, hdigits, -⟩ := h.integer
  have hu : isDigit u = true := hdigits u (by rw [hinteger]; exact List.mem_cons_self)
  have hne : u ≠ minus := by
    rintro rfl
    exact absurd hu (by decide)
  rw [TokenParts.text, List.append_assoc, List.append_assoc, hinteger, List.cons_append, matchSign,
    if_neg hne]

include hlater

theorem exponent_head : ∀ u s, p.exponent ++ later = u :: s → isDigit u = false ∧ u ≠ point := by
  intro u s heq
  rcases h.exponent with hnil | ⟨g, d, t, hexponent, -, -⟩
  · rw [hnil, List.nil_append] at heq
    have hu := hlater u s heq
    simp only [isNumberUnit, Bool.or_eq_false_iff, decide_eq_false_iff_not] at hu
    exact ⟨hu.1.1.1, hu.1.2⟩
  · rw [hexponent, List.cons_append, List.cons.injEq] at heq
    obtain ⟨rfl, -⟩ := heq
    exact ⟨rfl, by decide⟩

theorem fraction_head :
    ∀ u s, p.fraction ++ (p.exponent ++ later) = u :: s → isDigit u = false := by
  intro u s heq
  rcases h.fraction with hnil | ⟨d, t, hfraction, -⟩
  · rw [hnil, List.nil_append] at heq
    exact (h.exponent_head hlater u s heq).1
  · rw [hfraction, List.cons_append, List.cons.injEq] at heq
    obtain ⟨rfl, -⟩ := heq
    rfl

theorem matchInteger_eq :
    matchInteger (p.integer ++ (p.fraction ++ (p.exponent ++ later))) =
      some (p.integer, p.fraction ++ (p.exponent ++ later)) := by
  obtain ⟨u, s, hinteger, hdigits, hzero⟩ := h.integer
  have hu : isDigit u = true := hdigits u (by rw [hinteger]; exact List.mem_cons_self)
  have hspan : spanDigits (s ++ (p.fraction ++ (p.exponent ++ later))) =
      (s, p.fraction ++ (p.exponent ++ later)) := by
    refine spanDigits_run (fun v hv => hdigits v ?_) (h.fraction_head hlater)
    rw [hinteger]
    exact List.mem_cons_of_mem u hv
  rw [hinteger, List.cons_append, matchInteger]
  by_cases hu0 : u = 0x30
  · obtain rfl : s = [] := hzero.resolve_left fun hne => hne hu0
    rw [if_pos hu0, List.nil_append]
  · rw [if_neg hu0, if_pos hu, hspan]

theorem matchFraction_eq :
    matchFraction (p.fraction ++ (p.exponent ++ later)) = (p.fraction, p.exponent ++ later) := by
  rcases h.fraction with hnil | ⟨d, t, hfraction, hdigits⟩
  · rw [hnil, List.nil_append]
    unfold matchFraction
    split
    · next u d s heq =>
      have hu := (h.exponent_head hlater u (d :: s) heq).2
      rw [if_neg (by simp [hu]), heq]
    · rfl
  · have hspan : spanDigits (t ++ (p.exponent ++ later)) = (t, p.exponent ++ later) :=
      spanDigits_run (fun v hv => hdigits v (List.mem_cons_of_mem d hv))
        fun u s heq => (h.exponent_head hlater u s heq).1
    have hd : isDigit d = true := hdigits d List.mem_cons_self
    rw [hfraction, List.cons_append, List.cons_append, matchFraction, if_pos (by simp [hd]), hspan]

theorem matchExponent_eq : matchExponent (p.exponent ++ later) = (p.exponent, later) := by
  rcases h.exponent with hnil | ⟨g, d, t, hexponent, hg, hdigits⟩
  · rw [hnil, List.nil_append]
    unfold matchExponent
    split
    · next u d s =>
      have hu := hlater u (d :: s) rfl
      simp only [isNumberUnit, Bool.or_eq_false_iff] at hu
      rw [if_neg (by simp [hu.2])]
      cases s with
      | nil => rfl
      | cons e s =>
        simp only
        rw [if_neg (by simp [hu.2])]
    · rfl
  · have hspan : spanDigits (t ++ later) = (t, later) := by
      refine spanDigits_run (fun v hv => hdigits v (List.mem_cons_of_mem d hv)) fun u s heq => ?_
      have hu := hlater u s heq
      simp only [isNumberUnit, Bool.or_eq_false_iff] at hu
      exact hu.1.1.1
    have hd : isDigit d = true := hdigits d List.mem_cons_self
    have hmark : isExponentMark 0x65 = true := rfl
    rw [hexponent, List.cons_append, List.cons_append, List.cons_append, matchExponent,
      if_neg (by simp [isDigit_sign hg])]
    rw [if_pos (by simp [hmark, hg, hd]), hspan]

theorem matchNumber_eq : matchNumber (p.text ++ later) = some (p.text, later) := by
  rw [matchNumber, h.matchSign_eq]
  simp only
  rw [h.matchInteger_eq hlater]
  simp only
  rw [h.matchFraction_eq hlater, h.matchExponent_eq hlater, List.nil_append, TokenParts.text,
    List.append_assoc]

theorem matchNumber_minus_eq :
    matchNumber (minus :: p.text ++ later) = some (minus :: p.text, later) := by
  have hsign : matchSign (minus :: p.text ++ later) =
      ([minus], p.integer ++ (p.fraction ++ (p.exponent ++ later))) := by
    rw [List.cons_append, matchSign, if_pos rfl, TokenParts.text, List.append_assoc,
      List.append_assoc]
  rw [matchNumber, hsign]
  simp only
  rw [h.matchInteger_eq hlater]
  simp only
  rw [h.matchFraction_eq hlater, h.matchExponent_eq hlater, TokenParts.text, List.append_assoc]
  rfl

omit hlater

-- What the parts denote.
theorem decimalOfToken_eq (negative : Bool) :
    decimalOfToken ((if negative then [minus] else []) ++ p.text) =
      { negative, digits := digitsValue (p.integer ++ p.fraction.drop 1)
        exponent := exponentValue p.exponent - (p.fraction.drop 1).length } := by
  have hnil := EndsNumber.nil
  obtain ⟨-, -, -, hdigits, -⟩ := h.integer
  have hsign : matchSign ((if negative then [minus] else []) ++ p.text) =
      (if negative then [minus] else [], p.integer ++ (p.fraction ++ (p.exponent ++ []))) := by
    cases negative with
    | false =>
      have hs : matchSign (p.text ++ []) = ([], p.integer ++ (p.fraction ++ (p.exponent ++ []))) :=
        h.matchSign_eq
      rw [List.append_nil] at hs
      exact hs
    | true =>
      show matchSign (minus :: p.text) = _
      rw [matchSign, if_pos rfl, List.append_nil]
      rfl
  have hspan : spanDigits (p.integer ++ (p.fraction ++ (p.exponent ++ []))) =
      (p.integer, p.fraction ++ (p.exponent ++ [])) :=
    spanDigits_run hdigits (h.fraction_head hnil)
  rw [decimalOfToken, hsign]
  simp only
  rw [hspan]
  simp only
  rw [h.matchFraction_eq hnil, List.append_nil]
  cases negative with
  | false => rfl
  | true => rfl

end TokenParts.WellFormed

/-! ## A number's text is read as the number -/

theorem ofRatio_sign {n d m : Nat} {e : Int} (negative : Bool)
    (h : Binary64.ofRatio false n d = .finite false m e) :
    Binary64.ofRatio negative n d = .finite negative m e := by
  unfold Binary64.ofRatio at h ⊢
  by_cases hn : n = 0
  · rw [if_pos hn] at h ⊢
    simp only [Binary64.finite.injEq, true_and] at h ⊢
    exact h
  · rw [if_neg hn] at h ⊢
    simp only at h ⊢
    generalize (if _ = 2 ^ 53 then _ else _ : Nat × Int) = rounded at h ⊢
    by_cases hgreat : rounded.2 > 971
    · rw [if_pos hgreat] at h
      cases h
    · rw [if_neg hgreat] at h ⊢
      simp only [Binary64.finite.injEq, true_and] at h ⊢
      exact h

theorem isDigit_replicate_zero (n : Nat) : ∀ u ∈ List.replicate n (0x30 : CodeUnit),
    isDigit u = true := by
  intro u hu
  rw [List.eq_of_mem_replicate hu]
  rfl

/-- What must be shown of a layout. -/
def NumberDigits.ReadsAs (x : NumberDigits) (text : JsString) : Prop :=
  ∃ p : TokenParts, text = p.text ∧ p.WellFormed ∧
    ∀ negative, ({ negative, digits := digitsValue (p.integer ++ p.fraction.drop 1),
                   exponent := exponentValue p.exponent - (p.fraction.drop 1).length } :
        Decimal).toBinary64 = { x.toDecimal with negative }.toBinary64

theorem exponentValue_signed (n : Int) :
    exponentValue (0x65 :: (if n < 0 then minus else 0x2B) :: decimal n.natAbs) = n := by
  by_cases hn : n < 0
  · rw [if_pos hn, exponentValue]
    simp only [if_pos, digitsValue_decimal]
    omega
  · rw [if_neg hn, exponentValue]
    simp only [if_neg (show (0x2B : CodeUnit) ≠ minus by decide),
      if_neg (show ¬ isDigit 0x2B = true by decide), digitsValue_decimal]
    omega

section Layout

variable {x : NumberDigits} (hx : x.Proper)

include hx

theorem readsAs_integer (h : (x.digits.length : Int) ≤ x.before) :
    x.ReadsAs (x.digits ++ List.replicate (x.before - x.digits.length).toNat 0x30) := by
  refine ⟨⟨x.digits ++ List.replicate (x.before - x.digits.length).toNat 0x30, [], []⟩, ?_, ?_, ?_⟩
  · rw [TokenParts.text, List.append_nil, List.append_nil]
  · obtain ⟨u, s, hs, hu⟩ := hx.head
    refine ⟨⟨u, s ++ List.replicate (x.before - x.digits.length).toNat 0x30, ?_, ?_, .inl hu⟩,
      .inl rfl, .inl rfl⟩
    · rw [hs, List.cons_append]
    · intro v hv
      rcases List.mem_append.mp hv with hv | hv
      · exact hx.digits v hv
      · exact isDigit_replicate_zero _ v hv
  · intro negative
    have hneg : (-(x.before - (x.digits.length : Int))).toNat = 0 := by omega
    simp only [Decimal.toBinary64, NumberDigits.toDecimal, List.drop_nil, List.append_nil,
      exponentValue, List.length_nil]
    rw [digitsValue_append, digitsValue_replicate_zero, List.length_replicate, hneg]
    simp

theorem readsAs_point (hpos : 0 < x.before) (h : x.before < x.digits.length) :
    x.ReadsAs (x.digits.take x.before.toNat ++ point :: x.digits.drop x.before.toNat) := by
  have hlength : (x.digits.drop x.before.toNat).length = x.digits.length - x.before.toNat :=
    List.length_drop
  have htake : ∀ v ∈ x.digits.take x.before.toNat, isDigit v = true := fun v hv =>
    hx.digits v (List.mem_of_mem_take hv)
  have hdrop : ∀ v ∈ x.digits.drop x.before.toNat, isDigit v = true := fun v hv =>
    hx.digits v (List.mem_of_mem_drop hv)
  refine ⟨⟨x.digits.take x.before.toNat, point :: x.digits.drop x.before.toNat, []⟩, ?_, ?_, ?_⟩
  · rw [TokenParts.text, List.append_nil]
  · obtain ⟨u, s, hs, hu⟩ := hx.head
    obtain ⟨n, hn⟩ : ∃ n, x.before.toNat = n + 1 := ⟨x.before.toNat - 1, by omega⟩
    obtain ⟨d, t, ht⟩ := List.exists_cons_of_length_pos
      (show 0 < (x.digits.drop x.before.toNat).length by omega)
    refine ⟨⟨u, s.take n, ?_, htake, .inl hu⟩, .inr ⟨d, t, by rw [ht], ?_⟩, .inl rfl⟩
    · rw [hn, hs, List.take_succ_cons]
    · rw [ht] at hdrop
      exact hdrop
  · intro negative
    have hexponent : (0 : Int) - (x.digits.drop x.before.toNat).length =
        x.before - x.digits.length := by omega
    simp only [NumberDigits.toDecimal, List.drop_succ_cons, List.drop_zero, exponentValue,
      List.take_append_drop, hexponent]

theorem readsAs_zeros (h : x.before ≤ 0) :
    x.ReadsAs (0x30 :: point :: (List.replicate (-x.before).toNat 0x30 ++ x.digits)) := by
  have hdigits : ∀ v ∈ List.replicate (-x.before).toNat 0x30 ++ x.digits, isDigit v = true := by
    intro v hv
    rcases List.mem_append.mp hv with hv | hv
    · exact isDigit_replicate_zero _ v hv
    · exact hx.digits v hv
  refine ⟨⟨[0x30], point :: (List.replicate (-x.before).toNat 0x30 ++ x.digits), []⟩, ?_, ?_, ?_⟩
  · rw [TokenParts.text, List.append_nil]
    rfl
  · obtain ⟨u, s, hs, -⟩ := hx.head
    obtain ⟨d, t, ht⟩ := List.exists_cons_of_ne_nil
      (show List.replicate (-x.before).toNat 0x30 ++ x.digits ≠ [] by simp [hs])
    refine ⟨⟨0x30, [], rfl, ?_, .inr rfl⟩, .inr ⟨d, t, by rw [ht], ?_⟩, .inl rfl⟩
    · intro v hv
      rw [List.mem_singleton.mp hv]
      rfl
    · rw [ht] at hdigits
      exact hdigits
  · intro negative
    have hvalue : digitsValue ([0x30] ++ (List.replicate (-x.before).toNat 0x30 ++ x.digits)) =
        digitsValue x.digits := by
      rw [digitsValue_append, digitsValue_append, digitsValue_replicate_zero,
        show digitsValue [0x30] = 0 from rfl, zero_mul, zero_mul, zero_add, zero_add]
    have hexponent : (0 : Int) - (List.replicate (-x.before).toNat (0x30 : CodeUnit) ++
        x.digits).length = x.before - x.digits.length := by
      rw [List.length_append, List.length_replicate]
      omega
    simp only [NumberDigits.toDecimal, List.drop_succ_cons, List.drop_zero, exponentValue, hvalue,
      hexponent]

theorem readsAs_exponent :
    x.ReadsAs (x.digits.take 1 ++ (if x.digits.length = 1 then [] else point :: x.digits.drop 1) ++
      0x65 :: (if x.before < 1 then minus else 0x2B) :: decimal (x.before - 1).natAbs) := by
  obtain ⟨u, s, hs, hu⟩ := hx.head
  have hu' : isDigit u = true := hx.digits u (by rw [hs]; exact List.mem_cons_self)
  have hsign : (if x.before < 1 then minus else 0x2B) =
      (if x.before - 1 < 0 then minus else 0x2B) := by
    congr 1
    exact propext ⟨fun h => by omega, fun h => by omega⟩
  have hexponent : ∃ g d t, 0x65 :: (if x.before < 1 then minus else 0x2B) ::
      decimal (x.before - 1).natAbs = 0x65 :: g :: d :: t ∧ isSign g = true ∧
        ∀ v ∈ d :: t, isDigit v = true := by
    obtain ⟨d, t, ht⟩ := List.exists_cons_of_ne_nil (decimal_ne_nil (x.before - 1).natAbs)
    have hdigits := isDigit_decimal (x.before - 1).natAbs
    rw [ht] at hdigits ⊢
    refine ⟨_, d, t, rfl, ?_, hdigits⟩
    split <;> rfl
  have hinteger : ∀ v ∈ [u], isDigit v = true := by
    intro v hv
    rw [List.mem_singleton.mp hv]
    exact hu'
  rw [hs, List.take_succ_cons, List.take_zero, List.drop_succ_cons, List.drop_zero]
  cases s with
  | nil =>
    rw [List.length_singleton, if_pos rfl, List.append_nil]
    refine ⟨⟨[u], [], _⟩, rfl, ⟨⟨u, [], rfl, hinteger, .inr rfl⟩, .inl rfl, .inr hexponent⟩, ?_⟩
    intro negative
    have hlength : x.before - 1 - (([] : JsString).length : Int) = x.before - ([u].length : Int) := by
      simp
    simp only [NumberDigits.toDecimal, hs, hsign, exponentValue_signed, List.drop_nil,
      List.append_nil, hlength]
  | cons d t =>
    rw [if_neg (by simp)]
    refine ⟨⟨[u], point :: d :: t, _⟩, ?_, ⟨⟨u, [], rfl, hinteger, .inr rfl⟩, .inr ⟨d, t, rfl, ?_⟩,
      .inr hexponent⟩, ?_⟩
    · rw [TokenParts.text, List.append_assoc]
    · intro v hv
      apply hx.digits v
      rw [hs]
      exact List.mem_cons_of_mem u hv
    · intro negative
      have hlength : x.before - 1 - ((d :: t).length : Int) =
          x.before - ((u :: d :: t).length : Int) := by
        simp only [List.length_cons]
        omega
      simp only [NumberDigits.toDecimal, hs, hsign, exponentValue_signed, List.drop_succ_cons,
        List.drop_zero, hlength]
      rfl

theorem readsAs_layout : x.ReadsAs x.layout := by
  rw [NumberDigits.layout]
  split
  · next h => exact readsAs_integer hx h.1
  split
  · next hlong h => exact readsAs_point hx h.1 (by omega)
  split
  · next h => exact readsAs_zeros hx h.2
  · exact readsAs_exponent hx

end Layout

/-- The number with zero unsigned. -/
def Binary64.unsignedZero : Binary64 → Binary64
  | .finite negative m e => .finite (negative && m != 0) m e
  | .infinite negative => .infinite negative

-- The text of a finite number is one token, and the token is the number, but for the sign of zero.
theorem numberToString_spec {x : Binary64} (hfinite : x.isFinite = true)
    (hnormal : x.isNormal = true) :
    numberOfToken (numberToString x) = x.unsignedZero ∧ ∀ later, EndsNumber later →
      matchNumber (numberToString x ++ later) = some (numberToString x, later) := by
  cases x with
  | infinite negative => cases hfinite
  | finite negative m e =>
    rcases Nat.eq_zero_or_pos m with rfl | hm
    · have he : e = -1074 := by
        simp only [Binary64.isNormal, Bool.and_eq_true, Bool.or_eq_true, decide_eq_true_eq] at hnormal
        omega
      subst he
      have hzero : TokenParts.WellFormed ⟨[0x30], [], []⟩ := by
        refine ⟨⟨0x30, [], rfl, ?_, .inr rfl⟩, .inl rfl, .inl rfl⟩
        intro v hv
        rw [List.mem_singleton.mp hv]
        rfl
      rw [numberToString, if_pos rfl]
      refine ⟨?_, fun later hlater => hzero.matchNumber_eq hlater⟩
      rw [Binary64.unsignedZero]
      simp only [bne_self_eq_false, Bool.and_false]
      decide +kernel
    · have hpositive : (Binary64.finite false m e).isNormal = true := hnormal
      obtain ⟨hproper, hround⟩ := shortestDigits_spec hm hpositive
      obtain ⟨p, htext, hp, hvalue⟩ := readsAs_layout hproper
      have hsigned : { (shortestDigits m e).toDecimal with negative }.toBinary64 =
          .finite negative m e := ofRatio_sign negative hround
      have hne : (m != 0) = true := bne_iff_ne.mpr (by omega)
      have hread := hp.decimalOfToken_eq negative
      rw [numberToString, if_neg (by omega), Binary64.unsignedZero, hne, Bool.and_true, htext]
      cases negative with
      | true =>
        rw [if_pos rfl]
        refine ⟨?_, fun later hlater => hp.matchNumber_minus_eq hlater⟩
        rw [numberOfToken, ← hsigned, ← hvalue true]
        exact congrArg Decimal.toBinary64 hread
      | false =>
        rw [if_neg (by simp)]
        refine ⟨?_, fun later hlater => hp.matchNumber_eq hlater⟩
        rw [numberOfToken, ← hsigned, ← hvalue false]
        exact congrArg Decimal.toBinary64 hread

end Json
