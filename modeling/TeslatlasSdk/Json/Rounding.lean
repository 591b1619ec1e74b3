import TeslatlasSdk.Json.Number
import Mathlib.Algebra.Order.Field.Power
import Mathlib.Tactic.Linarith

/-!
# Numbers that rounding leaves alone

A ratio that is a 64-bit binary number rounds to that number.
-/

open Text

namespace Json

/-- The form that rounding gives a number: 53 bits, unless the exponent is the least one. -/
def Binary64.isNormal : Binary64 → Bool
  | .finite _ m e => m < 2 ^ 53 && -1074 ≤ e && e ≤ 971 && (2 ^ 52 ≤ m || e = -1074)
  | .infinite _ => true

theorem scaled_le {n d : Nat} (hd : 0 < d) (k : Int) :
    (scaled n d k).2 ≤ (scaled n d k).1 ↔ (2 : ℚ) ^ k ≤ n / d := by
  have hpos : (0 : ℚ) < d := by exact_mod_cast hd
  have htwo : (2 : ℚ) ^ k * 2 ^ (-k).toNat = 2 ^ k.toNat := by
    rw [← zpow_natCast, ← zpow_natCast, ← zpow_add₀ (by norm_num)]
    congr 1
    omega
  have hneg : (0 : ℚ) < 2 ^ (-k).toNat := by positivity
  have hleft : (2 : ℚ) ^ k * d * 2 ^ (-k).toNat = (d * 2 ^ k.toNat : Nat) := by
    push_cast
    rw [mul_right_comm, htwo, mul_comm]
  rw [scaled, le_div_iff₀ hpos, ← mul_le_mul_iff_of_pos_right hneg, hleft]
  exact_mod_cast Iff.rfl

theorem log2_bounds {n : Nat} (hn : 0 < n) :
    (2 : ℚ) ^ (n.log2 : Int) ≤ n ∧ (n : ℚ) < 2 ^ ((n.log2 : Int) + 1) := by
  have hle := Nat.log2_self_le (Nat.pos_iff_ne_zero.mp hn)
  have hlt := Nat.lt_log2_self (n := n)
  constructor
  · rw [zpow_natCast]
    exact_mod_cast hle
  · rw [← Nat.cast_succ, zpow_natCast]
    exact_mod_cast hlt

theorem floorLog2_spec {n d : Nat} (hn : 0 < n) (hd : 0 < d) :
    (2 : ℚ) ^ floorLog2 n d ≤ n / d ∧ (n / d : ℚ) < 2 ^ (floorLog2 n d + 1) := by
  obtain ⟨hnlo, hnhi⟩ := log2_bounds hn
  obtain ⟨hdlo, hdhi⟩ := log2_bounds hd
  have hpos : (0 : ℚ) < d := by exact_mod_cast hd
  have htwo : ∀ i j : Int, (2 : ℚ) ^ i * 2 ^ j = 2 ^ (i + j) := fun i j =>
    (zpow_add₀ (by norm_num) i j).symm
  unfold floorLog2
  simp only
  split
  · next h =>
    refine ⟨(scaled_le hd _).mp h, ?_⟩
    rw [div_lt_iff₀ hpos]
    calc (n : ℚ) < 2 ^ ((n.log2 : Int) + 1) := hnhi
      _ = 2 ^ ((n.log2 : Int) - d.log2 + 1) * 2 ^ (d.log2 : Int) := by
        rw [htwo]
        congr 1
        omega
      _ ≤ 2 ^ ((n.log2 : Int) - d.log2 + 1) * d := by
        exact mul_le_mul_of_nonneg_left hdlo (by positivity)
  · next h =>
    rw [sub_add_cancel]
    refine ⟨?_, not_le.mp fun hle => h ((scaled_le hd _).mpr hle)⟩
    rw [le_div_iff₀ hpos]
    calc (2 : ℚ) ^ ((n.log2 : Int) - d.log2 - 1) * d
        ≤ 2 ^ ((n.log2 : Int) - d.log2 - 1) * 2 ^ ((d.log2 : Int) + 1) :=
          mul_le_mul_of_nonneg_left hdhi.le (by positivity)
      _ = 2 ^ (n.log2 : Int) := by
        rw [htwo]
        congr 1
        omega
      _ ≤ n := hnlo

theorem roundHalfEven_mul (m : Nat) {t : Nat} (ht : 0 < t) : roundHalfEven (m * t) t = m := by
  rw [roundHalfEven, Nat.mul_mod_left, if_pos (by omega), Nat.mul_div_cancel _ ht]

-- The exponent of a number's own ratio.
theorem exponent_of_ratio {n d m : Nat} {e : Int} (hd : 0 < d) (hm : 0 < m)
    (hnormal : (Binary64.finite false m e).isNormal = true)
    (hratio : (n / d : ℚ) = m * 2 ^ e) : max (-1074) (floorLog2 n d - 52) = e := by
  simp only [Binary64.isNormal, Bool.and_eq_true, Bool.or_eq_true, decide_eq_true_eq] at hnormal
  obtain ⟨⟨⟨hhi, hleast⟩, -⟩, hlo⟩ := hnormal
  have hn : 0 < n := by
    rw [Nat.pos_iff_ne_zero]
    rintro rfl
    have hzero : (0 : ℚ) < m * 2 ^ e := by positivity
    rw [← hratio, Nat.cast_zero, zero_div] at hzero
    exact lt_irrefl 0 hzero
  obtain ⟨hle, hlt⟩ := floorLog2_spec hn hd
  rw [hratio] at hle hlt
  have hpow : ∀ {i j : Int}, (2 : ℚ) ^ i < 2 ^ j → i < j := fun h =>
    (zpow_lt_zpow_iff_right₀ (by norm_num)).mp h
  have hupper : ∀ b : Nat, m < 2 ^ b → floorLog2 n d < b + e := by
    intro b hb
    apply hpow
    calc (2 : ℚ) ^ floorLog2 n d ≤ m * 2 ^ e := hle
      _ < 2 ^ b * 2 ^ e := mul_lt_mul_of_pos_right (by exact_mod_cast hb) (by positivity)
      _ = 2 ^ ((b : Int) + e) := by rw [zpow_add₀ (by norm_num), zpow_natCast]
  rcases hlo with hlo | rfl
  · have h53 := hupper 53 hhi
    have h52 : (52 : Int) + e < floorLog2 n d + 1 := by
      apply hpow
      calc (2 : ℚ) ^ ((52 : Int) + e) = 2 ^ 52 * 2 ^ e := by
            rw [zpow_add₀ (by norm_num)]
            rfl
        _ ≤ m * 2 ^ e := mul_le_mul_of_nonneg_right (by exact_mod_cast hlo) (by positivity)
        _ < 2 ^ (floorLog2 n d + 1) := hlt
    omega
  · have h53 := hupper 53 hhi
    omega

-- A ratio that is a number rounds to it.
theorem ofRatio_exact {n d m : Nat} {e : Int} (negative : Bool) (hd : 0 < d)
    (hnormal : (Binary64.finite negative m e).isNormal = true)
    (hratio : (n / d : ℚ) = m * 2 ^ e) :
    Binary64.ofRatio negative n d = .finite negative m e := by
  have hpos : (0 : ℚ) < d := by exact_mod_cast hd
  have hnormal' := hnormal
  simp only [Binary64.isNormal, Bool.and_eq_true, Bool.or_eq_true, decide_eq_true_eq] at hnormal'
  obtain ⟨⟨⟨hhi, -⟩, hgreatest⟩, hlo⟩ := hnormal'
  rcases Nat.eq_zero_or_pos m with rfl | hm
  · have hn : n = 0 := by
      rw [Nat.cast_zero, zero_mul, div_eq_zero_iff] at hratio
      rcases hratio with h | h
      · exact_mod_cast h
      · exact absurd h (ne_of_gt hpos)
    rw [Binary64.ofRatio, if_pos hn]
    congr 1
    omega
  · have hn : n ≠ 0 := by
      rintro rfl
      have hzero : (0 : ℚ) < m * 2 ^ e := by positivity
      rw [← hratio, Nat.cast_zero, zero_div] at hzero
      exact lt_irrefl 0 hzero
    have hscaled : (scaled n d e).1 = m * (scaled n d e).2 := by
      have htwo : (2 : ℚ) ^ e * 2 ^ (-e).toNat = 2 ^ e.toNat := by
        rw [← zpow_natCast, ← zpow_natCast, ← zpow_add₀ (by norm_num)]
        congr 1
        omega
      have hcast : (n : ℚ) * 2 ^ (-e).toNat = m * (d * 2 ^ e.toNat) := by
        rw [div_eq_iff (ne_of_gt hpos)] at hratio
        rw [hratio, ← htwo]
        ring
      rw [scaled]
      exact_mod_cast hcast
    have ht : 0 < (scaled n d e).2 := by
      rw [scaled]
      positivity
    rw [Binary64.ofRatio, if_neg hn]
    simp only [exponent_of_ratio hd hm hnormal hratio]
    have hround : m ≠ 2 ^ 53 := by omega
    rw [hscaled, roundHalfEven_mul m ht]
    simp only [if_neg hround]
    rw [if_neg (by omega)]

/-! ## Naturals -/

def Binary64.ofNat (n : Nat) : Binary64 := .ofRatio false n 1

-- A natural of at most 53 bits is a number, shifted to 53 bits.
theorem ofNat_eq {n : Nat} (hn : 0 < n) (hbits : n < 2 ^ 53) :
    Binary64.ofNat n = .finite false (n * 2 ^ (52 - n.log2)) ((n.log2 : Int) - 52) ∧
      (Binary64.ofNat n).isNormal = true ∧ n.log2 ≤ 52 := by
  have hlog : n.log2 < 53 := (Nat.log2_lt (Nat.pos_iff_ne_zero.mp hn)).mpr hbits
  have hle := Nat.log2_self_le (Nat.pos_iff_ne_zero.mp hn)
  have hlt := Nat.lt_log2_self (n := n)
  have hsplit : ∀ k, 2 ^ (n.log2 + k) * 2 ^ (52 - n.log2) = 2 ^ (52 + k) := by
    intro k
    rw [← Nat.pow_add]
    congr 1
    omega
  have hlo : 2 ^ 52 ≤ n * 2 ^ (52 - n.log2) := by
    rw [← hsplit 0]
    exact Nat.mul_le_mul_right _ hle
  have hhi : n * 2 ^ (52 - n.log2) < 2 ^ 53 := by
    rw [← hsplit 1]
    exact Nat.mul_lt_mul_of_pos_right hlt (by positivity)
  have hnormal : (Binary64.finite false (n * 2 ^ (52 - n.log2)) ((n.log2 : Int) - 52)).isNormal =
      true := by
    simp only [Binary64.isNormal, Bool.and_eq_true, Bool.or_eq_true, decide_eq_true_eq]
    omega
  have hratio : (n / (1 : Nat) : ℚ) = (n * 2 ^ (52 - n.log2) : Nat) * 2 ^ ((n.log2 : Int) - 52) := by
    have htwo : (2 : ℚ) ^ (52 - n.log2) * 2 ^ ((n.log2 : Int) - 52) = 1 := by
      rw [← zpow_natCast, ← zpow_add₀ (by norm_num), Nat.cast_sub (by omega)]
      norm_num
    push_cast
    rw [mul_assoc, htwo, mul_one, div_one]
  have heq := ofRatio_exact false Nat.one_pos hnormal hratio
  exact ⟨heq, by rw [Binary64.ofNat, heq]; exact hnormal, by omega⟩

/-! ## Sizes -/

theorem roundHalfEven_le {n d k : Nat} (hd : 0 < d) (h : n ≤ k * d) : roundHalfEven n d ≤ k := by
  have hdiv : n / d ≤ k := Nat.div_le_of_le_mul (by rwa [Nat.mul_comm] at h)
  have hsplit := Nat.div_add_mod n d
  have hless : 0 < n % d → n / d + 1 ≤ k := by
    intro hpos
    by_contra hgreat
    have heq : n / d = k := by omega
    rw [heq, Nat.mul_comm] at hsplit
    omega
  rw [roundHalfEven]
  split
  · exact hdiv
  split
  · exact hless (by omega)
  split
  · exact hdiv
  · exact hless (by omega)

theorem le_roundHalfEven {n d k : Nat} (hd : 0 < d) (h : k * d ≤ n) : k ≤ roundHalfEven n d := by
  have hdiv : k ≤ n / d := (Nat.le_div_iff_mul_le hd).mpr h
  rw [roundHalfEven]
  split
  · exact hdiv
  split
  · omega
  split
  · exact hdiv
  · omega

theorem scaled_lt {n d : Nat} (hd : 0 < d) (e : Int) (k : Nat) :
    (scaled n d e).1 < 2 ^ k * (scaled n d e).2 ↔ (n / d : ℚ) < 2 ^ (e + k) := by
  have hpos : (0 : ℚ) < d := by exact_mod_cast hd
  have htwo : (2 : ℚ) ^ e * 2 ^ (-e).toNat = 2 ^ e.toNat := by
    rw [← zpow_natCast, ← zpow_natCast, ← zpow_add₀ (by norm_num)]
    congr 1
    omega
  have hneg : (0 : ℚ) < 2 ^ (-e).toNat := by positivity
  have hright : (2 : ℚ) ^ (e + k) * d * 2 ^ (-e).toNat = (2 ^ k * (d * 2 ^ e.toNat) : Nat) := by
    push_cast
    rw [zpow_add₀ (by norm_num), zpow_natCast, ← htwo]
    ring
  rw [scaled, div_lt_iff₀ hpos, ← mul_lt_mul_iff_of_pos_right hneg, hright]
  exact_mod_cast Iff.rfl

theorem scaled_pos {n d : Nat} (hd : 0 < d) (e : Int) : 0 < (scaled n d e).2 := by
  rw [scaled]
  positivity

-- A finite number has 53 bits, its sign is that of the ratio, and its exponent is in range.
theorem ofRatio_finite {negative sign : Bool} {n d m : Nat} {e : Int} (hd : 0 < d)
    (h : Binary64.ofRatio negative n d = .finite sign m e) :
    sign = negative ∧ m < 2 ^ 53 ∧ e ≤ 971 := by
  rw [Binary64.ofRatio] at h
  by_cases hn : n = 0
  · rw [if_pos hn, Binary64.finite.injEq] at h
    obtain ⟨rfl, rfl, rfl⟩ := h
    exact ⟨rfl, by decide, by decide⟩
  · rw [if_neg hn] at h
    obtain ⟨-, hlt⟩ := floorLog2_spec (Nat.pos_of_ne_zero hn) hd
    have hexponent : floorLog2 n d + 1 ≤ max (-1074) (floorLog2 n d - 52) + (53 : Nat) := by
      omega
    have hratio : (n / d : ℚ) < 2 ^ (max (-1074) (floorLog2 n d - 52) + (53 : Nat)) :=
      lt_of_lt_of_le hlt (zpow_le_zpow_right₀ (by norm_num) hexponent)
    have hround := roundHalfEven_le (scaled_pos hd _) (Nat.le_of_lt ((scaled_lt hd _ 53).mpr hratio))
    simp only at h
    generalize max (-1074) (floorLog2 n d - 52) = least at h hround
    by_cases hcarry : roundHalfEven (scaled n d least).1 (scaled n d least).2 = 2 ^ 53
    · rw [if_pos hcarry] at h
      split at h
      · cases h
      · next hgreat =>
        rw [Binary64.finite.injEq] at h
        obtain ⟨rfl, rfl, rfl⟩ := h
        have hbits : 2 ^ 52 < 2 ^ 53 := by decide
        exact ⟨rfl, hbits, not_lt.mp hgreat⟩
    · rw [if_neg hcarry] at h
      split at h
      · cases h
      · next hgreat =>
        rw [Binary64.finite.injEq] at h
        obtain ⟨rfl, rfl, rfl⟩ := h
        exact ⟨rfl, by omega, not_lt.mp hgreat⟩

-- What is at least 2^53 rounds to an integer of that size, or to an infinity.
theorem ofRatio_large (negative : Bool) {n d : Nat} (hd : 0 < d) (h : 2 ^ 53 * d ≤ n) :
    Binary64.ofRatio negative n d = .infinite negative ∨
      ∃ m e, Binary64.ofRatio negative n d = .finite negative m e ∧ 0 ≤ e ∧
        2 ^ 53 ≤ m * 2 ^ e.toNat := by
  have hpos : 0 < n := by
    have hprod : 0 < 2 ^ 53 * d := Nat.mul_pos (by decide) hd
    omega
  obtain ⟨hle, hlt⟩ := floorLog2_spec hpos hd
  have hlog : 53 ≤ floorLog2 n d := by
    have hratio : (2 : ℚ) ^ (53 : Int) ≤ n / d := by
      rw [le_div_iff₀ (by exact_mod_cast hd)]
      exact_mod_cast h
    have hpow : (2 : ℚ) ^ (53 : Int) < 2 ^ (floorLog2 n d + 1) := lt_of_le_of_lt hratio hlt
    have hexp := (zpow_lt_zpow_iff_right₀ (by norm_num)).mp hpow
    omega
  have hleast : max (-1074) (floorLog2 n d - 52) = floorLog2 n d - 52 := by omega
  have hround : 2 ^ 52 ≤ roundHalfEven (scaled n d (floorLog2 n d - 52)).1
      (scaled n d (floorLog2 n d - 52)).2 := by
    refine le_roundHalfEven (scaled_pos hd _) (not_lt.mp fun hless => ?_)
    have hcontra := (scaled_lt hd _ 52).mp hless
    rw [show floorLog2 n d - 52 + (52 : Nat) = floorLog2 n d from by omega] at hcontra
    exact absurd hle (not_le.mpr hcontra)
  have hsize : ∀ e : Int, 1 ≤ e → ∀ m, 2 ^ 52 ≤ m → 2 ^ 53 ≤ m * 2 ^ e.toNat := by
    intro e he m hm
    have htwo : 2 ^ 1 ≤ 2 ^ e.toNat := Nat.pow_le_pow_right (by decide) (by omega)
    calc 2 ^ 53 = 2 ^ 52 * 2 ^ 1 := by decide
      _ ≤ m * 2 ^ e.toNat := Nat.mul_le_mul hm htwo
  rw [Binary64.ofRatio, if_neg (Nat.pos_iff_ne_zero.mp hpos), hleast]
  simp only
  generalize hm : roundHalfEven (scaled n d (floorLog2 n d - 52)).1
    (scaled n d (floorLog2 n d - 52)).2 = m at hround
  by_cases hcarry : m = 2 ^ 53
  · rw [if_pos hcarry]
    by_cases hgreat : floorLog2 n d - 52 + 1 > 971
    · rw [if_pos hgreat]
      exact .inl rfl
    · rw [if_neg hgreat]
      exact .inr ⟨2 ^ 52, _, rfl, by omega, hsize _ (by omega) _ (le_refl _)⟩
  · rw [if_neg hcarry]
    by_cases hgreat : floorLog2 n d - 52 > 971
    · rw [if_pos hgreat]
      exact .inl rfl
    · rw [if_neg hgreat]
      exact .inr ⟨m, _, rfl, by omega, hsize _ (by omega) _ hround⟩

-- What is at least 2^1024 rounds to an infinity.
theorem ofRatio_infinite {negative : Bool} {n d k : Nat} (hd : 0 < d) (hk : 1024 ≤ k)
    (h : 2 ^ k * d ≤ n) : Binary64.ofRatio negative n d = .infinite negative := by
  have hpos : 0 < n := by
    have hprod : 0 < 2 ^ k * d := Nat.mul_pos (Nat.two_pow_pos k) hd
    omega
  obtain ⟨-, hlt⟩ := floorLog2_spec hpos hd
  have hlog : 1024 ≤ floorLog2 n d := by
    have hratio : (2 : ℚ) ^ (k : Int) ≤ n / d := by
      rw [le_div_iff₀ (by exact_mod_cast hd), zpow_natCast]
      exact_mod_cast h
    have hpow : (2 : ℚ) ^ (k : Int) < 2 ^ (floorLog2 n d + 1) := lt_of_le_of_lt hratio hlt
    have hexp := (zpow_lt_zpow_iff_right₀ (by norm_num)).mp hpow
    omega
  have hleast : max (-1074) (floorLog2 n d - 52) = floorLog2 n d - 52 := by omega
  rw [Binary64.ofRatio, if_neg (Nat.pos_iff_ne_zero.mp hpos), hleast]
  simp only
  generalize roundHalfEven (scaled n d (floorLog2 n d - 52)).1
    (scaled n d (floorLog2 n d - 52)).2 = m
  by_cases hcarry : m = 2 ^ 53
  · rw [if_pos hcarry, if_pos (by omega)]
  · rw [if_neg hcarry, if_pos (by omega)]

end Json
