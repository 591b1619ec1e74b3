import TeslatlasSdk.Text.CodeUnits
import Mathlib.Data.List.DropRight
import Mathlib.Tactic.Ring

/-!
# Decimal digits
-/

namespace Text

def isDigit (u : CodeUnit) : Bool := 0x30 ≤ u && u ≤ 0x39

/-- The integer that a string of digits denotes. -/
def digitsValue (s : JsString) : Nat := s.foldl (fun n u => 10 * n + (u.toNat - 0x30)) 0

/-- `String(n)` for a natural number. -/
def decimal (n : Nat) : JsString :=
  if n < 10 then [UInt16.ofNat (0x30 + n)]
  else decimal (n / 10) ++ [UInt16.ofNat (0x30 + n % 10)]

theorem digitsValue_append_singleton (s : JsString) (u : CodeUnit) :
    digitsValue (s ++ [u]) = 10 * digitsValue s + (u.toNat - 0x30) := by
  simp [digitsValue]

theorem digitsValue_append (s t : JsString) :
    digitsValue (s ++ t) = digitsValue s * 10 ^ t.length + digitsValue t := by
  induction t using List.reverseRecOn with
  | nil => simp [digitsValue]
  | append_singleton t u ih =>
    rw [← List.append_assoc, digitsValue_append_singleton, ih, digitsValue_append_singleton,
      List.length_append, List.length_singleton, pow_succ]
    ring

theorem digitsValue_replicate_zero (n : Nat) : digitsValue (List.replicate n 0x30) = 0 := by
  induction n with
  | zero => rfl
  | succ n ih =>
    rw [List.replicate_succ', digitsValue_append_singleton, ih]
    decide

-- Leading zeros do not count, and trailing ones count as powers of ten.
theorem digitsValue_dropWhile_zero (s : JsString) :
    digitsValue (s.dropWhile (· = 0x30)) = digitsValue s := by
  induction s with
  | nil => rfl
  | cons u s ih =>
    rw [List.dropWhile_cons]
    split
    · next hu =>
      have h : digitsValue (u :: s) = digitsValue [u] * 10 ^ s.length + digitsValue s :=
        digitsValue_append [u] s
      rw [decide_eq_true_eq] at hu
      rw [ih, h, hu, show digitsValue [0x30] = 0 from rfl]
      omega
    · rfl

theorem digitsValue_rdropWhile_zero (s : JsString) :
    digitsValue s = digitsValue (s.rdropWhile (· = 0x30)) *
      10 ^ (s.length - (s.rdropWhile (· = 0x30)).length) := by
  induction s using List.reverseRecOn with
  | nil => rfl
  | append_singleton s u ih =>
    by_cases hu : u = 0x30
    · have hdrop : (s ++ [u]).rdropWhile (· = 0x30) = s.rdropWhile (· = 0x30) := by
        rw [List.rdropWhile_concat_pos _ _ _ (by simp [hu])]
      have hle : (s.rdropWhile (· = 0x30)).length ≤ s.length := by
        have h := (List.dropWhile_suffix (p := fun v => decide (v = 0x30)) (l := s.reverse)).length_le
        simpa [List.rdropWhile] using h
      have hsucc : (s ++ [u]).length - (s.rdropWhile (· = 0x30)).length =
          s.length - (s.rdropWhile (· = 0x30)).length + 1 := by
        rw [List.length_append, List.length_singleton]
        omega
      have hzero : (u.toNat - 0x30 : Nat) = 0 := by
        rw [hu]
        rfl
      rw [digitsValue_append_singleton, hdrop, hsucc, pow_succ, hzero, ih]
      ring
    · rw [List.rdropWhile_concat_neg _ _ _ (by simp [hu]), Nat.sub_self, pow_zero, mul_one]

theorem digitsValue_decimal (n : Nat) : digitsValue (decimal n) = n := by
  induction n using Nat.strongRecOn with
  | ind n ih =>
    rw [decimal]
    split
    · next h =>
      show 10 * 0 + ((UInt16.ofNat (0x30 + n)).toNat - 0x30) = n
      rw [UInt16.toNat_ofNat']
      omega
    · next h =>
      rw [digitsValue_append_singleton, ih (n / 10) (by omega), UInt16.toNat_ofNat']
      omega

theorem isDigit_decimal (n : Nat) : ∀ u ∈ decimal n, isDigit u = true := by
  have hdigit : ∀ k, k < 10 → isDigit (UInt16.ofNat (0x30 + k)) = true := by decide
  induction n using Nat.strongRecOn with
  | ind n ih =>
    intro u hu
    rw [decimal] at hu
    split at hu
    · next h =>
      rw [List.mem_singleton.mp hu]
      exact hdigit n h
    · next h =>
      rcases List.mem_append.mp hu with hu | hu
      · exact ih (n / 10) (by omega) u hu
      · rw [List.mem_singleton.mp hu]
        exact hdigit (n % 10) (by omega)

theorem decimal_ne_nil (n : Nat) : decimal n ≠ [] := by
  rw [decimal]
  split <;> simp

-- Only zero is written with a zero in front.
theorem head_decimal {n : Nat} (hn : 0 < n) : ∃ u s, decimal n = u :: s ∧ u ≠ 0x30 := by
  induction n using Nat.strongRecOn with
  | ind n ih =>
    have hdigit : ∀ k, k < 10 → 0 < k → UInt16.ofNat (0x30 + k) ≠ 0x30 := by decide
    rw [decimal]
    split
    · next h => exact ⟨_, [], rfl, hdigit n h hn⟩
    · next h =>
      obtain ⟨u, s, hs, hu⟩ := ih (n / 10) (by omega) (by omega)
      exact ⟨u, s ++ [UInt16.ofNat (0x30 + n % 10)], by rw [hs, List.cons_append], hu⟩

theorem decimal_injective {m n : Nat} (h : decimal m = decimal n) : m = n := by
  rw [← digitsValue_decimal m, h, digitsValue_decimal]

end Text
