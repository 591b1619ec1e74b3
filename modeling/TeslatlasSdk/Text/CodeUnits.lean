import Mathlib.Data.List.Basic
import Mathlib.Algebra.BigOperators.Group.List.Basic
import Mathlib.Algebra.GroupWithZero.Nat

/-!
# Strings of UTF-16 code units

A script string is a sequence of 16-bit code units, surrogates paired or not.  The strings that come
out of a text decoder are better behaved: they spell Unicode scalar values.  The two views meet in
`ofScalars`, and the UTF-8 length an encoder would give a string is additive on that image only,
which is why length accounting over fragments is stated there.
-/

namespace Text

/-- One UTF-16 code unit. -/
abbrev CodeUnit := UInt16

/-- A script string: its code units in order. -/
abbrev JsString := List CodeUnit

instance : LawfulBEq (List CodeUnit) := inferInstance

/-- The code units of one scalar value: itself, or a surrogate pair. -/
def encodeScalar (c : Char) : JsString :=
  if c.toNat < 0x10000 then [UInt16.ofNat c.toNat]
  else [UInt16.ofNat (0xD800 + (c.toNat - 0x10000) / 0x400),
    UInt16.ofNat (0xDC00 + (c.toNat - 0x10000) % 0x400)]

/-- The string that spells a list of scalar values. -/
def ofScalars (cs : List Char) : JsString := cs.flatMap encodeScalar

/-- A string literal. -/
def js (s : String) : JsString := ofScalars s.toList

def isHighSurrogate (u : CodeUnit) : Bool := 0xD800 ≤ u && u ≤ 0xDBFF

def isLowSurrogate (u : CodeUnit) : Bool := 0xDC00 ≤ u && u ≤ 0xDFFF

/-- UTF-8 bytes of a code unit on its own; a lone surrogate is encoded as U+FFFD. -/
def unitUtf8Length (u : CodeUnit) : Nat :=
  if u < 0x80 then 1 else if u < 0x800 then 2 else 3

/-- Number of bytes a UTF-8 text encoder writes for a string. -/
def utf8Length : JsString → Nat
  | [] => 0
  | [u] => unitUtf8Length u
  | u :: v :: rest =>
      if isHighSurrogate u && isLowSurrogate v then 4 + utf8Length rest
      else unitUtf8Length u + utf8Length (v :: rest)

@[simp] theorem ofScalars_nil : ofScalars [] = [] := rfl

@[simp] theorem ofScalars_cons (c : Char) (cs : List Char) :
    ofScalars (c :: cs) = encodeScalar c ++ ofScalars cs := by
  simp [ofScalars]

@[simp] theorem ofScalars_append (cs ds : List Char) :
    ofScalars (cs ++ ds) = ofScalars cs ++ ofScalars ds := by
  simp [ofScalars]

theorem encodeScalar_ne_nil (c : Char) : encodeScalar c ≠ [] := by
  unfold encodeScalar
  split <;> simp

@[simp] theorem ofScalars_eq_nil {cs : List Char} : ofScalars cs = [] ↔ cs = [] := by
  cases cs with
  | nil => simp
  | cons c cs => simp [encodeScalar_ne_nil]

theorem scalar_ranges (c : Char) : c.toNat < 0xD800 ∨ (0xDFFF < c.toNat ∧ c.toNat < 0x110000) := by
  have h := c.valid
  simpa [UInt32.isValidChar, Nat.isValidChar] using h

theorem encodeScalar_of_lt {c : Char} (h : c.toNat < 0x10000) :
    encodeScalar c = [UInt16.ofNat c.toNat] := if_pos h

theorem encodeScalar_of_le {c : Char} (h : 0x10000 ≤ c.toNat) :
    encodeScalar c = [UInt16.ofNat (0xD800 + (c.toNat - 0x10000) / 0x400),
      UInt16.ofNat (0xDC00 + (c.toNat - 0x10000) % 0x400)] := if_neg (by omega)

/-! ## UTF-8 length -/

theorem utf8Size_eq (c : Char) :
    c.utf8Size =
      if c.toNat < 0x80 then 1 else if c.toNat < 0x800 then 2
      else if c.toNat < 0x10000 then 3 else 4 := by
  have h₁ : c.val ≤ 0x7F ↔ c.toNat < 0x80 := by rw [UInt32.le_iff_toNat_le]; exact Nat.lt_succ_iff.symm
  have h₂ : c.val ≤ 0x7FF ↔ c.toNat < 0x800 := by
    rw [UInt32.le_iff_toNat_le]; exact Nat.lt_succ_iff.symm
  have h₃ : c.val ≤ 0xFFFF ↔ c.toNat < 0x10000 := by
    rw [UInt32.le_iff_toNat_le]; exact Nat.lt_succ_iff.symm
  exact ite_congr (propext h₁) (fun _ => rfl)
    fun _ => ite_congr (propext h₂) (fun _ => rfl) fun _ => ite_congr (propext h₃) (fun _ => rfl)
      fun _ => rfl

-- An encoder spends `utf8Size` bytes on the leading scalar value whatever follows it.
theorem utf8Length_encodeScalar_append (c : Char) (s : JsString) :
    utf8Length (encodeScalar c ++ s) = c.utf8Size + utf8Length s := by
  have hr := scalar_ranges c
  rw [utf8Size_eq]
  by_cases hb : c.toNat < 0x10000
  · have hn : (UInt16.ofNat c.toNat).toNat = c.toNat := by simp; omega
    have hh : isHighSurrogate (UInt16.ofNat c.toNat) = false := by
      simp only [isHighSurrogate, UInt16.le_iff_toNat_le, hn, Bool.and_eq_false_iff,
        decide_eq_false_iff_not]
      simp
      omega
    have hu : unitUtf8Length (UInt16.ofNat c.toNat) =
        if c.toNat < 0x80 then 1 else if c.toNat < 0x800 then 2 else 3 := by
      simp only [unitUtf8Length, UInt16.lt_iff_toNat_lt, hn]
      simp
    rw [encodeScalar_of_lt hb, if_pos hb, ← hu]
    cases s with
    | nil => simp [utf8Length]
    | cons v rest => simp [utf8Length, hh]
  · have hp : isHighSurrogate (UInt16.ofNat (0xD800 + (c.toNat - 0x10000) / 0x400)) = true ∧
        isLowSurrogate (UInt16.ofNat (0xDC00 + (c.toNat - 0x10000) % 0x400)) = true := by
      simp only [isHighSurrogate, isLowSurrogate, Bool.and_eq_true, decide_eq_true_eq,
        UInt16.le_iff_toNat_le, UInt16.toNat_ofNat']
      simp
      omega
    rw [encodeScalar_of_le (by omega), if_neg (by omega), if_neg (by omega), if_neg hb,
      List.cons_append, List.cons_append, List.nil_append, utf8Length, hp.1, hp.2]
    rfl

/-- Total UTF-8 size of a list of scalar values. -/
def scalarBytes (cs : List Char) : Nat := (cs.map Char.utf8Size).sum

@[simp] theorem scalarBytes_nil : scalarBytes [] = 0 := rfl

@[simp] theorem scalarBytes_cons (c : Char) (cs : List Char) :
    scalarBytes (c :: cs) = c.utf8Size + scalarBytes cs := by
  simp [scalarBytes]

@[simp] theorem scalarBytes_append (cs ds : List Char) :
    scalarBytes (cs ++ ds) = scalarBytes cs + scalarBytes ds := by
  simp [scalarBytes]

-- On the spelling of scalar values, the UTF-8 length is the sum over the values.
theorem utf8Length_ofScalars (cs : List Char) : utf8Length (ofScalars cs) = scalarBytes cs := by
  induction cs with
  | nil => rfl
  | cons c cs ih => rw [ofScalars_cons, utf8Length_encodeScalar_append, ih, scalarBytes_cons]

/-! ## Code units below the surrogates -/

-- A code unit below the surrogate range occurs in a spelling only as its own scalar value.
theorem mem_encodeScalar_iff {u : CodeUnit} (hu : u.toNat < 0xD800) (c : Char) :
    u ∈ encodeScalar c ↔ c.toNat = u.toNat := by
  have hr := scalar_ranges c
  unfold encodeScalar
  split
  · simp only [List.mem_singleton, ← UInt16.toNat_inj, UInt16.toNat_ofNat']
    omega
  · simp only [List.mem_cons, List.not_mem_nil, or_false, ← UInt16.toNat_inj,
      UInt16.toNat_ofNat']
    omega

end Text
