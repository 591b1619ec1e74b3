import Mathlib.Data.List.Basic

/-!
# Lines ended by CR, LF or CRLF

`splitLines` cuts a whole text; `splitFrom` is the same cut made left to right with the state an
incremental reader keeps: the open line and whether the last line end was a CR that may still be
followed by its LF.  Nothing here depends on what the symbols are.
-/

namespace Text

variable {α : Type}

/-- Terminated lines in order, and the unterminated remainder. -/
abbrev Cut (α : Type) := List (List α) × List α

/-- Put an open line in front of a cut. -/
def prependLine (line : List α) : Cut α → Cut α
  | ([], last) => ([], line ++ last)
  | (first :: lines, last) => ((line ++ first) :: lines, last)

/-- Put a terminated line in front of a cut. -/
def endLine (line : List α) (cut : Cut α) : Cut α := (line :: cut.1, cut.2)

@[simp] theorem prependLine_nil (cut : Cut α) : prependLine [] cut = cut := by
  obtain ⟨_ | _, _⟩ := cut <;> rfl

@[simp] theorem prependLine_endLine (xs ys : List α) (cut : Cut α) :
    prependLine xs (endLine ys cut) = endLine (xs ++ ys) cut := rfl

theorem prependLine_prependLine (xs ys : List α) (cut : Cut α) :
    prependLine xs (prependLine ys cut) = prependLine (xs ++ ys) cut := by
  obtain ⟨_ | _, _⟩ := cut <;> simp [prependLine]

variable [DecidableEq α]

/-- The terminated lines of a text and its unterminated remainder. -/
def splitLines (cr lf : α) : List α → Cut α
  | [] => ([], [])
  | [a] => if a = lf ∨ a = cr then ([[]], []) else ([], [a])
  | a :: b :: rest =>
      if a = cr ∧ b = lf then endLine [] (splitLines cr lf rest)
      else if a = lf ∨ a = cr then endLine [] (splitLines cr lf (b :: rest))
      else prependLine [a] (splitLines cr lf (b :: rest))

/-- The cut read left to right: `skip` after a CR, `line` the open line. -/
def splitFrom (cr lf : α) (skip : Bool) (line : List α) : List α → Cut α
  | [] => ([], line)
  | a :: rest =>
      if skip ∧ a = lf then splitFrom cr lf false line rest
      else if a = lf ∨ a = cr then endLine line (splitFrom cr lf (decide (a = cr)) [] rest)
      else splitFrom cr lf false (line ++ [a]) rest

/-- The rest of a text after a line end: its LF is dropped when the line end was a CR. -/
def afterLineEnd (lf : α) (skip : Bool) (rest : List α) : List α :=
  if skip ∧ rest.head? = some lf then rest.tail else rest

@[simp] theorem afterLineEnd_false (lf : α) (rest : List α) : afterLineEnd lf false rest = rest := by
  simp [afterLineEnd]

theorem splitLines_cons {cr lf : α} (a : α) (rest : List α) :
    splitLines cr lf (a :: rest) =
      if a = lf ∨ a = cr then
        endLine [] (splitLines cr lf (afterLineEnd lf (decide (a = cr)) rest))
      else prependLine [a] (splitLines cr lf rest) := by
  cases rest with
  | nil => by_cases h : a = lf ∨ a = cr <;> simp [splitLines, afterLineEnd, endLine, prependLine, h]
  | cons b rest =>
    simp only [splitLines, afterLineEnd, decide_eq_true_eq, List.head?_cons, Option.some.injEq,
      List.tail_cons]
    by_cases hcr : a = cr ∧ b = lf
    · rw [if_pos hcr, if_pos (.inr hcr.1), if_pos hcr]
    · rw [if_neg hcr, if_neg hcr]

-- Reading left to right from an open line gives the cut of the text after that line.
theorem splitFrom_eq {cr lf : α} (skip : Bool) (line text : List α) :
    splitFrom cr lf skip line text =
      prependLine line (splitLines cr lf (afterLineEnd lf skip text)) := by
  induction text generalizing skip line with
  | nil => simp [splitFrom, splitLines, prependLine, afterLineEnd]
  | cons a rest ih =>
    by_cases hskip : skip ∧ a = lf
    · rw [splitFrom, if_pos hskip, ih]
      simp [afterLineEnd, hskip]
    · have htext : afterLineEnd lf skip (a :: rest) = a :: rest := by
        simpa [afterLineEnd] using hskip
      rw [splitFrom, if_neg hskip, htext, splitLines_cons]
      by_cases hend : a = lf ∨ a = cr
      · rw [if_pos hend, if_pos hend, ih, prependLine_nil, prependLine_endLine, List.append_nil]
      · rw [if_neg hend, if_neg hend, ih, afterLineEnd_false, prependLine_prependLine]

end Text
