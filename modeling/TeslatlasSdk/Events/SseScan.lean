import TeslatlasSdk.Events.SseReference

/-!
# The reference, one scalar value at a time

`Scan` is the reference algorithm with the state that an incremental reader needs: the open block,
the open line, and whether an LF would belong to the line end just read.  It reads scalar values one
by one, so running it over a concatenation is running it over the parts.
-/

open Text Core

namespace Events

structure Scan where
  block : SseBlock
  line : List Char := []
  skip : Bool := false
  atStart : Bool := true

/-- Items given on the way, and the state after or the limit error. -/
abbrev ScanResult := List SseStreamItem × Except TeslatlasError Scan

namespace Scan

/-- One scalar value after the byte order mark has been dealt with. -/
def read (s : Scan) (c : Char) : ScanResult :=
  if s.skip ∧ c = '\n' then ([], .ok { s with skip := false })
  else if c = '\n' ∨ c = '\r' then
    if dataBytes (s.block.line (ofScalars s.line)).1.data > maximumEventDataBytes then
      ([], .error (.sseLimit "Sse.eventSize"))
    else
      ((s.block.line (ofScalars s.line)).2,
        .ok { s with block := (s.block.line (ofScalars s.line)).1, line := [], skip := c = '\r' })
  else if scalarBytes (s.line ++ [c]) > maximumLineBytes then
    ([], .error (.sseLimit "Sse.lineSize"))
  else ([], .ok { s with line := s.line ++ [c], skip := false })

def step (s : Scan) (c : Char) : ScanResult :=
  if s.atStart then
    if c.toNat = 0xFEFF then ([], .ok { s with atStart := false })
    else { s with atStart := false }.read c
  else s.read c

def run (s : Scan) : List Char → ScanResult
  | [] => ([], .ok s)
  | c :: cs =>
      match s.step c with
      | (items, .error e) => (items, .error e)
      | (items, .ok s') => (items ++ (s'.run cs).1, (s'.run cs).2)

/-- Go on with more text. -/
def resume (r : ScanResult) (cs : List Char) : ScanResult :=
  match r with
  | (items, .error e) => (items, .error e)
  | (items, .ok s) => (items ++ (s.run cs).1, (s.run cs).2)

theorem run_append (s : Scan) (cs ds : List Char) :
    s.run (cs ++ ds) = resume (s.run cs) ds := by
  induction cs generalizing s with
  | nil => simp [run, resume]
  | cons c cs ih =>
    rw [List.cons_append, run.eq_def s (c :: (cs ++ ds)), run.eq_def s (c :: cs)]
    simp only
    rcases s.step c with ⟨items, e | s'⟩
    · rfl
    · simp only [ih]
      rcases s'.run cs with ⟨items', e | s''⟩ <;> simp [resume]

/-! ## Against the reference -/

/-- The scan as a whole-stream run: the state after the last scalar value is dropped. -/
def toRun : ScanResult → SseRun
  | (items, .error e) => { items, error := some e }
  | (items, .ok _) => { items, error := none }

theorem step_of_not_atStart {s : Scan} (h : s.atStart = false) (c : Char) : s.step c = s.read c := by
  rw [step, if_neg (by simp [h])]

-- A line that is already too long makes the limited reference fail at once.
theorem limited_prependLine_of_lineTooLong (b : SseBlock) (line : List Char) (cut : Cut Char)
    (h : scalarBytes line > maximumLineBytes) :
    b.limited (ofScalars (prependLine line cut).2) ((prependLine line cut).1.map ofScalars) =
      { items := [], error := some (.sseLimit "Sse.lineSize") } := by
  obtain ⟨_ | ⟨first, lines⟩, last⟩ := cut
  · simp only [prependLine, List.map_nil, SseBlock.limited]
    rw [if_pos]
    rw [utf8Length_ofScalars, scalarBytes_append]
    omega
  · simp only [prependLine, List.map_cons, SseBlock.limited]
    rw [if_pos]
    rw [utf8Length_ofScalars, scalarBytes_append]
    omega

-- Scanning a text from an open line is the limited reference on the lines of that text.
theorem toRun_run_eq_limited (s : Scan) (cs : List Char) (hstart : s.atStart = false)
    (hline : scalarBytes s.line ≤ maximumLineBytes) :
    toRun (s.run cs) =
      s.block.limited (ofScalars (splitFrom '\r' '\n' s.skip s.line cs).2)
        ((splitFrom '\r' '\n' s.skip s.line cs).1.map ofScalars) := by
  induction cs generalizing s with
  | nil =>
    rw [run, splitFrom, List.map_nil, SseBlock.limited, if_neg]
    · rfl
    · rw [utf8Length_ofScalars]; exact Nat.not_lt.mpr hline
  | cons c cs ih =>
    rw [run, step_of_not_atStart hstart, read, splitFrom]
    by_cases hskip : s.skip = true ∧ c = '\n'
    · rw [if_pos hskip, if_pos hskip]
      exact ih { s with skip := false } hstart hline
    rw [if_neg hskip, if_neg hskip]
    by_cases hend : c = '\n' ∨ c = '\r'
    · rw [if_pos hend, if_pos hend]
      have hshort : ¬ utf8Length (ofScalars s.line) > maximumLineBytes := by
        rw [utf8Length_ofScalars]; omega
      simp only [endLine, List.map_cons, SseBlock.limited]
      rw [if_neg hshort]
      by_cases hdata : dataBytes (s.block.line (ofScalars s.line)).1.data > maximumEventDataBytes
      · rw [if_pos hdata, if_pos hdata]; rfl
      · rw [if_neg hdata, if_neg hdata]
        have h := ih { s with block := (s.block.line (ofScalars s.line)).1, line := [],
                              skip := c = '\r' } hstart (by simp)
        simp only at h ⊢
        rw [← h]
        rcases run _ cs with ⟨items, e | s'⟩ <;> rfl
    · rw [if_neg hend, if_neg hend]
      by_cases hlong : scalarBytes (s.line ++ [c]) > maximumLineBytes
      · rw [if_pos hlong, splitFrom_eq, limited_prependLine_of_lineTooLong _ _ _ hlong]
        rfl
      · rw [if_neg hlong]
        exact ih { s with line := s.line ++ [c], skip := false } hstart (Nat.not_lt.mp hlong)

-- Scanning a whole stream, byte order mark included, is the limited reference.
theorem toRun_run_eq_reference (b : SseBlock) (cs : List Char) :
    toRun (Scan.run { block := b } cs) =
      b.limited (streamRemainder (stripByteOrderMark cs)) (streamLines (stripByteOrderMark cs)) := by
  have hread : ∀ cs, toRun (Scan.run { block := b, atStart := false } cs) =
      b.limited (streamRemainder cs) (streamLines cs) := by
    intro cs
    rw [toRun_run_eq_limited _ _ rfl (by simp), splitFrom_eq, prependLine_nil, afterLineEnd_false]
    rfl
  cases cs with
  | nil => rw [← hread]; rfl
  | cons c cs =>
    rw [← hread, stripByteOrderMark]
    by_cases hc : c.toNat = 0xFEFF
    · rw [if_pos hc, run, step, if_pos rfl, if_pos hc]
      rfl
    · rw [if_neg hc, run, step, if_pos rfl, if_neg hc, run, step_of_not_atStart rfl]

/-! ## Where the limits can be hit

A block's data and the open line together grow no faster than the text, so an item that ends a block
is always followed by a whole budget of text before any limit can be broken.
-/

/-- Budget used up by the open block and the open line. -/
def weight (s : Scan) : Nat := dataBytes s.block.data + scalarBytes s.line

theorem utf8Length_cons_of_lt {u : CodeUnit} (hu : u < 0x80) (s : JsString) :
    utf8Length (u :: s) = 1 + utf8Length s := by
  have hh : isHighSurrogate u = false := by
    simp only [isHighSurrogate, Bool.and_eq_false_iff, decide_eq_false_iff_not]
    left
    rw [UInt16.lt_iff_toNat_lt] at hu
    rw [UInt16.le_iff_toNat_le]
    simp at hu ⊢
    omega
  cases s with
  | nil => simp [utf8Length, unitUtf8Length, hu]
  | cons v s => simp [utf8Length, unitUtf8Length, hu, hh]

theorem utf8Length_fieldValue_le (line : JsString) :
    utf8Length (fieldValue line) ≤ utf8Length ((line.dropWhile (· != colon)).drop 1) := by
  unfold fieldValue
  split
  · simp [utf8Length]
  · simp [utf8Length]
  · next h =>
    rw [h, List.drop_one, List.tail_cons]
    split
    · next hs => rw [hs, utf8Length_cons_of_lt (by decide)]; omega
    · exact Nat.le_refl _

-- A data line spends at least as much text as it adds to the block, its line break included.
theorem utf8Length_fieldValue_lt {line : JsString}
    (hname : line.takeWhile (· != colon) = js "data") :
    utf8Length (fieldValue line) + 1 ≤ utf8Length line := by
  have hv := utf8Length_fieldValue_le line
  have hline : line = js "data" ++ line.dropWhile (· != colon) := by
    rw [← hname, List.takeWhile_append_dropWhile]
  have hdata : ∀ rest, utf8Length (js "data" ++ rest) = 4 + utf8Length rest := by
    intro rest
    have hjs : js "data" = [0x64, 0x61, 0x74, 0x61] := by decide
    rw [hjs]
    simp only [List.cons_append, List.nil_append]
    rw [utf8Length_cons_of_lt (by decide), utf8Length_cons_of_lt (by decide),
      utf8Length_cons_of_lt (by decide), utf8Length_cons_of_lt (by decide)]
    omega
  have hdrop : utf8Length ((line.dropWhile (· != colon)).drop 1) ≤
      utf8Length (line.dropWhile (· != colon)) := by
    cases hd : line.dropWhile (· != colon) with
    | nil => simp
    | cons u rest =>
      have hu : u = colon := by
        have h : line.dropWhile (· != colon) ≠ [] := by simp [hd]
        simpa [hd] using List.head_dropWhile_not (· != colon) h
      rw [hu, utf8Length_cons_of_lt (by decide)]
      simp
  rw [hline, hdata, ← hline]
  omega

-- A line adds to the block's data no more than its own length.
theorem dataBytes_line_le (b : SseBlock) (line : JsString) :
    dataBytes (b.line line).1.data ≤ dataBytes b.data + utf8Length line := by
  unfold SseBlock.line
  split
  · simp [SseBlock.dispatch]
  split
  · simp
  unfold SseBlock.field
  split
  · next hname =>
    have := utf8Length_fieldValue_lt hname
    simp only [dataBytes_append_singleton]
    omega
  repeat' split
  all_goals simp

-- Only the end of a block gives an event or a checkpoint, and it leaves no data behind.
theorem line_delivery (b : SseBlock) (line : JsString) :
    ((b.line line).2.filter isDelivery = []) ∨ (line = [] ∧ (b.line line).1.data = []) := by
  unfold SseBlock.line
  split
  · next h => exact .inr ⟨h, rfl⟩
  split
  · exact .inl rfl
  unfold SseBlock.field
  repeat' split
  all_goals exact .inl rfl

-- A step that fails gives nothing; one that delivers leaves no weight.
theorem read_delivery (s : Scan) (c : Char) :
    (s.read c).1.filter isDelivery = [] ∨ ∃ s', (s.read c).2 = .ok s' ∧ s'.weight = 0 := by
  rw [read]
  split
  · exact .inl rfl
  split
  · split
    · exact .inl rfl
    · rcases line_delivery s.block (ofScalars s.line) with hd | ⟨-, hd⟩
      · exact .inl hd
      · exact .inr ⟨_, rfl, by simp [weight, hd]⟩
  · split
    all_goals exact .inl rfl

theorem step_delivery (s : Scan) (c : Char) :
    (s.step c).1.filter isDelivery = [] ∨ ∃ s', (s.step c).2 = .ok s' ∧ s'.weight = 0 := by
  unfold step
  split
  · split
    · exact .inl rfl
    · exact read_delivery _ c
  · exact read_delivery s c

-- Within the budget a scalar value is read and adds at most its size to the weight.
theorem read_weight (s : Scan) (c : Char) (h : s.weight + c.utf8Size ≤ maximumEventDataBytes) :
    ∃ s', (s.read c).2 = .ok s' ∧ s'.weight ≤ s.weight + c.utf8Size := by
  have hmax : maximumEventDataBytes ≤ maximumLineBytes := by decide
  unfold weight at h
  rw [read]
  split
  · exact ⟨_, rfl, by simp [weight]⟩
  split
  · have hle := dataBytes_line_le s.block (ofScalars s.line)
    rw [utf8Length_ofScalars] at hle
    rw [if_neg (by omega)]
    exact ⟨_, rfl, by simp only [weight, scalarBytes_nil]; omega⟩
  · rw [if_neg (by simp; omega)]
    exact ⟨_, rfl, by simp [weight]; omega⟩

theorem step_weight (s : Scan) (c : Char) (h : s.weight + c.utf8Size ≤ maximumEventDataBytes) :
    ∃ s', (s.step c).2 = .ok s' ∧ s'.weight ≤ s.weight + c.utf8Size := by
  unfold step
  split
  · split
    · exact ⟨_, rfl, by simp [weight]⟩
    · exact read_weight { s with atStart := false } c h
  · exact read_weight s c h

theorem run_cons_error {s : Scan} {c : Char} {e : TeslatlasError} (h : (s.step c).2 = .error e)
    (cs : List Char) : s.run (c :: cs) = ((s.step c).1, .error e) := by
  rw [run]
  rcases hs : s.step c with ⟨items, r⟩
  rw [hs] at h
  subst h
  rfl

theorem run_cons_ok {s s' : Scan} {c : Char} (h : (s.step c).2 = .ok s') (cs : List Char) :
    s.run (c :: cs) = ((s.step c).1 ++ (s'.run cs).1, (s'.run cs).2) := by
  rw [run]
  rcases hs : s.step c with ⟨items, r⟩
  rw [hs] at h
  subst h
  rfl

-- A text that fits the budget is read without error.
theorem run_ok_of_weight (s : Scan) (cs : List Char)
    (h : s.weight + scalarBytes cs ≤ maximumEventDataBytes) : ∃ s', (s.run cs).2 = .ok s' := by
  induction cs generalizing s with
  | nil => exact ⟨s, rfl⟩
  | cons c cs ih =>
    rw [scalarBytes_cons] at h
    obtain ⟨s', hs, hw⟩ := s.step_weight c (by omega)
    rw [run_cons_ok hs]
    exact ih s' (by omega)

-- A short text that breaks a limit delivers nothing: at most retry hints come before the error.
theorem run_error_delivers_nothing (s : Scan) (cs : List Char) {e : TeslatlasError}
    (hcs : scalarBytes cs ≤ maximumEventDataBytes) (h : (s.run cs).2 = .error e) :
    (s.run cs).1.filter isDelivery = [] := by
  induction cs generalizing s with
  | nil => simp [run] at h
  | cons c cs ih =>
    rw [scalarBytes_cons] at hcs
    rcases hs : (s.step c).2 with e' | s'
    · rw [run_cons_error hs]
      rcases s.step_delivery c with hd | ⟨s', hs', -⟩
      · exact hd
      · rw [hs] at hs'; cases hs'
    · rw [run_cons_ok hs] at h ⊢
      rcases s.step_delivery c with hd | ⟨s'', hs'', hw⟩
      · rw [List.filter_append, hd, ih s' (by omega) h, List.nil_append]
      · -- The block has just ended, so the rest of the text cannot break a limit.
        rw [hs] at hs''
        cases hs''
        obtain ⟨_, hok⟩ := run_ok_of_weight s' cs (by omega)
        rw [hok] at h
        cases h

end Scan

end Events
