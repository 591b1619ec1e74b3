import TeslatlasSdk.Events.SseScan

/-!
# The incremental parser refines the reference

`Represents` relates the parser's segments and counters to the open block and line of a `Scan`.
Feeding a decoded window keeps the relation, so every chunking of a stream gives the run of the scan
over the whole text, and with it the reference.
-/

open Text Core

namespace Events

/-- The parser's account of the open block. -/
structure RepresentsBlock (p : IncrementalSseParser) (b : SseBlock) : Prop where
  eventType : p.eventType = b.eventType
  lastEventId : p.lastEventId = b.lastEventId
  idChanged : p.blockIdChanged = b.idChanged
  data : p.data.text ++ List.replicate p.emptyDataLines lineFeed = b.data.flatMap (· ++ [lineFeed])
  eventDataBytes : p.eventDataBytes = dataBytes b.data

/-- The parser's account of the whole scan. -/
structure Represents (p : IncrementalSseParser) (s : Scan) : Prop where
  block : RepresentsBlock p s.block
  line : p.line.text = ofScalars s.line
  lineBytes : p.lineBytes = scalarBytes s.line
  skip : p.skipLineFeed = s.skip
  atStart : p.atStart = s.atStart

/-- `q` differs from `p` in its block and its items only. -/
structure SameLine (p q : IncrementalSseParser) : Prop where
  line : q.line = p.line
  lineBytes : q.lineBytes = p.lineBytes
  skip : q.skipLineFeed = p.skipLineFeed
  atStart : q.atStart = p.atStart

theorem SameLine.refl (p : IncrementalSseParser) : SameLine p p := ⟨rfl, rfl, rfl, rfl⟩

namespace IncrementalSseParser

@[simp] theorem flushEmptyData_text (p : IncrementalSseParser) :
    p.flushEmptyData.data.text = p.data.text ++ List.replicate p.emptyDataLines lineFeed := by
  unfold flushEmptyData
  split
  · exact Segments.text_append _ _
  · next h => rw [Nat.eq_zero_of_not_pos h]; simp

@[simp] theorem flushEmptyData_emptyDataLines (p : IncrementalSseParser) :
    p.flushEmptyData.emptyDataLines = 0 := by
  unfold flushEmptyData
  split
  · rfl
  · next h => exact Nat.eq_zero_of_not_pos h

-- Moving empty lines into the segments changes nothing else.
theorem flushEmptyData_frame (p : IncrementalSseParser) :
    SameLine p p.flushEmptyData ∧ p.flushEmptyData.items = p.items ∧
      p.flushEmptyData.eventType = p.eventType ∧ p.flushEmptyData.lastEventId = p.lastEventId ∧
      p.flushEmptyData.blockIdChanged = p.blockIdChanged ∧
      p.flushEmptyData.eventDataBytes = p.eventDataBytes := by
  unfold flushEmptyData
  split <;> exact ⟨⟨rfl, rfl, rfl, rfl⟩, rfl, rfl, rfl, rfl, rfl⟩

end IncrementalSseParser

theorem flatMap_lineFeed {data : List JsString} (h : data ≠ []) :
    data.flatMap (· ++ [lineFeed]) = [lineFeed].intercalate data ++ [lineFeed] := by
  induction data with
  | nil => exact absurd rfl h
  | cons value data ih =>
    cases data with
    | nil => simp
    | cons next data =>
      rw [List.flatMap_cons, ih (by simp)]
      simp [List.intercalate, List.intersperse]

theorem dispatchBlock_represents {p : IncrementalSseParser} {b : SseBlock}
    (h : RepresentsBlock p b) :
    RepresentsBlock p.dispatchBlock b.dispatch.1 ∧
      p.dispatchBlock.items = p.items ++ b.dispatch.2 ∧ SameLine p p.dispatchBlock := by
  obtain ⟨hline, hitems, htype, hid, -, -⟩ := p.flushEmptyData_frame
  have hpos : p.eventDataBytes > 0 ↔ b.data ≠ [] := by
    rw [h.eventDataBytes]
    exact dataBytes_pos_iff b.data
  unfold IncrementalSseParser.dispatchBlock SseBlock.dispatch
  by_cases hd : b.data ≠ []
  · have htext : (p.data.text ++ List.replicate p.emptyDataLines lineFeed).dropLast =
        [lineFeed].intercalate b.data := by
      rw [h.data, flatMap_lineFeed hd, List.dropLast_concat]
    rw [if_pos (hpos.mpr hd), if_pos hd]
    refine ⟨⟨rfl, by simp [hid, h.lastEventId], rfl, by simp, rfl⟩, ?_, ?_⟩
    · simp [htext, hitems, htype, hid, h.eventType, h.lastEventId]
    · exact ⟨hline.line, hline.lineBytes, hline.skip, hline.atStart⟩
  · rw [if_neg (mt hpos.mp hd), if_neg hd]
    by_cases hc : p.blockIdChanged
    · rw [if_pos hc, if_pos (h.idChanged ▸ hc)]
      exact ⟨⟨rfl, h.lastEventId, rfl, by simp, rfl⟩, by simp [h.lastEventId], rfl, rfl, rfl, rfl⟩
    · rw [if_neg hc, if_neg (h.idChanged ▸ hc)]
      exact ⟨⟨rfl, h.lastEventId, rfl, by simp, rfl⟩, by simp, rfl, rfl, rfl, rfl⟩

/-- What handling a line must do to the parser: the reference's step, or the size error. -/
def HandlesLine (p : IncrementalSseParser) (step : SseBlock × List SseStreamItem)
    (result : Except TeslatlasError IncrementalSseParser) : Prop :=
  if dataBytes step.1.data > maximumEventDataBytes then
    result = .error (.sseLimit "Sse.eventSize")
  else ∃ q, result = .ok q ∧ RepresentsBlock q step.1 ∧ q.items = p.items ++ step.2 ∧ SameLine p q

theorem handleField_represents {p : IncrementalSseParser} {b : SseBlock}
    (h : RepresentsBlock p b) (hb : dataBytes b.data ≤ maximumEventDataBytes)
    (name value : JsString) : HandlesLine p (b.field name value) (p.handleField name value) := by
  have hsame : ∀ q : IncrementalSseParser, RepresentsBlock q b → q.items = p.items →
      SameLine p q → HandlesLine p (b, []) (.ok q) := by
    intro q hq hi hs
    rw [HandlesLine, if_neg (Nat.not_lt.mpr hb)]
    exact ⟨q, rfl, hq, by simp [hi], hs⟩
  unfold IncrementalSseParser.handleField SseBlock.field
  by_cases hdata : name = js "data"
  · rw [if_pos hdata, if_pos hdata, HandlesLine]
    simp only [dataBytes_append_singleton, h.eventDataBytes]
    split
    · rfl
    · obtain ⟨hline, hitems, htype, hid, hch, hbytes⟩ := IncrementalSseParser.flushEmptyData_frame
        { p with eventDataBytes := dataBytes b.data + (utf8Length value + 1) }
      by_cases hv : value = []
      · subst hv
        refine ⟨_, rfl, ⟨h.eventType, h.lastEventId, h.idChanged, ?_, by simp⟩, by simp,
          rfl, rfl, rfl, rfl⟩
        simp [List.replicate_succ', ← h.data]
      · rw [if_neg (by simpa using hv)]
        refine ⟨_, rfl, ⟨?_, ?_, ?_, ?_, ?_⟩, ?_, ?_⟩
        · exact htype.trans h.eventType
        · exact hid.trans h.lastEventId
        · exact hch.trans h.idChanged
        · simp [IncrementalSseParser.appendData, Segments.text_append, ← h.data]
        · simp [IncrementalSseParser.appendData, hbytes]
        · simp [IncrementalSseParser.appendData, hitems]
        · exact ⟨hline.line, hline.lineBytes, hline.skip, hline.atStart⟩
  rw [if_neg hdata, if_neg hdata]
  by_cases hevent : name = js "event"
  · rw [if_pos hevent, if_pos hevent, HandlesLine, if_neg (Nat.not_lt.mpr hb)]
    exact ⟨_, rfl, ⟨rfl, h.lastEventId, h.idChanged, h.data, h.eventDataBytes⟩, by simp,
      rfl, rfl, rfl, rfl⟩
  rw [if_neg hevent, if_neg hevent]
  by_cases hid : name = js "id"
  · rw [if_pos hid, if_pos hid]
    by_cases hnul : 0 ∈ value
    · rw [if_pos hnul, if_pos (by simpa using hnul)]
      exact hsame p h rfl (.refl p)
    · rw [if_neg hnul, if_neg (by simpa using hnul), HandlesLine, if_neg (Nat.not_lt.mpr hb)]
      exact ⟨_, rfl, ⟨h.eventType, rfl, rfl, h.data, h.eventDataBytes⟩, by simp,
        rfl, rfl, rfl, rfl⟩
  rw [if_neg hid, if_neg hid]
  by_cases hretry : name = js "retry"
  · rw [if_pos hretry, if_pos hretry, HandlesLine, if_neg (Nat.not_lt.mpr hb)]
    by_cases hdigits : isDigits value ∧ digitsValue value ≤ maximumSafeInteger
    · rw [if_pos hdigits, if_pos (by simpa using hdigits)]
      exact ⟨_, rfl, ⟨h.eventType, h.lastEventId, h.idChanged, h.data, h.eventDataBytes⟩, rfl,
        rfl, rfl, rfl, rfl⟩
    · rw [if_neg hdigits, if_neg (by simpa using hdigits)]
      exact ⟨p, rfl, h, by simp, .refl p⟩
  · rw [if_neg hretry, if_neg hretry]
    exact hsame p h rfl (.refl p)

theorem lineField_eq (line : JsString) :
    lineField line = (line.takeWhile (· != colon), fieldValue line) := by
  unfold lineField fieldValue
  rcases line.dropWhile (· != colon) with _ | ⟨u, _ | ⟨v, value⟩⟩
  · simp
  · simp
  · simp

theorem handleLine_represents {p : IncrementalSseParser} {b : SseBlock}
    (h : RepresentsBlock p b) (hb : dataBytes b.data ≤ maximumEventDataBytes) (line : JsString) :
    HandlesLine p (b.line line) (p.handleLine line) := by
  unfold IncrementalSseParser.handleLine SseBlock.line
  by_cases hempty : line = []
  · rw [if_pos hempty, if_pos (by simpa using hempty), HandlesLine, if_neg (by simp [SseBlock.dispatch])]
    obtain ⟨hblock, hitems, hline⟩ := dispatchBlock_represents h
    exact ⟨_, rfl, hblock, hitems, hline⟩
  have hne : ¬ line.isEmpty = true := by simpa using hempty
  rw [if_neg hempty, if_neg hne]
  by_cases hcomment : line.head? = some colon
  · rw [if_pos hcomment, if_pos hcomment, HandlesLine, if_neg (Nat.not_lt.mpr hb)]
    exact ⟨p, rfl, h, by simp, .refl p⟩
  · rw [if_neg hcomment, if_neg hcomment, lineField_eq]
    exact handleField_represents h hb _ _

/-! ## Feeding a decoded window -/

/-- A line end as a scalar value. -/
def isLineEnd (c : Char) : Bool := c = '\n' || c = '\r'

theorem eq_of_toNat {c d : Char} (h : c.toNat = d.toNat) : c = d := Char.toNat_inj.mp h

theorem encodeScalar_lineFeed : encodeScalar '\n' = [lineFeed] := by decide

theorem encodeScalar_carriageReturn : encodeScalar '\r' = [carriageReturn] := by decide

theorem not_isDelimiter_of_mem {c : Char} (hc : isLineEnd c = false) {u : CodeUnit}
    (hu : u ∈ encodeScalar c) : isDelimiter u = false := by
  simp only [isLineEnd, Bool.or_eq_false_iff, decide_eq_false_iff_not] at hc
  simp only [isDelimiter, Bool.or_eq_false_iff, decide_eq_false_iff_not]
  refine ⟨?_, ?_⟩
  · rintro rfl
    exact hc.2 (eq_of_toNat ((mem_encodeScalar_iff (by decide) c).mp hu))
  · rintro rfl
    exact hc.1 (eq_of_toNat ((mem_encodeScalar_iff (by decide) c).mp hu))

theorem takeWhile_ofScalars (cs : List Char) :
    (ofScalars cs).takeWhile (!isDelimiter ·) = ofScalars (cs.takeWhile (!isLineEnd ·)) := by
  induction cs with
  | nil => rfl
  | cons c cs ih =>
    by_cases hc : isLineEnd c = true
    · have hd : c = '\n' ∨ c = '\r' := by simpa [isLineEnd] using hc
      rcases hd with rfl | rfl
      · rw [ofScalars_cons, encodeScalar_lineFeed]; rfl
      · rw [ofScalars_cons, encodeScalar_carriageReturn]; rfl
    · rw [Bool.not_eq_true] at hc
      rw [ofScalars_cons, List.takeWhile_append_of_pos, ih, List.takeWhile_cons_of_pos (by simp [hc]),
        ofScalars_cons]
      intro u hu
      simp [not_isDelimiter_of_mem hc hu]

theorem dropWhile_ofScalars (cs : List Char) :
    (ofScalars cs).dropWhile (!isDelimiter ·) = ofScalars (cs.dropWhile (!isLineEnd ·)) := by
  have h := List.takeWhile_append_dropWhile (p := (!isDelimiter ·)) (l := ofScalars cs)
  have h' := congrArg ofScalars (List.takeWhile_append_dropWhile (p := (!isLineEnd ·)) (l := cs))
  rw [ofScalars_append, ← takeWhile_ofScalars] at h'
  exact List.append_cancel_left (h.trans h'.symm)

-- Reading text without a line end extends the open line or breaks the line limit.
theorem Scan.run_fragment (s : Scan) (cs : List Char) (hcs : ∀ c ∈ cs, isLineEnd c = false)
    (hskip : s.skip = false) (hstart : s.atStart = false)
    (hline : scalarBytes s.line ≤ maximumLineBytes) :
    s.run cs =
      if scalarBytes (s.line ++ cs) > maximumLineBytes then
        ([], .error (.sseLimit "Sse.lineSize"))
      else ([], .ok { s with line := s.line ++ cs }) := by
  induction cs generalizing s with
  | nil =>
    rw [List.append_nil, if_neg (Nat.not_lt.mpr hline)]
    rfl
  | cons c cs ih =>
    have hc : ¬ (c = '\n' ∨ c = '\r') := by simpa [isLineEnd] using hcs c List.mem_cons_self
    rw [Scan.run, Scan.step_of_not_atStart hstart, Scan.read, if_neg (by simp [hskip]), if_neg hc]
    by_cases hlong : scalarBytes (s.line ++ [c]) > maximumLineBytes
    · rw [if_pos hlong, if_pos (by simp at hlong ⊢; omega)]
    · rw [if_neg hlong]
      simp only
      rw [ih { s with line := s.line ++ [c], skip := false }
        (fun d hd => hcs d (List.mem_cons_of_mem c hd)) rfl hstart (Nat.not_lt.mp hlong)]
      simp only [List.append_assoc, List.singleton_append, hskip]
      split <;> rfl

/-- What feeding text must do to the parser: the scan's run, or its error. -/
def FeedsLike (p : IncrementalSseParser) (r : ScanResult)
    (result : Except TeslatlasError IncrementalSseParser) : Prop :=
  match r with
  | (_, .error e) => result = .error e
  | (items, .ok s) => ∃ q, result = .ok q ∧ Represents q s ∧ q.items = p.items ++ items ∧
      dataBytes s.block.data ≤ maximumEventDataBytes ∧ scalarBytes s.line ≤ maximumLineBytes

theorem ofScalars_cons_eq (c : Char) (cs : List Char) :
    ∃ u us, ofScalars (c :: cs) = u :: us ∧ (u = lineFeed ↔ c = '\n') ∧
      (c = '\n' → us = ofScalars cs) := by
  rw [ofScalars_cons]
  by_cases hc : c = '\n'
  · subst hc
    exact ⟨lineFeed, ofScalars cs, by rw [encodeScalar_lineFeed]; rfl, by simp, fun _ => rfl⟩
  · cases he : encodeScalar c with
    | nil => exact absurd he (encodeScalar_ne_nil c)
    | cons u us =>
      refine ⟨u, us ++ ofScalars cs, rfl, ⟨fun hu => ?_, fun h => absurd h hc⟩, fun h => absurd h hc⟩
      have hmem : lineFeed ∈ encodeScalar c := by simp [he, hu]
      exact absurd (eq_of_toNat ((mem_encodeScalar_iff (by decide) c).mp hmem)) hc

-- A pending CR only matters to an LF that comes next.
theorem Scan.run_skip {s : Scan} {c : Char} (hstart : s.atStart = false)
    (h : ¬ (s.skip = true ∧ c = '\n')) (cs : List Char) :
    s.run (c :: cs) = { s with skip := false }.run (c :: cs) := by
  rw [Scan.run, Scan.run, Scan.step_of_not_atStart hstart, Scan.step_of_not_atStart (by exact hstart),
    Scan.read, Scan.read, if_neg h]
  simp

theorem ofScalars_lineEnd {d : Char} (hd : isLineEnd d = true) (tail : List Char) :
    ∃ u, ofScalars (d :: tail) = u :: ofScalars tail ∧ decide (u = carriageReturn) = decide (d = '\r') := by
  have h : d = '\n' ∨ d = '\r' := by simpa [isLineEnd] using hd
  rcases h with rfl | rfl
  · exact ⟨lineFeed, by rw [ofScalars_cons, encodeScalar_lineFeed]; rfl, by decide⟩
  · exact ⟨carriageReturn, by rw [ofScalars_cons, encodeScalar_carriageReturn]; rfl, by decide⟩

theorem FeedsLike.of_items {p q : IncrementalSseParser} {r : ScanResult} {items : List SseStreamItem}
    {result : Except TeslatlasError IncrementalSseParser} (hq : q.items = p.items ++ items)
    (h : FeedsLike q r result) : FeedsLike p (items ++ r.1, r.2) result := by
  rcases r with ⟨items', e | s⟩
  · exact h
  · obtain ⟨q', hr, hrep, hi, hd, hl⟩ := h
    exact ⟨q', hr, hrep, by rw [hi, hq, List.append_assoc], hd, hl⟩

/-- Any parser that represents a scan within its limits feeds `cs` as the scan runs it. -/
def FeedsAll (cs : List Char) : Prop :=
  ∀ (p : IncrementalSseParser) (s : Scan), Represents p s → s.atStart = false →
    dataBytes s.block.data ≤ maximumEventDataBytes → scalarBytes s.line ≤ maximumLineBytes →
      FeedsLike p (s.run cs) (p.feedLoop (ofScalars cs))

-- Reading a line end: the open line is handled and a fresh one begins.
theorem feedLineEnd {p : IncrementalSseParser} {s : Scan} (h : Represents p s)
    (hstart : s.atStart = false) (hskip : s.skip = false)
    (hdata : dataBytes s.block.data ≤ maximumEventDataBytes) {d : Char}
    (hd : isLineEnd d = true) {tail : List Char} (htail : FeedsAll tail) {delimiter : CodeUnit}
    (hcr : decide (delimiter = carriageReturn) = decide (d = '\r')) :
    FeedsLike p (s.run (d :: tail))
      (match p.handleLine p.line.text with
      | .error e => .error e
      | .ok p => ({ p with line := {}, lineBytes := 0, skipLineFeed := delimiter = carriageReturn } :
          IncrementalSseParser).feedLoop (ofScalars tail)) := by
  have hend : d = '\n' ∨ d = '\r' := by simpa [isLineEnd] using hd
  have hhandled := handleLine_represents h.block hdata (ofScalars s.line)
  rw [HandlesLine] at hhandled
  rw [h.line, Scan.run, Scan.step_of_not_atStart hstart, Scan.read, if_neg (by simp [hskip]),
    if_pos hend]
  by_cases hbig :
      dataBytes (s.block.line (ofScalars s.line)).1.data > maximumEventDataBytes
  · rw [if_pos hbig] at hhandled ⊢
    rw [hhandled]
    rfl
  · rw [if_neg hbig] at hhandled ⊢
    obtain ⟨q, hq, hblock, hitems, hframe⟩ := hhandled
    rw [hq]
    refine FeedsLike.of_items
      (q := { q with line := {}, lineBytes := 0, skipLineFeed := delimiter = carriageReturn })
      hitems (htail _ _ ?_ hstart (Nat.not_lt.mp hbig) (Nat.zero_le _))
    exact ⟨⟨hblock.1, hblock.2, hblock.3, hblock.4, hblock.5⟩, rfl, rfl, hcr,
      hframe.atStart.trans h.atStart⟩

theorem appendLine_represents {p : IncrementalSseParser} {s : Scan} (h : Represents p s)
    (fragment : List Char) :
    Represents
      (({ p with skipLineFeed := false,
                 lineBytes := scalarBytes s.line + scalarBytes fragment } :
        IncrementalSseParser).appendLine (ofScalars fragment))
      { s with line := s.line ++ fragment, skip := false } :=
  ⟨⟨h.block.1, h.block.2, h.block.3, h.block.4, h.block.5⟩,
    by simp [IncrementalSseParser.appendLine, Segments.text_append, h.line],
    by simp [IncrementalSseParser.appendLine], rfl, h.atStart⟩

theorem feedsAll (cs : List Char) : FeedsAll cs := by
  induction hn : cs.length using Nat.strongRecOn generalizing cs with
  | ind n ih =>
    intro p s h hstart hdata hline
    cases cs with
    | nil => exact ⟨p, by simp [IncrementalSseParser.feedLoop], h, by simp, hdata, hline⟩
    | cons c cs =>
      obtain ⟨u, us, hform, hlf, hus⟩ := ofScalars_cons_eq c cs
      by_cases hskip : s.skip = true ∧ c = '\n'
      · -- the LF of a CRLF whose CR has already ended its line
        rw [hform, IncrementalSseParser.feedLoop, if_pos ⟨h.skip.trans hskip.1, hlf.mpr hskip.2⟩,
          hus hskip.2, Scan.run, Scan.step_of_not_atStart hstart, Scan.read, if_pos hskip]
        refine ih cs.length (by simp [← hn]) cs rfl { p with skipLineFeed := false }
          { s with skip := false } ?_ hstart hdata hline
        exact ⟨⟨h.block.1, h.block.2, h.block.3, h.block.4, h.block.5⟩, h.line, h.lineBytes, rfl,
          h.atStart⟩
      -- both sides split at the first line end: a fragment without one, and the rest
      have hfragment : (u :: us).takeWhile (!isDelimiter ·) =
          ofScalars ((c :: cs).takeWhile (!isLineEnd ·)) := by
        rw [← hform, takeWhile_ofScalars]
      have hrest : (u :: us).dropWhile (!isDelimiter ·) =
          ofScalars ((c :: cs).dropWhile (!isLineEnd ·)) := by
        rw [← hform, dropWhile_ofScalars]
      have hsplit := List.takeWhile_append_dropWhile (p := (!isLineEnd ·)) (l := c :: cs)
      have hfree : ∀ d ∈ (c :: cs).takeWhile (!isLineEnd ·), isLineEnd d = false := by
        intro d hd
        simpa using List.all_eq_true.mp List.all_takeWhile d hd
      have hrun : s.run (c :: cs) = Scan.resume
          ({ s with skip := false }.run ((c :: cs).takeWhile (!isLineEnd ·)))
          ((c :: cs).dropWhile (!isLineEnd ·)) := by
        rw [Scan.run_skip hstart hskip, ← Scan.run_append, hsplit]
      have hskip' : ¬ (p.skipLineFeed = true ∧ u = lineFeed) := by rwa [h.skip, hlf]
      have hhead := List.head?_dropWhile_not (!isLineEnd ·) (c :: cs)
      have hle : ((c :: cs).dropWhile (!isLineEnd ·)).length ≤ n := by
        rw [← hn]
        exact (List.dropWhile_sublist _).length_le
      rw [hrun, Scan.run_fragment { s with skip := false } _ hfree rfl hstart hline, hform,
        IncrementalSseParser.feedLoop, if_neg hskip', hfragment]
      simp only [utf8Length_ofScalars, h.lineBytes]
      generalize (c :: cs).takeWhile (!isLineEnd ·) = fragment at *
      generalize (c :: cs).dropWhile (!isLineEnd ·) = rest at *
      by_cases hlong : scalarBytes (s.line ++ fragment) > maximumLineBytes
      · rw [if_pos hlong, if_pos (by simpa using hlong)]
        rfl
      rw [if_neg hlong, if_neg (by simpa using hlong)]
      have hp := appendLine_represents h fragment
      generalize hq : IncrementalSseParser.appendLine _ (ofScalars fragment) = q at *
      have hitems : q.items = p.items ++ [] := by rw [← hq, List.append_nil]; rfl
      refine FeedsLike.of_items hitems ?_
      cases rest with
      | nil =>
        split
        · exact ⟨q, rfl, hp, by simp, hdata, Nat.not_lt.mp hlong⟩
        · next hd => rw [hrest] at hd; simp at hd
      | cons d tail =>
        have hd : isLineEnd d = true := by simpa using hhead
        obtain ⟨v, hv, hcr⟩ := ofScalars_lineEnd hd tail
        rw [hv] at hrest
        split
        · next hnil => rw [hrest] at hnil; simp at hnil
        · next delimiter tail' hcons =>
          rw [hrest] at hcons
          cases hcons
          simp only [List.length_cons] at hle
          exact feedLineEnd hp hstart rfl hdata hd (ih tail.length (by omega) tail rfl) hcr

theorem head?_ofScalars_cons (c : Char) (cs : List Char) :
    (ofScalars (c :: cs)).head? = some byteOrderMark ↔ c.toNat = 0xFEFF := by
  have hr := scalar_ranges c
  rw [ofScalars_cons]
  unfold encodeScalar
  split
  · simp only [List.cons_append, List.head?_cons, Option.some.injEq, byteOrderMark,
      ← UInt16.toNat_inj, UInt16.toNat_ofNat']
    simp
    omega
  · simp only [List.cons_append, List.head?_cons, Option.some.injEq, byteOrderMark,
      ← UInt16.toNat_inj, UInt16.toNat_ofNat']
    simp
    omega

theorem encodeScalar_byteOrderMark {c : Char} (hc : c.toNat = 0xFEFF) :
    encodeScalar c = [byteOrderMark] := by
  rw [encodeScalar_of_lt (by omega), hc]
  rfl

-- Feeding one decoded window is running the scan over it.
theorem feed_represents {p : IncrementalSseParser} {s : Scan} (h : Represents p s)
    (hdata : dataBytes s.block.data ≤ maximumEventDataBytes)
    (hline : scalarBytes s.line ≤ maximumLineBytes) (cs : List Char) :
    FeedsLike p (s.run cs) (p.feed (ofScalars cs)) := by
  unfold IncrementalSseParser.feed
  cases cs with
  | nil => exact ⟨p, by simp [IncrementalSseParser.feedLoop], h, by simp, hdata, hline⟩
  | cons c cs =>
    by_cases hstart : s.atStart = true
    · have h' : Represents { p with atStart := false } { s with atStart := false } :=
        ⟨⟨h.block.1, h.block.2, h.block.3, h.block.4, h.block.5⟩, h.line, h.lineBytes, h.skip, rfl⟩
      rw [if_pos ⟨h.atStart.trans hstart, by simp [encodeScalar_ne_nil]⟩]
      by_cases hc : c.toNat = 0xFEFF
      · rw [if_pos ((head?_ofScalars_cons c cs).mpr hc), ofScalars_cons,
          encodeScalar_byteOrderMark hc, List.singleton_append, List.tail_cons, Scan.run, Scan.step,
          if_pos hstart, if_pos hc]
        exact feedsAll cs _ _ h' rfl hdata hline
      · have hrun : s.run (c :: cs) = { s with atStart := false }.run (c :: cs) := by
          rw [Scan.run, Scan.run, Scan.step, if_pos hstart, if_neg hc, Scan.step_of_not_atStart rfl]
        rw [if_neg (mt (head?_ofScalars_cons c cs).mp hc), hrun]
        exact feedsAll (c :: cs) _ _ h' rfl hdata hline
    · rw [Bool.not_eq_true] at hstart
      rw [if_neg (by simp [h.atStart, hstart])]
      exact feedsAll (c :: cs) p s h hstart hdata hline

/-! ## The windows of a stream -/

theorem windows_flatten (bytes : List UInt8) : (windows bytes).flatten = bytes := by
  induction bytes using windows.induct with
  | case1 => simp [windows]
  | case2 bytes h ih =>
    rw [windows, if_neg h, List.flatten_cons, ih, List.take_append_drop]

theorem windows_length_le (bytes : List UInt8) : ∀ w ∈ windows bytes, w.length ≤ 4096 := by
  induction bytes using windows.induct with
  | case1 => simp [windows]
  | case2 bytes h ih =>
    rw [windows, if_neg h]
    simp only [List.mem_cons, forall_eq_or_imp]
    exact ⟨by simp only [List.length_take]; omega, ih⟩

theorem chunks_windows_flatten (chunks : List (List UInt8)) :
    (chunks.flatMap windows).flatten = chunks.flatten := by
  induction chunks with
  | nil => rfl
  | cons chunk chunks ih => rw [List.flatMap_cons, List.flatten_append, windows_flatten, ih,
      List.flatten_cons]

/-- What a run over windows must give: the scan's items and state, or its error after the scan's
events and checkpoints. -/
def RunsLike {σ : Type} (R : σ → Scan → Prop) (r : ScanResult)
    (run : List SseStreamItem × Except TeslatlasError σ) : Prop :=
  match r with
  | (items, .error e) =>
      run.2 = .error e ∧ run.1 <+: items ∧ items.filter isDelivery = run.1.filter isDelivery
  | (items, .ok s) => ∃ q, run = (items, .ok q) ∧ R q s

theorem RunsLike.prepend {σ : Type} {R : σ → Scan → Prop} {r : ScanResult}
    {run : List SseStreamItem × Except TeslatlasError σ} (h : RunsLike R r run)
    (items : List SseStreamItem) : RunsLike R (items ++ r.1, r.2) (items ++ run.1, run.2) := by
  rcases r with ⟨later, e | s⟩
  · obtain ⟨he, hpre, hdel⟩ := h
    exact ⟨he, (List.prefix_append_right_inj items).mpr hpre, by simp [hdel]⟩
  · obtain ⟨q, rfl, hq⟩ := h
    exact ⟨q, rfl, hq⟩

/-- The state kept between two windows. -/
structure BetweenWindows (q : IncrementalSseParser × Utf8Decoder) (d : Utf8Decoder) (s : Scan) :
    Prop where
  parser : Represents q.1 s
  decoder : q.2 = d
  taken : q.1.items = []
  data : dataBytes s.block.data ≤ maximumEventDataBytes
  line : scalarBytes s.line ≤ maximumLineBytes

-- A window that fails loses at most retry hints, for its text is far shorter than the budget.
theorem scan_error_loses_nothing {s : Scan} {cs : List Char} {items : List SseStreamItem}
    {e : TeslatlasError} (hcs : scalarBytes cs ≤ maximumEventDataBytes)
    (h : s.run cs = (items, .error e)) : items.filter isDelivery = [] := by
  have := Scan.run_error_delivers_nothing s cs (e := e) hcs (by rw [h])
  rwa [h] at this

theorem feedWindows_runsLike {p : IncrementalSseParser} {d : Utf8Decoder} {s : Scan}
    (h : BetweenWindows (p, d) d s) (ws : List (List UInt8)) (hws : ∀ w ∈ ws, w.length ≤ 4096) :
    RunsLike (BetweenWindows · (d.decode ws.flatten).2) (s.run (d.decode ws.flatten).1)
      (feedWindows p d ws) := by
  induction ws generalizing p d s with
  | nil => exact ⟨(p, d), rfl, h⟩
  | cons w ws ih =>
    have hfed := feed_represents h.parser h.data h.line (d.decode w).1
    rw [List.flatten_cons, Utf8Decoder.decode_append, Scan.run_append, feedWindows]
    rcases hr : s.run (d.decode w).1 with ⟨items, e | s'⟩
    · rw [hr] at hfed
      have hsmall : scalarBytes (d.decode w).1 ≤ maximumEventDataBytes := by
        have hle := d.scalarBytes_decode_le w
        have hlen := hws w List.mem_cons_self
        have hmax : 7 * 4096 ≤ maximumEventDataBytes := by decide
        omega
      rw [hfed]
      exact ⟨rfl, List.nil_prefix, scan_error_loses_nothing hsmall hr⟩
    · rw [hr] at hfed
      obtain ⟨q, hq, hrep, hitems, hdata, hline⟩ := hfed
      have htaken := h.taken
      simp only at htaken
      rw [hq]
      simp only [hitems, htaken, List.nil_append, Scan.resume]
      refine (ih (p := { q with items := [] }) (s := s') ⟨?_, rfl, rfl, hdata, hline⟩
        fun w hw => hws w (List.mem_cons_of_mem _ hw)).prepend items
      exact ⟨⟨hrep.block.1, hrep.block.2, hrep.block.3, hrep.block.4, hrep.block.5⟩, hrep.line,
        hrep.lineBytes, hrep.skip, hrep.atStart⟩

/-! ## Whole streams -/

/-- A run that ends like the reference: the same items, or the same error after the same events and
checkpoints. -/
def EndsLike (reference run : SseRun) : Prop :=
  (reference.error = none → run = reference) ∧
  (∀ e, reference.error = some e → run.error = some e ∧ run.items <+: reference.items ∧
    reference.items.filter isDelivery = run.items.filter isDelivery)

theorem parseSseStream_endsLike (chunks : List (List UInt8)) (initialLastEventId : JsString) :
    EndsLike (referenceRun chunks.flatten initialLastEventId)
      (parseSseStream chunks initialLastEventId) := by
  have hrep : BetweenWindows ({ lastEventId := initialLastEventId }, ({} : Utf8Decoder)) {}
      { block := { lastEventId := initialLastEventId } } :=
    ⟨⟨⟨rfl, rfl, rfl, rfl, rfl⟩, rfl, rfl, rfl, rfl⟩, rfl, rfl, Nat.zero_le _, Nat.zero_le _⟩
  have hruns := feedWindows_runsLike hrep (chunks.flatMap windows) (by
    intro w hw
    obtain ⟨chunk, -, hw⟩ := List.mem_flatMap.mp hw
    exact windows_length_le chunk w hw)
  rw [chunks_windows_flatten] at hruns
  rw [referenceRun, streamText, ← Scan.toRun_run_eq_reference, decodeUtf8, Scan.run_append,
    parseSseStream]
  generalize Utf8Decoder.decode {} chunks.flatten = decoded at hruns ⊢
  rcases hr : Scan.run { block := { lastEventId := initialLastEventId } } decoded.1
    with ⟨items, e | s⟩
  · rw [hr] at hruns
    obtain ⟨he, hpre, hdel⟩ := hruns
    generalize feedWindows _ _ _ = fed at he hpre hdel ⊢
    obtain ⟨given, result⟩ := fed
    simp only at he
    subst he
    refine ⟨by simp [Scan.resume, Scan.toRun], fun e' he' => ?_⟩
    simp only [Scan.resume, Scan.toRun, Option.some.injEq] at he' ⊢
    exact ⟨he', hpre, hdel⟩
  · rw [hr] at hruns
    obtain ⟨⟨p, d⟩, hq, hbetween⟩ := hruns
    have hd : d = decoded.2 := hbetween.decoder
    have htaken : p.items = [] := hbetween.taken
    have hfed := feed_represents hbetween.parser hbetween.data hbetween.line d.flush
    rw [hq, ← hd]
    simp only [Scan.resume]
    rcases hlast : s.run d.flush with ⟨more, e | s'⟩
    · rw [hlast] at hfed
      have hnone := scan_error_loses_nothing (by
        have hmax : 3 ≤ maximumEventDataBytes := by decide
        have hle := d.scalarBytes_flush_le
        omega) hlast
      rw [hfed]
      refine ⟨by simp [Scan.toRun], fun e' he' => ?_⟩
      simp only [Scan.toRun, Option.some.injEq] at he' ⊢
      exact ⟨he', List.prefix_append _ _, by simp [hnone]⟩
    · rw [hlast] at hfed
      obtain ⟨q, hq', -, hitems, -, -⟩ := hfed
      rw [hq']
      simp [EndsLike, Scan.toRun, hitems, htaken]

theorem SseBlock.limited_error (b : SseBlock) (remainder : JsString) (lines : List JsString) :
    (b.limited remainder lines).error = none ∨
      ∃ validator, (b.limited remainder lines).error = some (.sseLimit validator) := by
  induction lines generalizing b with
  | nil =>
    unfold SseBlock.limited
    split
    · exact .inr ⟨_, rfl⟩
    · exact .inl rfl
  | cons line lines ih =>
    unfold SseBlock.limited
    split
    · exact .inr ⟨_, rfl⟩
    split
    · exact .inr ⟨_, rfl⟩
    · exact ih (b.line line).1

-- Parsing a stream gives the reference's items, however the stream is cut into chunks.  Over a
-- limit it ends in the reference's size error, with the reference's events and checkpoints.
theorem parseSseStream_eq_reference (chunks : List (List UInt8)) (initialLastEventId : JsString) :
    (WithinLimits chunks.flatten →
      parseSseStream chunks initialLastEventId =
        { items := referenceItems chunks.flatten initialLastEventId, error := none }) ∧
    (¬ WithinLimits chunks.flatten →
      ∃ validator,
        (parseSseStream chunks initialLastEventId).error = some (.sseLimit validator) ∧
        (referenceRun chunks.flatten initialLastEventId).error = some (.sseLimit validator) ∧
        (parseSseStream chunks initialLastEventId).items.filter isDelivery =
          (referenceRun chunks.flatten initialLastEventId).items.filter isDelivery ∧
        (parseSseStream chunks initialLastEventId).items <+:
          (referenceRun chunks.flatten initialLastEventId).items) := by
  obtain ⟨hnone, hsome⟩ := parseSseStream_endsLike chunks initialLastEventId
  refine ⟨fun h => ?_, fun h => ?_⟩
  · have href := referenceRun_of_withinLimits h initialLastEventId
    rw [hnone (by rw [href]), href]
  · rcases SseBlock.limited_error _ _ _ with hl | ⟨validator, hl⟩
    · exact absurd ((referenceRun_error_eq_none_iff _ initialLastEventId).mp hl) h
    · obtain ⟨herr, hpre, hdel⟩ := hsome _ hl
      exact ⟨validator, herr, hl, hdel.symm, hpre⟩

end Events
