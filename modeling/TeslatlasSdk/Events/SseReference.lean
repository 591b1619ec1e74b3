import TeslatlasSdk.Text.Lines
import TeslatlasSdk.Events.SseParser

/-!
# The event-stream algorithm, line by line

The plain algorithm on a whole decoded text: cut it into lines, keep the data lines of the open
block as a list, and interpret an empty line as the end of the block.  It knows nothing of chunks,
windows, segments or counters.  Size limits are stated beside it, as properties of the lines.
-/

open Text Core

namespace Events

/-- The block that the lines read so far have opened. -/
structure SseBlock where
  data : List JsString := []
  eventType : JsString := []
  lastEventId : JsString
  idChanged : Bool := false
  deriving DecidableEq, Repr

/-- The end of a block: an event if it has data, else a checkpoint if it has an id. -/
def SseBlock.dispatch (b : SseBlock) : SseBlock × List SseStreamItem :=
  ({ lastEventId := b.lastEventId },
    if b.data ≠ [] then
      [.event { event := if b.eventType = [] then js "message" else b.eventType
                data := [lineFeed].intercalate b.data
                lastEventId := b.lastEventId }]
    else if b.idChanged then [.checkpoint b.lastEventId]
    else [])

def SseBlock.field (b : SseBlock) (name value : JsString) : SseBlock × List SseStreamItem :=
  if name = js "data" then ({ b with data := b.data ++ [value] }, [])
  else if name = js "event" then ({ b with eventType := value }, [])
  else if name = js "id" then
    (if 0 ∈ value then b else { b with lastEventId := value, idChanged := true }, [])
  else if name = js "retry" then
    (b, if isDigits value ∧ digitsValue value ≤ maximumSafeInteger then
      [.retry (digitsValue value)] else [])
  else (b, [])

/-- The value of a field line: what follows the first colon, less one optional space. -/
def fieldValue (line : JsString) : JsString :=
  match line.dropWhile (· != colon) with
  | [] => []
  | [_] => []
  | _ :: u :: value => if u = space then value else u :: value

/-- One terminated line. -/
def SseBlock.line (b : SseBlock) (line : JsString) : SseBlock × List SseStreamItem :=
  if line = [] then b.dispatch
  else if line.head? = some colon then (b, [])
  else b.field (line.takeWhile (· != colon)) (fieldValue line)

/-- The items that a list of terminated lines gives. -/
def SseBlock.items (b : SseBlock) : List JsString → List SseStreamItem
  | [] => []
  | line :: lines => (b.line line).2 ++ (b.line line).1.items lines

/-- The open block after a list of terminated lines. -/
def SseBlock.after (b : SseBlock) (lines : List JsString) : SseBlock :=
  lines.foldl (fun b line => (b.line line).1) b

/-- One leading U+FEFF is not part of the text. -/
def stripByteOrderMark : List Char → List Char
  | [] => []
  | c :: cs => if c.toNat = 0xFEFF then cs else c :: cs

/-- The text of a byte stream. -/
def streamText (bytes : List UInt8) : List Char := stripByteOrderMark (decodeUtf8 bytes)

/-- The terminated lines of a text. -/
def streamLines (text : List Char) : List JsString :=
  (splitLines '\r' '\n' text).1.map ofScalars

/-- The unterminated last line of a text. -/
def streamRemainder (text : List Char) : JsString := ofScalars (splitLines '\r' '\n' text).2

/-- The reference: an unterminated last block is dropped with the remainder. -/
def referenceItems (bytes : List UInt8) (initialLastEventId : JsString) : List SseStreamItem :=
  SseBlock.items { lastEventId := initialLastEventId } (streamLines (streamText bytes))

/-! ## Size limits -/

/-- Bytes of a block's data, every line counted with one line break. -/
def dataBytes (data : List JsString) : Nat := (data.map fun value => utf8Length value + 1).sum

/-- No line and no block of the stream is over its limit. -/
structure WithinLimits (bytes : List UInt8) : Prop where
  lines : ∀ line ∈ streamLines (streamText bytes), utf8Length line ≤ maximumLineBytes
  remainder : utf8Length (streamRemainder (streamText bytes)) ≤ maximumLineBytes
  blocks : ∀ lines, lines <+: streamLines (streamText bytes) →
    dataBytes (SseBlock.after { lastEventId := [] } lines).data ≤ maximumEventDataBytes

/-- The reference stopped at the first line that breaks a limit. -/
def SseBlock.limited (b : SseBlock) (remainder : JsString) : List JsString → SseRun
  | [] =>
      if utf8Length remainder > maximumLineBytes then
        { items := [], error := some (.sseLimit "Sse.lineSize") }
      else { items := [], error := none }
  | line :: lines =>
      if utf8Length line > maximumLineBytes then
        { items := [], error := some (.sseLimit "Sse.lineSize") }
      else if dataBytes (b.line line).1.data > maximumEventDataBytes then
        { items := [], error := some (.sseLimit "Sse.eventSize") }
      else
        let rest := (b.line line).1.limited remainder lines
        { rest with items := (b.line line).2 ++ rest.items }

/-- The reference with limits, over a whole stream. -/
def referenceRun (bytes : List UInt8) (initialLastEventId : JsString) : SseRun :=
  SseBlock.limited { lastEventId := initialLastEventId } (streamRemainder (streamText bytes))
    (streamLines (streamText bytes))

/-- Items that report progress of the stream: all but retry hints. -/
def isDelivery : SseStreamItem → Bool
  | .event _ => true
  | .checkpoint _ => true
  | .retry _ => false

@[simp] theorem dataBytes_nil : dataBytes [] = 0 := rfl

@[simp] theorem dataBytes_append_singleton (data : List JsString) (value : JsString) :
    dataBytes (data ++ [value]) = dataBytes data + (utf8Length value + 1) := by
  simp [dataBytes]

theorem dataBytes_pos_iff (data : List JsString) : 0 < dataBytes data ↔ data ≠ [] := by
  cases data with
  | nil => simp
  | cons value data =>
    have h : 0 < dataBytes (value :: data) := by
      rw [dataBytes, List.map_cons, List.sum_cons]
      omega
    simp [h]

-- What a line does to the open block's data does not depend on the ids seen before.
theorem SseBlock.line_data (b c : SseBlock) (h : b.data = c.data) (line : JsString) :
    (b.line line).1.data = (c.line line).1.data := by
  unfold SseBlock.line SseBlock.dispatch SseBlock.field
  repeat' split
  all_goals first | rfl | exact h | simp [h]

theorem SseBlock.after_data (b c : SseBlock) (h : b.data = c.data) (lines : List JsString) :
    (b.after lines).data = (c.after lines).data := by
  induction lines generalizing b c with
  | nil => exact h
  | cons line lines ih => exact ih _ _ (b.line_data c h line)

theorem SseBlock.limited_eq_none_iff (b : SseBlock) (remainder : JsString)
    (lines : List JsString) (hb : dataBytes b.data ≤ maximumEventDataBytes) :
    (b.limited remainder lines).error = none ↔
      (∀ line ∈ lines, utf8Length line ≤ maximumLineBytes) ∧
      utf8Length remainder ≤ maximumLineBytes ∧
      ∀ ls, ls <+: lines → dataBytes (b.after ls).data ≤ maximumEventDataBytes := by
  induction lines generalizing b with
  | nil =>
    unfold SseBlock.limited
    split
    · simp; omega
    · simp [SseBlock.after, hb]; omega
  | cons line lines ih =>
    rw [SseBlock.limited]
    by_cases hl : utf8Length line > maximumLineBytes
    · rw [if_pos hl]
      simp
      omega
    by_cases hd : dataBytes (b.line line).1.data > maximumEventDataBytes
    · rw [if_neg hl, if_pos hd]
      simp only [reduceCtorEq, false_iff, not_and]
      intro _ _ hblocks
      have := hblocks [line] (by simp)
      simp [SseBlock.after] at this
      omega
    · rw [if_neg hl, if_neg hd]
      simp only [ih (b.line line).1 (by omega), List.mem_cons, forall_eq_or_imp,
        Nat.not_lt.mp hl, true_and]
      refine and_congr_right fun _ => and_congr_right fun _ => ⟨fun h ls hls => ?_, fun h ls hls => ?_⟩
      · cases ls with
        | nil => exact hb
        | cons l ls =>
          obtain ⟨rfl, hls'⟩ := List.cons_prefix_cons.mp hls
          exact h ls hls'
      · simpa [SseBlock.after] using h (line :: ls) (List.cons_prefix_cons.mpr ⟨rfl, hls⟩)

theorem SseBlock.limited_items (b : SseBlock) (remainder : JsString) (lines : List JsString)
    (h : (b.limited remainder lines).error = none) :
    b.limited remainder lines = { items := b.items lines, error := none } := by
  induction lines generalizing b with
  | nil =>
    unfold SseBlock.limited at h ⊢
    split at h
    · simp at h
    · next hr => rw [if_neg hr]; rfl
  | cons line lines ih =>
    rw [SseBlock.limited] at h ⊢
    split at h
    · simp at h
    split at h
    · simp at h
    · next hl hd =>
      rw [if_neg hl, if_neg hd, ih _ h]
      rfl

-- The limited reference ends without error exactly on the streams within the limits.
theorem referenceRun_error_eq_none_iff (bytes : List UInt8) (initialLastEventId : JsString) :
    (referenceRun bytes initialLastEventId).error = none ↔ WithinLimits bytes := by
  rw [referenceRun, SseBlock.limited_eq_none_iff _ _ _ (by simp)]
  have hdata : ∀ ls, (SseBlock.after { lastEventId := initialLastEventId } ls).data =
      (SseBlock.after { lastEventId := [] } ls).data := fun ls => SseBlock.after_data
      { lastEventId := initialLastEventId } { lastEventId := [] } rfl ls
  simp only [hdata]
  exact ⟨fun h => ⟨h.1, h.2.1, h.2.2⟩, fun h => ⟨h.lines, h.remainder, h.blocks⟩⟩

-- Within the limits, the limited reference is the plain one.
theorem referenceRun_of_withinLimits {bytes : List UInt8} (h : WithinLimits bytes)
    (initialLastEventId : JsString) :
    referenceRun bytes initialLastEventId =
      { items := referenceItems bytes initialLastEventId, error := none } :=
  SseBlock.limited_items _ _ _ ((referenceRun_error_eq_none_iff bytes initialLastEventId).mpr h)

end Events
