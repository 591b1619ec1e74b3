import TeslatlasSdk.Text.Digits
import TeslatlasSdk.Text.Utf8Decoder
import TeslatlasSdk.Core.Errors
import TeslatlasSdk.Core.Numbers

/-!
# The incremental SSE parser

`parseSseStream` decodes a body in windows of 4096 bytes and feeds each decoded window to an
`IncrementalSseParser`, which keeps whatever an event needs across windows: the open line, the data
collected so far, the size counters and whether a CR is waiting for its LF.  The generator yields
the queued items after every window.
-/

open Text Core

namespace Events

def maximumEventDataBytes : Nat := 8 * 1024 * 1024

/-- A single data line can use the event budget plus its `data: ` framing. -/
def maximumLineBytes : Nat := maximumEventDataBytes + 6

structure SseEvent where
  event : JsString
  data : JsString
  lastEventId : JsString
  deriving DecidableEq, Repr

inductive SseStreamItem where
  | event (event : SseEvent)
  | retry (milliseconds : Nat)
  | checkpoint (lastEventId : JsString)
  deriving DecidableEq, Repr

/-! ## Bounded segments -/

theorem length_nil_lt : ([] : JsString).length < 4096 := by decide

/-- Text kept as full segments of 4096 units and one shorter open segment. -/
structure Segments where
  fragments : List JsString := []
  pending : JsString := []
  pendingBounded : pending.length < 4096 := by exact length_nil_lt

def Segments.text (s : Segments) : JsString := s.fragments.flatten ++ s.pending

/-- The copying loop of `#appendLine` and `#appendData`. -/
def Segments.append (s : Segments) (value : JsString) : Segments :=
  if hv : value = [] then s
  else
    let take := min (4096 - s.pending.length) value.length
    let pending := s.pending ++ value.take take
    if hp : pending.length = 4096 then
      append { fragments := s.fragments ++ [pending] } (value.drop take)
    else
      append { fragments := s.fragments, pending,
               pendingBounded := by
                 have := s.pendingBounded
                 simp only [pending, take, List.length_append, List.length_take] at hp ⊢
                 omega }
        (value.drop take)
termination_by value.length
decreasing_by
  all_goals
    have := s.pendingBounded
    have := List.length_pos_iff.mpr hv
    simp only [List.length_drop]
    omega

theorem Segments.text_append (s : Segments) (value : JsString) :
    (s.append value).text = s.text ++ value := by
  induction s, value using Segments.append.induct with
  | case1 s => simp [Segments.append]
  | case2 s value hv take pending hp ih =>
    rw [Segments.append, dif_neg hv, dif_pos hp, ih]
    simp [Segments.text, pending, List.take_append_drop]
  | case3 s value hv take pending hp ih =>
    rw [Segments.append, dif_neg hv, dif_neg hp, ih]
    simp [Segments.text, pending, List.take_append_drop]

@[simp] theorem Segments.text_empty : ({} : Segments).text = [] := rfl

/-! ## Parser state -/

structure IncrementalSseParser where
  items : List SseStreamItem := []
  data : Segments := {}
  line : Segments := {}
  emptyDataLines : Nat := 0
  lineBytes : Nat := 0
  eventDataBytes : Nat := 0
  skipLineFeed : Bool := false
  atStart : Bool := true
  eventType : JsString := []
  lastEventId : JsString
  blockIdChanged : Bool := false

def lineFeed : CodeUnit := 0x0A

def carriageReturn : CodeUnit := 0x0D

def colon : CodeUnit := 0x3A

def space : CodeUnit := 0x20

def byteOrderMark : CodeUnit := 0xFEFF

/-- `/^\d+$/u`. -/
def isDigits (value : JsString) : Bool := !value.isEmpty && value.all isDigit

/-- `/[\r\n]/gu`. -/
def isDelimiter (u : CodeUnit) : Bool := u = carriageReturn || u = lineFeed

/-- Field name and value of a line that is neither empty nor a comment. -/
def lineField (line : JsString) : JsString × JsString :=
  let value := (line.dropWhile (· != colon)).drop 1
  (line.takeWhile (· != colon), if value.head? = some space then value.drop 1 else value)

namespace IncrementalSseParser

def appendLine (p : IncrementalSseParser) (value : JsString) : IncrementalSseParser :=
  { p with line := p.line.append value }

def appendData (p : IncrementalSseParser) (value : JsString) : IncrementalSseParser :=
  { p with data := p.data.append value }

def flushEmptyData (p : IncrementalSseParser) : IncrementalSseParser :=
  if p.emptyDataLines > 0 then
    { p.appendData (List.replicate p.emptyDataLines lineFeed) with emptyDataLines := 0 }
  else p

def dispatchBlock (p : IncrementalSseParser) : IncrementalSseParser :=
  let p :=
    if p.eventDataBytes > 0 then
      let p := p.flushEmptyData
      { p with items := p.items ++
          [.event { event := if p.eventType.isEmpty then js "message" else p.eventType
                    data := p.data.text.dropLast
                    lastEventId := p.lastEventId }] }
    else if p.blockIdChanged then { p with items := p.items ++ [.checkpoint p.lastEventId] }
    else p
  { p with data := {}, emptyDataLines := 0, eventDataBytes := 0, eventType := [],
           blockIdChanged := false }

/-- The `switch` of `#handleLine` on a field name. -/
def handleField (p : IncrementalSseParser) (field value : JsString) :
    Except TeslatlasError IncrementalSseParser :=
  if field = js "data" then
    let p := { p with eventDataBytes := p.eventDataBytes + (utf8Length value + 1) }
    if p.eventDataBytes > maximumEventDataBytes then .error (.sseLimit "Sse.eventSize")
    else if value.isEmpty then .ok { p with emptyDataLines := p.emptyDataLines + 1 }
    else .ok (p.flushEmptyData.appendData (value ++ [lineFeed]))
  else if field = js "event" then .ok { p with eventType := value }
  else if field = js "id" then
    if value.contains 0 then .ok p else .ok { p with lastEventId := value, blockIdChanged := true }
  else if field = js "retry" then
    -- A digit string denotes a safe integer exactly when its value is at most the largest one.
    if isDigits value && digitsValue value ≤ maximumSafeInteger then
      .ok { p with items := p.items ++ [.retry (digitsValue value)] }
    else .ok p
  else .ok p

def handleLine (p : IncrementalSseParser) (line : JsString) :
    Except TeslatlasError IncrementalSseParser :=
  if line.isEmpty then .ok p.dispatchBlock
  else if line.head? = some colon then .ok p
  else p.handleField (lineField line).1 (lineField line).2

/-- The `while` loop of `feed`: `value` is the text from `offset` on. -/
def feedLoop (p : IncrementalSseParser) : JsString → Except TeslatlasError IncrementalSseParser
  | [] => .ok p
  | first :: rest =>
      if p.skipLineFeed ∧ first = lineFeed then feedLoop { p with skipLineFeed := false } rest
      else
        let fragment := (first :: rest).takeWhile (!isDelimiter ·)
        let p := { p with skipLineFeed := false, lineBytes := p.lineBytes + utf8Length fragment }
        if p.lineBytes > maximumLineBytes then .error (.sseLimit "Sse.lineSize")
        else
          let p := p.appendLine fragment
          match hd : (first :: rest).dropWhile (!isDelimiter ·) with
          | [] => .ok p
          | delimiter :: tail =>
              match p.handleLine p.line.text with
              | .error e => .error e
              | .ok p => feedLoop { p with line := {}, lineBytes := 0,
                                           skipLineFeed := delimiter = carriageReturn } tail
termination_by value => value.length
decreasing_by
  · simp
  · have h := (List.dropWhile_sublist (l := first :: rest) (!isDelimiter ·)).length_le
    rw [hd] at h
    simp only [List.length_cons] at h ⊢
    omega

def feed (p : IncrementalSseParser) (decoded : JsString) :
    Except TeslatlasError IncrementalSseParser :=
  if p.atStart ∧ decoded ≠ [] then
    ({ p with atStart := false } : IncrementalSseParser).feedLoop
      (if decoded.head? = some byteOrderMark then decoded.tail else decoded)
  else p.feedLoop decoded

end IncrementalSseParser

/-! ## The stream -/

/-- `subarray(offset, offset + 4096)` for every window of a chunk. -/
def windows (bytes : List UInt8) : List (List UInt8) :=
  if bytes = [] then [] else bytes.take 4096 :: windows (bytes.drop 4096)
termination_by bytes.length
decreasing_by
  have := List.length_pos_iff.mpr ‹bytes ≠ []›
  simp only [List.length_drop]
  omega

/-- What a consumer that reads a whole stream sees of it. -/
structure SseRun where
  items : List SseStreamItem
  /-- The limit error the stream ended with, if any. -/
  error : Option TeslatlasError
  deriving DecidableEq, Repr

/-- Feed windows in turn, taking the queued items after each. -/
def feedWindows (p : IncrementalSseParser) (d : Utf8Decoder) :
    List (List UInt8) →
      List SseStreamItem × Except TeslatlasError (IncrementalSseParser × Utf8Decoder)
  | [] => ([], .ok (p, d))
  | window :: rest =>
      match p.feed (ofScalars (d.decode window).1) with
      | .error e => ([], .error e)
      | .ok p' =>
          let (items, result) := feedWindows { p' with items := [] } (d.decode window).2 rest
          (p'.items ++ items, result)

/-- `parseSseStream` over a body delivered as `chunks`, with a consumer that takes every item. -/
def parseSseStream (chunks : List (List UInt8)) (initialLastEventId : JsString) : SseRun :=
  match feedWindows { lastEventId := initialLastEventId } {} (chunks.flatMap windows) with
  | (items, .error e) => { items, error := some e }
  | (items, .ok (p, d)) =>
      match p.feed (ofScalars d.flush) with
      | .error e => { items, error := some e }
      | .ok p' => { items := items ++ p'.items, error := none }

example : parseSseStream
    [[0x64, 0x61, 0x74, 0x61, 0x3A, 0x20, 0x68, 0x69, 0x0D], [], [0x0A, 0x0D], [0x0A, 0x69]] [] =
      { items := [.event { event := js "message", data := js "hi", lastEventId := [] }]
        error := none } := by
  decide +kernel

end Events
