import TeslatlasSdk.Core.Machine
import TeslatlasSdk.Events.SseParser
import TeslatlasSdk.Text.MediaType

/-!
# `subscribeToSse`

The async generator as a machine.  Its state says where the body is suspended; an input is what
wakes it up (the answer of the host call it awaits, or a request of the consumer at a `yield`) or an
abort of the caller's signal, which may come at any time.  Between two inputs the body runs without
interruption, and the log records what it does on the way.
-/

open Text Core

namespace Events

/-! ## Pulling items from a body -/

/-- The suspended `parseSseStream`: the parser, the windows of the chunk being fed that are left, and
the items of the last window not yielded yet. -/
structure SseStream where
  parser : IncrementalSseParser
  decoder : Utf8Decoder := {}
  windows : List (List UInt8) := []
  taken : List SseStreamItem := []
  completed : Bool := false

/-- How a call of `next()` on `parseSseStream` goes on. -/
inductive SsePull where
  | read (stream : SseStream)
  | item (item : SseStreamItem) (stream : SseStream)
  | done
  | failed (error : Thrown)

/-- Run `parseSseStream` up to its next `yield`, its next read or its end. -/
def pullFrom (signal : AbortState) (completed : Bool) (parser : IncrementalSseParser)
    (decoder : Utf8Decoder) : List SseStreamItem → List (List UInt8) → SsePull
  | item :: taken, windows =>
      match signal with
      | some reason => .failed (abortReason reason)
      | none => .item item { parser, decoder, windows, taken, completed }
  | [], [] => if completed then .done else .read { parser, decoder, completed }
  | [], window :: windows =>
      match parser.feed (ofScalars (decoder.decode window).1) with
      | .error e => .failed (.teslatlas e)
      | .ok parser =>
          pullFrom signal completed { parser with items := [] } (decoder.decode window).2
            parser.items windows

def SseStream.next (signal : AbortState) (s : SseStream) : SsePull :=
  pullFrom signal s.completed s.parser s.decoder s.taken s.windows

/-- The body has ended: feed what the decoder still holds. -/
def SseStream.finish (signal : AbortState) (s : SseStream) : SsePull :=
  match s.parser.feed (ofScalars s.decoder.flush) with
  | .error e => .failed (.teslatlas e)
  | .ok parser =>
      { s with parser := { parser with items := [] }, taken := parser.items,
               completed := true : SseStream }.next signal

/-! ## Options, responses and results -/

structure SseResponse where
  status : Nat
  contentType : Option JsString
  /-- `none` for a null body, else whether the body is locked. -/
  body : Option Bool
  deriving DecidableEq, Repr

def SseResponse.ok (response : SseResponse) : Bool := 200 ≤ response.status ∧ response.status ≤ 299

inductive SseResponseAction where
  | continue
  | terminal
  | error (error : Thrown)
  deriving DecidableEq, Repr

/-- What `checkpoint.load()` may answer. -/
inductive StoredCheckpoint where
  | undefined
  | string (value : JsString)
  | notAString
  deriving DecidableEq, Repr

structure SseSubscriptionOptions (Event : Type) where
  checkpoint : Bool
  reconnect : Bool
  responseClassifier : Bool
  /-- Without a mapper, the cast of a raw event to the caller's type. -/
  rawEvent : Option (SseEvent → Event)
  protocolVersion : Option JsString
  minimumServerRetryMilliseconds : Option JsNumber
  maximumServerRetryMilliseconds : Option JsNumber

inductive ReconnectReason where
  | eof
  | error (error : Thrown)
  deriving DecidableEq, Repr

structure SseReconnectContext where
  attempt : Nat
  reason : ReconnectReason
  serverRetryMilliseconds : Option Nat
  deriving DecidableEq, Repr

/-- How a body or a loop is left early. -/
inductive Completion where
  | returned
  | threw (error : Thrown)
  deriving DecidableEq, Repr

/-- The consumer's calls on the iterator. -/
inductive IteratorRequest where
  | next
  | return
  | throw (error : Thrown)
  deriving DecidableEq, Repr

def isByteString (value : JsString) : Bool := value.all (· ≤ 255)

/-- `validateCheckpoint` on a string. -/
def isValidCheckpoint (value : JsString) : Bool :=
  value.length ≤ 2048 && !containsControlCharacters value && isByteString value

def isValidProtocolVersion (value : JsString) : Bool :=
  !value.isEmpty && !containsControlCharacters value && isByteString value

/-- `normalizeCheckpoint` on a valid string. -/
def normalizeCheckpoint (value : JsString) : Option JsString :=
  if value.isEmpty then none else some value

/-- The `Last-Event-ID` header of a connection. -/
def lastEventIdHeader : Option JsString → Option JsString
  | none => none
  | some id => if id.length > 0 then some id else none

def isEventStreamContentType : Option JsString → Bool
  | none => false
  | some value => mediaType value = js "text/event-stream"

/-- `assertRetryBounds`, with the bounds it admits. -/
def SseSubscriptionOptions.retryBounds {Event : Type} (o : SseSubscriptionOptions Event) :
    Option (Nat × Nat) := do
  let minimum ← (o.minimumServerRetryMilliseconds.getD (.integer 0)).nonNegativeSafeInteger?
  let maximum ← (o.maximumServerRetryMilliseconds.getD (.integer 30000)).nonNegativeSafeInteger?
  if minimum > maximum then none else some (minimum, maximum)

def clamp (value minimum maximum : Nat) : Nat := min maximum (max minimum value)

/-! ## The machine -/

/-- Where the body of the generator is suspended. -/
inductive Suspension where
  | start
  | loading
  | requesting
  | classifying (response : SseResponse)
  /-- `await cancelResponseBody(response)` on the way out. -/
  | cancelling (completion : Completion)
  | reading (stream : SseStream)
  /-- The `for await` waits for the result of a `next()` that has been made. -/
  | iterating (result : SsePull)
  | mapping (event : SseEvent) (stream : SseStream)
  | saving (stream : SseStream)
  | yielding (event : SseEvent) (stream : SseStream)
  /-- The `for await` waits for the parser's `return()`. -/
  | closing (completion : Completion)
  | deciding (reason : ReconnectReason)
  | sleeping
  | finished

structure Subscription where
  suspension : Suspension := .start
  signal : AbortState := none
  /-- The consumer's requests in order; the body works on the first. -/
  requests : List IteratorRequest := []
  committedLastEventId : Option JsString := none
  serverRetryMilliseconds : Option Nat := none
  reconnectAttempt : Nat := 1

inductive SubscriptionInput (Event : Type) where
  | request (request : IteratorRequest)
  /-- The generator takes up the first request while it is not at work. -/
  | resume
  | abort (reason : Thrown)
  /-- An awaited promise that cannot fail is fulfilled. -/
  | tick
  | loaded (result : Except Thrown StoredCheckpoint)
  | responded (result : Except Thrown SseResponse)
  | classified (result : Except Thrown SseResponseAction)
  /-- A chunk, or `none` at the end of the body. -/
  | read (result : Except Thrown (Option (List UInt8)))
  | mapped (result : Except Thrown (Option Event))
  | saved (result : Except Thrown Unit)
  | decided (result : Except Thrown (Option JsNumber))
  | slept (result : Except Thrown Unit)

inductive SubscriptionAction (Event : Type) where
  | load
  /-- The loaded checkpoint has passed its check. -/
  | loaded (lastEventId : Option JsString)
  | connect (lastEventId : Option JsString)
  | cancelBody
  | received (chunk : List UInt8)
  /-- The body of the `for await` has an item. -/
  | delivered (item : SseStreamItem)
  | map (event : SseEvent)
  | skipped (event : SseEvent)
  | yielded (event : SseEvent) (value : Event)
  /-- The consumer has asked for what follows a yielded event. -/
  | acknowledged (event : SseEvent)
  /-- `committedLastEventId` takes the id of an item. -/
  | commit (item : SseStreamItem)
  | save (lastEventId : Option JsString)
  | saved
  | decide (context : SseReconnectContext)
  | sleep (milliseconds : Nat)
  | settled (completion : Completion)

/-- The id that an item carries. -/
def SseStreamItem.lastEventId : SseStreamItem → JsString
  | .event e => e.lastEventId
  | .checkpoint id => id
  | .retry _ => []

namespace Subscription

variable {Event : Type}

/-- The state after a step and the actions of the step. -/
abbrev Step (Event : Type) := Subscription × List (SubscriptionAction Event)

def Step.after (actions : List (SubscriptionAction Event)) (step : Step Event) : Step Event :=
  (step.1, actions ++ step.2)

def finish (s : Subscription) (completion : Completion) : Step Event :=
  ({ s with suspension := .finished, requests := s.requests.tail }, [.settled completion])

def decideReconnect (o : SseSubscriptionOptions Event) (s : Subscription)
    (reason : ReconnectReason) : Step Event :=
  ({ s with suspension := .deciding reason },
    if o.reconnect then
      [.decide { attempt := s.reconnectAttempt, reason,
                 serverRetryMilliseconds := s.serverRetryMilliseconds }]
    else [])

/-- `catch (error)` around a connection. -/
def catchError (o : SseSubscriptionOptions Event) (s : Subscription) (error : Thrown) :
    Step Event :=
  match s.signal with
  | some reason => s.finish (.threw (abortReason reason))
  | none =>
      match error with
      | .teslatlas .invalidSseCheckpoint => s.finish (.threw error)
      | .teslatlas (.sseLimit _) => s.finish (.threw error)
      | .sseStreamRead => s.decideReconnect o (.error (.teslatlas .transport))
      | error => s.decideReconnect o (.error error)

/-- Leave the response before the parser owns its body. -/
def cancel (s : Subscription) (response : SseResponse) (completion : Completion) : Step Event :=
  ({ s with suspension := .cancelling completion },
    if response.body = some false then [.cancelBody] else [])

/-- Leave the `for await` from its body. -/
def close (s : Subscription) (completion : Completion) : Step Event :=
  ({ s with suspension := .closing completion }, [])

/-- The top of the reconnect loop. -/
def connect (s : Subscription) : Step Event :=
  match s.signal with
  | some reason => s.finish (.threw (abortReason reason))
  | none =>
      ({ s with suspension := .requesting, serverRetryMilliseconds := none },
        [.connect (lastEventIdHeader s.committedLastEventId)])

/-- The `for await` acts on what `next()` came to. -/
def pulled (s : Subscription) : SsePull → Step Event
  | .read stream => ({ s with suspension := .reading stream }, [])
  | result => ({ s with suspension := .iterating result }, [])

/-- `committedLastEventId = normalizeCheckpoint(item.lastEventId)` and the save that follows. -/
def commit (o : SseSubscriptionOptions Event) (s : Subscription) (item : SseStreamItem)
    (stream : SseStream) : Step Event :=
  if isValidCheckpoint item.lastEventId then
    ({ s with suspension := .saving stream,
              committedLastEventId := normalizeCheckpoint item.lastEventId },
      .commit item ::
        if o.checkpoint then [.save (normalizeCheckpoint item.lastEventId)] else [])
  else s.close (.threw (.teslatlas .invalidSseCheckpoint))

def yieldValue (s : Subscription) (event : SseEvent) (value : Event) (stream : SseStream) :
    Step Event :=
  ({ s with suspension := .yielding event stream, requests := s.requests.tail },
    [.yielded event value])

/-- The body of the `for await`. -/
def handleItem (o : SseSubscriptionOptions Event) (s : Subscription) (item : SseStreamItem)
    (stream : SseStream) : Step Event :=
  match s.signal with
  | some reason => s.close (.threw (abortReason reason))
  | none =>
      Step.after [.delivered item] <|
        match item with
        | .retry milliseconds =>
            { s with serverRetryMilliseconds := some milliseconds }.pulled (stream.next none)
        | .checkpoint _ => s.commit o item stream
        | .event event =>
            match o.rawEvent with
            | some rawEvent => s.yieldValue event (rawEvent event) stream
            | none => ({ s with suspension := .mapping event stream }, [.map event])

/-- After classification: the checks of the response, then the parser. -/
def useResponse (s : Subscription) (response : SseResponse) (action : SseResponseAction) :
    Step Event :=
  match s.signal, action with
  | some reason, _ => s.cancel response (.threw (abortReason reason))
  | none, .terminal => s.cancel response .returned
  | none, .error error => s.cancel response (.threw error)
  | none, .continue =>
      if !response.ok then s.cancel response (.threw (.teslatlas (.sseHttp response.status)))
      else if !isEventStreamContentType response.contentType then
        s.cancel response (.threw (.teslatlas .sseContentType))
      else
        match response.body with
        | none => s.cancel response (.threw (.teslatlas .sseBody))
        | some true => s.pulled (.failed .sseStreamRead)
        | some false =>
            s.pulled (.read { parser := { lastEventId := s.committedLastEventId.getD [] } })

/-- The first `next()`. -/
def begin (o : SseSubscriptionOptions Event) (s : Subscription) : Step Event :=
  if o.retryBounds = none then s.finish (.threw (.teslatlas .invalidSseRetryConfiguration))
  else if !(o.protocolVersion.all isValidProtocolVersion) then
    s.finish (.threw (.teslatlas .invalidSseProtocolVersion))
  else
    match s.signal with
    | some reason => s.finish (.threw (abortReason reason))
    | none => ({ s with suspension := .loading }, if o.checkpoint then [.load] else [])

def resumeLoading (s : Subscription) (stored : Except Thrown StoredCheckpoint) : Step Event :=
  match stored, s.signal with
  | .error _, _ => s.finish (.threw (.teslatlas .invalidSseCheckpoint))
  | .ok _, some reason => s.finish (.threw (abortReason reason))
  | .ok .undefined, none => Step.after [.loaded none] { s with committedLastEventId := none }.connect
  | .ok (.string id), none =>
      if isValidCheckpoint id then
        Step.after [.loaded (some id)] { s with committedLastEventId := some id }.connect
      else s.finish (.threw (.teslatlas .invalidSseCheckpoint))
  | .ok .notAString, none => s.finish (.threw (.teslatlas .invalidSseCheckpoint))

def resumeRequesting (o : SseSubscriptionOptions Event) (s : Subscription)
    (result : Except Thrown SseResponse) : Step Event :=
  match result, s.signal with
  | .error error, _ => s.catchError o error
  | .ok response, some reason => s.cancel response (.threw (abortReason reason))
  | .ok response, none =>
      if o.responseClassifier then ({ s with suspension := .classifying response }, [])
      else if response.ok then s.useResponse response .continue
      else s.useResponse response (.error (.teslatlas (.sseHttp response.status)))

def resumeReading (s : Subscription) (stream : SseStream)
    (result : Except Thrown (Option (List UInt8))) : Step Event :=
  match s.signal, result with
  | some reason, _ => s.pulled (.failed (abortReason reason))
  | none, .error _ => s.pulled (.failed .sseStreamRead)
  | none, .ok (some chunk) =>
      Step.after [.received chunk]
        (s.pulled ({ stream with windows := windows chunk }.next none))
  | none, .ok none => s.pulled (stream.finish none)

def resumeIterating (o : SseSubscriptionOptions Event) (s : Subscription) : SsePull → Step Event
  | .read stream => ({ s with suspension := .reading stream }, [])
  | .item item stream => s.handleItem o item stream
  | .done => s.decideReconnect o .eof
  | .failed error => s.catchError o error

def resumeMapping (o : SseSubscriptionOptions Event) (s : Subscription) (event : SseEvent)
    (stream : SseStream) (result : Except Thrown (Option Event)) : Step Event :=
  match result, s.signal with
  | .error error, _ => s.close (.threw error)
  | .ok _, some reason => s.close (.threw (abortReason reason))
  | .ok none, none => Step.after [.skipped event] (s.commit o (.event event) stream)
  | .ok (some value), none => s.yieldValue event value stream

def resumeSaving (o : SseSubscriptionOptions Event) (s : Subscription) (stream : SseStream)
    (result : Except Thrown Unit) : Step Event :=
  if o.checkpoint then
    match result with
    | .error _ => s.close (.threw (.teslatlas .invalidSseCheckpoint))
    | .ok _ => Step.after [.saved] (s.pulled (stream.next s.signal))
  else s.pulled (stream.next s.signal)

/-- At a `yield`, the next request of the consumer. -/
def resumeYielding (o : SseSubscriptionOptions Event) (s : Subscription) (event : SseEvent)
    (stream : SseStream) : IteratorRequest → Step Event
  | .next =>
      match s.signal with
      | some reason => Step.after [.acknowledged event] (s.close (.threw (abortReason reason)))
      | none => Step.after [.acknowledged event] (s.commit o (.event event) stream)
  | .return => s.close .returned
  | .throw error => s.close (.threw error)

/-- `await cancelResponseBody` or the parser's `return()` is over. -/
def resumeCompletion (o : SseSubscriptionOptions Event) (s : Subscription) : Completion → Step Event
  | .returned => s.finish .returned
  | .threw error => s.catchError o error

def resumeDeciding (o : SseSubscriptionOptions Event) (s : Subscription) (reason : ReconnectReason)
    (result : Except Thrown (Option JsNumber)) : Step Event :=
  match (if o.reconnect then result else .ok none), s.signal with
  | .error error, _ => s.finish (.threw error)
  | .ok none, none =>
      match reason with
      | .error error => s.finish (.threw error)
      | .eof => s.finish .returned
  | .ok none, some abort => s.finish (.threw (abortReason abort))
  | .ok (some number), signal =>
      match number.nonNegativeSafeInteger?, signal, s.serverRetryMilliseconds with
      | none, _, _ => s.finish (.threw (.teslatlas .invalidSseRetryConfiguration))
      | some _, some abort, _ => s.finish (.threw (abortReason abort))
      | some policyDelay, none, none => ({ s with suspension := .sleeping }, [.sleep policyDelay])
      | some _, none, some milliseconds =>
          let (minimum, maximum) := o.retryBounds.getD (0, 30000)
          ({ s with suspension := .sleeping }, [.sleep (clamp milliseconds minimum maximum)])

def resumeSleeping (s : Subscription) (result : Except Thrown Unit) : Step Event :=
  match result, s.signal with
  | .error error, _ => s.finish (.threw error)
  | .ok _, some abort => s.finish (.threw (abortReason abort))
  | .ok _, none => { s with reconnectAttempt := s.reconnectAttempt + 1 }.connect

/-- A request that finds the generator not at work. -/
def resume (o : SseSubscriptionOptions Event) (s : Subscription) (request : IteratorRequest) :
    Step Event :=
  match s.suspension, request with
  | .start, .next => s.begin o
  | .start, .return => s.finish .returned
  | .start, .throw error => s.finish (.threw error)
  | .yielding event stream, request => s.resumeYielding o event stream request
  | .finished, .throw error => s.finish (.threw error)
  | .finished, _ => s.finish .returned
  | _, _ => (s, [])

/-- One input; an answer nothing waits for changes nothing. -/
def step (o : SseSubscriptionOptions Event) (s : Subscription) (input : SubscriptionInput Event) :
    Step Event :=
  match input, s.suspension with
  | .request request, _ => ({ s with requests := s.requests ++ [request] }, [])
  | .abort reason, _ => ({ s with signal := s.signal.or (some reason) }, [])
  | .resume, _ =>
      match s.requests with
      | [] => (s, [])
      | request :: _ => s.resume o request
  | .loaded stored, .loading => s.resumeLoading (if o.checkpoint then stored else .ok .undefined)
  | .responded result, .requesting => s.resumeRequesting o result
  | .classified (.error error), .classifying response => s.cancel response (.threw error)
  | .classified (.ok action), .classifying response => s.useResponse response action
  | .tick, .cancelling completion => s.resumeCompletion o completion
  | .read result, .reading stream => s.resumeReading stream result
  | .tick, .iterating result => s.resumeIterating o result
  | .mapped result, .mapping event stream => s.resumeMapping o event stream result
  | .saved result, .saving stream => s.resumeSaving o stream result
  | .tick, .closing completion => s.resumeCompletion o completion
  | .decided result, .deciding reason => s.resumeDeciding o reason result
  | .slept result, .sleeping => s.resumeSleeping result
  | _, _ => (s, [])

end Subscription

/-- `subscribeToSse(options)`, with a signal that may be aborted already. -/
def subscribeToSse {Event : Type} (o : SseSubscriptionOptions Event) (signal : AbortState) :
    Machine Subscription (SubscriptionInput Event) (SubscriptionAction Event) where
  initial := { signal }
  step := Subscription.step o

end Events
