import TeslatlasSdk.Events.SseSubscription
import TeslatlasSdk.Http.BoundedJson
import TeslatlasSdk.Text.FormUrlencoded

/-!
# `streamProtocolEvents`

The typed event stream is a subscription whose mapper decodes an event, whose classifier knows the
statuses of the protocol, and whose policy reconnects after the end of a stream and after a
transport error only.  The generated schema validator is a parameter.
-/

open Text Core Json Http

namespace Events

/-! ## Profiles -/

inductive SupportedProtocolVersion where
  | v1_0_0
  | v1_1_0
  | v1_2_0
  deriving DecidableEq, Repr

/-- Major, minor and patch number. -/
def SupportedProtocolVersion.numbers : SupportedProtocolVersion → Int × Int × Int
  | .v1_0_0 => (1, 0, 0)
  | .v1_1_0 => (1, 1, 0)
  | .v1_2_0 => (1, 2, 0)

def compareProfiles (left right : SupportedProtocolVersion) : Int :=
  let (leftMajor, leftMinor, leftPatch) := left.numbers
  let (rightMajor, rightMinor, rightPatch) := right.numbers
  if leftMajor - rightMajor ≠ 0 then leftMajor - rightMajor
  else if leftMinor - rightMinor ≠ 0 then leftMinor - rightMinor
  else leftPatch - rightPatch

/-- The locked catalogue: event names with the version that introduced them. -/
def protocolEventCatalog : List (JsString × SupportedProtocolVersion) :=
  [(js "observation.admitted", .v1_0_0), (js "vehicle.current.changed", .v1_0_0),
    (js "drive.started", .v1_0_0), (js "drive.updated", .v1_0_0), (js "drive.ended", .v1_0_0),
    (js "charge.started", .v1_0_0), (js "charge.updated", .v1_0_0), (js "charge.ended", .v1_0_0),
    (js "state.changed", .v1_0_0), (js "software_update.changed", .v1_0_0),
    (js "data_quality.changed", .v1_0_0), (js "command.changed", .v1_1_0),
    (js "metadata.changed", .v1_2_0)]

def eventIntroducedIn (name : JsString) : Option SupportedProtocolVersion :=
  protocolEventCatalog.lookup name

def resourceIdentifierField : List (JsString × JsString) :=
  [(js "observation.admitted", js "observation_id"),
    (js "vehicle.current.changed", js "vehicle_id"), (js "drive.started", js "drive_id"),
    (js "drive.updated", js "drive_id"), (js "drive.ended", js "drive_id"),
    (js "charge.started", js "charge_id"), (js "charge.updated", js "charge_id"),
    (js "charge.ended", js "charge_id"), (js "state.changed", js "state_id"),
    (js "software_update.changed", js "update_id"), (js "data_quality.changed", js "subject_id"),
    (js "command.changed", js "command_id"), (js "metadata.changed", js "metadata_id")]

/-! ## Values -/

/-- `===` on numbers: the sign of a zero does not count. -/
def numberEquals : Binary64 → Binary64 → Bool
  | .finite _ 0 _, .finite _ 0 _ => true
  | x, y => x = y

/-- `===` on two parts of one parsed value that stand at different places, or on a missing one.
Arrays and objects are then different objects. -/
def strictEquals : Option Value → Option Value → Bool
  | none, none => true
  | some (.leaf (.number x)), some (.leaf (.number y)) => numberEquals x y
  | some (.leaf x), some (.leaf y) => x = y
  | _, _ => false

/-- The `TypeError` of a property access on null. -/
def typeError : Thrown := .other 0

/-- `value[key]`, for keys that no prototype has. -/
def property (value : Value) (key : JsString) : Except Thrown (Option Value) :=
  match value with
  | .leaf .null => .error typeError
  | value => .ok (value.child key)

/-- `asRecord`. -/
def asRecord : Option Value → Option Value
  | some (.object members) => some (.object members)
  | _ => none

/-! ## Decoding -/

def protocolValidationError (validatorName : String) : Thrown :=
  .teslatlas (.protocolValidation validatorName)

/-- A generated validator; its integer checks look up recorded lexemes. -/
abbrev ProtocolValidator := Value → NumericLexemes → Bool

/-- `assertFiniteNumbers`. -/
def assertFiniteNumbers (value : Value) (validatorName : String) : Except TeslatlasError Unit :=
  visitJson (fun _ x _ acc =>
    if !x.isFinite then .error (.protocolValidation (validatorName ++ ".number")) else .ok acc)
    value none ()

def decodeProtocolValue (value : Value) (lexemes : NumericLexemes) (validator : ProtocolValidator)
    (validatorName : String) : Except Thrown Value :=
  match assertFiniteNumbers value validatorName with
  | .error e => .error (.teslatlas e)
  | .ok _ =>
      if !validator value lexemes then .error (protocolValidationError validatorName)
      else .ok value

/-- The revision that a payload carries; a tombstone's is that of its deletion audit. -/
def eventRevision (data : Value) : Option Value :=
  match data.child (js "revision") with
  | some revision => some revision
  | none =>
      match asRecord (data.child (js "audit")) with
      | none => none
      | some audit =>
          match asRecord (audit.child (js "deletion")) with
          | none => none
          | some deletion => deletion.child (js "revision")

def assertEventSemantics (event : Value) : Except Thrown Unit := do
  match asRecord (← property event (js "data")) with
  | none => throw (protocolValidationError "validateEvent.data")
  | some data =>
      let revision := eventRevision data
      if revision.isSome && !strictEquals (← property event (js "revision")) revision then
        throw (protocolValidationError "validateEvent.revision")
      let vehicleId := data.child (js "vehicle_id")
      if vehicleId.isSome && !strictEquals (← property event (js "vehicle_id")) vehicleId then
        throw (protocolValidationError "validateEvent.vehicle_id")
      let resourceField :=
        match ← property event (js "event_type") with
        | some (.leaf (.string eventType)) =>
            (resourceIdentifierField.lookup eventType).getD (js "undefined")
        | _ => js "undefined"
      let resourceId := data.child resourceField
      if resourceId.isSome && !strictEquals (← property event (js "resource_id")) resourceId then
        throw (protocolValidationError "validateEvent.resource_id")

/-- The mapper: `none` for an event that this catalogue does not know. -/
def decodeProtocolEvent (validateEvent : ProtocolValidator) (event : SseEvent)
    (protocolVersion : SupportedProtocolVersion) : Except Thrown (Option Value) :=
  match eventIntroducedIn event.event with
  | none => .ok none
  | some introducedIn =>
      if compareProfiles introducedIn protocolVersion > 0 then
        .error (protocolValidationError "validateEvent.profile")
      else
        match parseProtocolJson event.data "validateEvent.json" with
        | .error _ => .error (protocolValidationError "validateEvent.json")
        | .ok (rawValue, lexemes) => do
            let value ← decodeProtocolValue rawValue lexemes validateEvent "validateEvent"
            if !strictEquals (← property value (js "event_id"))
                (some (.leaf (.string event.lastEventId))) then
              throw (protocolValidationError "validateEvent.id")
            if !strictEquals (← property value (js "event_type"))
                (some (.leaf (.string event.event))) then
              throw (protocolValidationError "validateEvent.type")
            assertEventSemantics value
            return some value

/-! ## The subscription -/

/-- `classifyProtocolResponse`; `problem` is what `decodeProtocolProblemResponse` throws. -/
def classifyProtocolResponse (response : SseResponse) (problem : Thrown) : SseResponseAction :=
  if response.status = 200 then .continue
  else if response.status = 204 then
    if response.body.isSome then .error (protocolValidationError "streamEvents.204") else .terminal
  else
    match problem with
    | .teslatlas (.protocolHttp e) =>
        if e.status = 410 ∧ e.code = js "event_replay_expired" then
          .error (.teslatlas (.replayGap e.status e.requestId))
        else .error problem
    | problem => .error problem

/-- The reconnect policy. -/
def reconnectDelay : ReconnectReason → Option JsNumber
  | .eof => some (.integer 3000)
  | .error (.teslatlas .transport) => some (.integer 3000)
  | .error _ => none

/-! ## Options -/

def invalidStreamEventsOptions : Thrown := .teslatlas .invalidStreamEventsOptions

def normalizeVehicleId : Option JsString → Except Thrown (Option JsString)
  | none => .ok none
  | some value =>
      if value.length < 3 || 128 < value.length || containsControlCharacters value then
        .error invalidStreamEventsOptions
      else .ok (some value)

/-- The loop of `normalizeEventTypes`; `seen` holds the names of earlier rounds. -/
def checkEventTypes (protocolVersion : SupportedProtocolVersion) (seen : List JsString) :
    List JsString → Except Thrown (List JsString)
  | [] => .ok []
  | eventType :: rest =>
      match eventIntroducedIn eventType with
      | none => .error invalidStreamEventsOptions
      | some introducedIn =>
          if seen.contains eventType then .error invalidStreamEventsOptions
          else if 0 < compareProfiles introducedIn protocolVersion then
            .error (.teslatlas .unsupportedStreamEventType)
          else
            (checkEventTypes protocolVersion (eventType :: seen) rest).map (eventType :: ·)

def normalizeEventTypes (value : Option (List JsString))
    (protocolVersion : SupportedProtocolVersion) : Except Thrown (List JsString) :=
  match value with
  | none => .ok []
  | some eventTypes =>
      if 32 < eventTypes.length then .error invalidStreamEventsOptions
      else checkEventTypes protocolVersion [] eventTypes

def eventPath (vehicleId : Option JsString) (eventTypes : List JsString) : JsString :=
  let query := vehicleId.toList.map (js "vehicle_id", ·) ++
    if eventTypes.isEmpty then [] else [(js "event_type", List.intercalate (js ",") eventTypes)]
  let encoded := formSerialize query
  if encoded.isEmpty then js "/v1/events" else js "/v1/events?" ++ encoded

structure StreamEventsOptions where
  checkpoint : Bool
  protocolVersion : SupportedProtocolVersion
  validateEvent : ProtocolValidator

def SupportedProtocolVersion.text : SupportedProtocolVersion → JsString
  | .v1_0_0 => js "1.0.0"
  | .v1_1_0 => js "1.1.0"
  | .v1_2_0 => js "1.2.0"

/-- The options that `streamProtocolEvents` gives to `subscribeToSse`. -/
def StreamEventsOptions.subscription (o : StreamEventsOptions) : SseSubscriptionOptions Value where
  checkpoint := o.checkpoint
  reconnect := true
  responseClassifier := true
  rawEvent := none
  protocolVersion := some o.protocolVersion.text
  minimumServerRetryMilliseconds := none
  maximumServerRetryMilliseconds := some (.integer 30000)

/-- Inputs of the typed stream: where the SDK itself answers, only the moment of the answer. -/
inductive StreamEventsInput where
  | request (request : IteratorRequest)
  | resume
  | abort (reason : Thrown)
  | tick
  | loaded (result : Except Thrown StoredCheckpoint)
  | responded (result : Except Thrown SseResponse)
  | classified (problem : Thrown)
  | read (result : Except Thrown (Option (List UInt8)))
  | mapped
  | saved (result : Except Thrown Unit)
  | decided
  | slept (result : Except Thrown Unit)

/-- The SDK's answers, for what the subscription waits for. -/
def StreamEventsOptions.answer (o : StreamEventsOptions) (s : Subscription) :
    StreamEventsInput → SubscriptionInput Value
  | .request request => .request request
  | .resume => .resume
  | .abort reason => .abort reason
  | .tick => .tick
  | .loaded result => .loaded result
  | .responded result => .responded result
  | .classified problem =>
      match s.suspension with
      | .classifying response => .classified (.ok (classifyProtocolResponse response problem))
      | _ => .classified (.error problem)
  | .read result => .read result
  | .mapped =>
      match s.suspension with
      | .mapping event _ => .mapped (decodeProtocolEvent o.validateEvent event o.protocolVersion)
      | _ => .mapped (.ok none)
  | .saved result => .saved result
  | .decided =>
      match s.suspension with
      | .deciding reason => .decided (.ok (reconnectDelay reason))
      | _ => .decided (.ok none)
  | .slept result => .slept result

def streamProtocolEvents (o : StreamEventsOptions) (signal : AbortState) :
    Machine Subscription StreamEventsInput (SubscriptionAction Value) where
  initial := { signal }
  step := fun s i => s.step o.subscription (o.answer s i)

end Events
