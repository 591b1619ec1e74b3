import TeslatlasSdk.Client.Writes
import TeslatlasSdk.Core.Numbers

/-!
# Reads of the client

What the reads check of an id and of their options, and the requests that they build.
-/

open Text Core Http Events Client

namespace TeslatlasClient

/-! ## Timestamps -/

def isLeapYear (year : Nat) : Bool := year % 4 = 0 && (year % 100 ≠ 0 || year % 400 = 0)

/-- The days of the months, January first. -/
def monthLengths (year : Nat) : List Nat :=
  [31, if isLeapYear year then 29 else 28, 31, 30, 31, 30, 31, 31, 30, 31, 30, 31]

/-- The days from the first of January of the year 0 to that of `year`. -/
def daysBeforeYear (year : Nat) : Nat :=
  365 * year + (year + 3) / 4 - (year + 99) / 100 + (year + 399) / 400

/-- `/^\d{4}-\d{2}-\d{2}T\d{2}:\d{2}:\d{2}\.\d{3}Z$/u`. -/
def isTimestampSyntax (value : JsString) : Bool :=
  value.length = 24 && value.zipIdx.all fun (u, k) =>
    if k = 4 ∨ k = 7 then u = 0x2D
    else if k = 10 then u = 0x54
    else if k = 13 ∨ k = 16 then u = 0x3A
    else if k = 19 then u = 0x2E
    else if k = 23 then u = 0x5A
    else isDigit u

/-- `Date.parse` of a timestamp that `toISOString` gives back, in milliseconds from the year 0; a
timestamp with a field out of its range is none. -/
def dateParse (value : JsString) : Option Nat :=
  let field := fun start length => digitsValue ((value.drop start).take length)
  let (year, month, day) := (field 0 4, field 5 2, field 8 2)
  let (hours, minutes, seconds, milliseconds) := (field 11 2, field 14 2, field 17 2, field 20 3)
  let lengths := monthLengths year
  if 1 ≤ month ∧ month ≤ 12 ∧ 1 ≤ day ∧ day ≤ lengths.getD (month - 1) 0 ∧ hours < 24 ∧
      minutes < 60 ∧ seconds < 60 then
    let days := daysBeforeYear year + (lengths.take (month - 1)).sum + (day - 1)
    some ((((days * 24 + hours) * 60 + minutes) * 60 + seconds) * 1000 + milliseconds)
  else none

example : dateParse (js "1970-01-01T00:00:00.000Z") = some (719528 * 86400000) := by decide

def isTimestamp (value : JsString) : Bool := isTimestampSyntax value && (dateParse value).isSome

/-! ## Options -/

/-- A signal has an identity and nothing else. -/
structure ConditionalReadOptions where
  ifNoneMatch : Option JsString := none
  signal : Option Nat := none
  deriving DecidableEq, Repr

structure PageReadOptions extends ConditionalReadOptions where
  cursor : Option JsString := none
  limit : Option JsNumber := none
  deriving DecidableEq, Repr

/-- `start` is the option `from`, and `stop` is `to`. -/
structure HistoryPageOptions extends PageReadOptions where
  start : Option JsString := none
  stop : Option JsString := none
  deriving DecidableEq, Repr

structure DataQualityPageOptions extends HistoryPageOptions where
  vehicleId : Option JsString := none
  deriving DecidableEq, Repr

structure MetadataPageOptions extends PageReadOptions where
  kind : Option JsString := none
  deriving DecidableEq, Repr

/-- The session with the limits that the descriptor gives for reads; its schema bounds the size of a
page. -/
structure ReadSession extends ClientSession where
  maxPageSize : Nat
  maxHistoryRangeDays : Nat
  maxDenseRangeDays : Nat
  maxPageSize_le : maxPageSize ≤ 500

inductive RangeLimit where
  | history
  | dense
  deriving DecidableEq, Repr

def ReadSession.maximumDays (session : ReadSession) : RangeLimit → Nat
  | .history => session.maxHistoryRangeDays
  | .dense => session.maxDenseRangeDays

def invalidReadOptions : Thrown := .teslatlas .invalidReadOptions

/-- An option that is left out or passes a check. -/
def normalizeOption {α : Type} (isValid : α → Bool) : Option α → Except Thrown (Option α)
  | none => .ok none
  | some value => if isValid value then .ok (some value) else .error invalidReadOptions

def normalizeEntityTag : Option JsString → Except Thrown (Option JsString) :=
  normalizeOption fun value => value.length ≤ 512 && isEntityTag value

def normalizeCursor : Option JsString → Except Thrown (Option JsString) :=
  normalizeOption isOpaqueCursor

def isLimit (maximum : Nat) : JsNumber → Bool
  | .integer value => 1 ≤ value && value ≤ maximum
  | .other _ => false

def normalizeLimit (maximum : Nat) : Option JsNumber → Except Thrown (Option JsNumber) :=
  normalizeOption (isLimit maximum)

def normalizeTimestamp : Option JsString → Except Thrown (Option JsString) :=
  normalizeOption isTimestamp

def normalizeConditionalOptions (options : ConditionalReadOptions) :
    Except Thrown ConditionalReadOptions := do
  let ifNoneMatch ← normalizeEntityTag options.ifNoneMatch
  return { ifNoneMatch, signal := options.signal }

section Options

variable (session : ReadSession)

def normalizePageOptions (options : PageReadOptions) : Except Thrown PageReadOptions := do
  let conditional ← normalizeConditionalOptions options.toConditionalReadOptions
  let cursor ← normalizeCursor options.cursor
  let limit ← normalizeLimit session.maxPageSize options.limit
  return { conditional with cursor, limit }

def normalizeMetadataPageOptions (options : MetadataPageOptions) :
    Except Thrown MetadataPageOptions := do
  let page ← normalizePageOptions session options.toPageReadOptions
  return { page with kind := options.kind }

/-- Whether a range is neither empty nor longer than the limit. -/
def isRange (maximumDays : Nat) (start stop : JsString) : Bool :=
  match dateParse start, dateParse stop with
  | some startMillis, some stopMillis =>
      !(stopMillis ≤ startMillis || maximumDays * 86400000 < stopMillis - startMillis)
  | _, _ => false

def normalizeHistoryOptions (options : HistoryPageOptions) (rangeLimit : RangeLimit) :
    Except Thrown HistoryPageOptions := do
  let page ← normalizePageOptions session options.toPageReadOptions
  let start ← normalizeTimestamp options.start
  let stop ← normalizeTimestamp options.stop
  match start, stop with
  | some first, some last =>
      if isRange (session.maximumDays rangeLimit) first last then return { page with start, stop }
      else throw invalidReadOptions
  | _, _ => return { page with start, stop }

end Options

/-! ## Queries -/

abbrev QueryValues := List (JsString × QueryValue)

/-- A property of a query that is not `undefined`. -/
def queryValue (name : String) (value : Option JsString) : QueryValues :=
  value.toList.map fun value => (js name, .text value)

def pageQuery (options : PageReadOptions) : QueryValues :=
  queryValue "cursor" options.cursor ++ queryValue "limit" (options.limit.map JsNumber.text)

def historyQuery (options : HistoryPageOptions) : QueryValues :=
  pageQuery options.toPageReadOptions ++ queryValue "from" options.start ++
    queryValue "to" options.stop

/-! ## Reads -/

section Reads

variable (session : ReadSession)

/-- The request of `#read`. -/
def read (operation : ReadOperationName) (pathValues : PathValues) (query : QueryValues)
    (options : ConditionalReadOptions) : Except Thrown BuiltRequest :=
  buildReadRequest (readOperationDescriptors operation) pathValues query session.protocolVersion
    options.ifNoneMatch options.signal

def historyRead (operation : ReadOperationName) (pathValues : PathValues)
    (options : HistoryPageOptions) (rangeLimit : RangeLimit) : Except Thrown BuiltRequest := do
  requireCapability session.toClientSession "query.history"
  let normalized ← normalizeHistoryOptions session options rangeLimit
  read session operation pathValues (historyQuery normalized) normalized.toConditionalReadOptions

/-- A read of one resource. -/
def singletonRead (operation : ReadOperationName) (capability : String) (parameter : String)
    (id : JsString) (options : ConditionalReadOptions) : Except Thrown BuiltRequest := do
  requireCapability session.toClientSession capability
  let validated ← validateId id
  let normalized ← normalizeConditionalOptions options
  read session operation [(js parameter, validated)] [] normalized

/-- A read of a history that one resource owns. -/
def ownedHistoryRead (operation : ReadOperationName) (parameter : String) (id : JsString)
    (options : HistoryPageOptions) (rangeLimit : RangeLimit) : Except Thrown BuiltRequest := do
  let validated ← validateId id
  historyRead session operation [(js parameter, validated)] options rangeLimit

def discoverHub (options : ConditionalReadOptions) : Except Thrown BuiltRequest := do
  let normalized ← normalizeConditionalOptions options
  read session .discoverHub [] [] normalized

def listVehicles (options : PageReadOptions) : Except Thrown BuiltRequest := do
  requireCapability session.toClientSession "query.vehicles"
  let normalized ← normalizePageOptions session options
  read session .listVehicles [] (pageQuery normalized) normalized.toConditionalReadOptions

def getVehicleCurrentState (vehicleId : JsString) (options : ConditionalReadOptions) :
    Except Thrown BuiltRequest :=
  singletonRead session .getVehicleCurrentState "query.vehicles" "vehicle_id" vehicleId options

def listVehicleDrives (vehicleId : JsString) (options : HistoryPageOptions) :
    Except Thrown BuiltRequest :=
  ownedHistoryRead session .listVehicleDrives "vehicle_id" vehicleId options .history

def getDrive (driveId : JsString) (options : ConditionalReadOptions) :
    Except Thrown BuiltRequest :=
  singletonRead session .getDrive "query.history" "drive_id" driveId options

def listDrivePositions (driveId : JsString) (options : HistoryPageOptions) :
    Except Thrown BuiltRequest :=
  ownedHistoryRead session .listDrivePositions "drive_id" driveId options .dense

def listVehicleCharges (vehicleId : JsString) (options : HistoryPageOptions) :
    Except Thrown BuiltRequest :=
  ownedHistoryRead session .listVehicleCharges "vehicle_id" vehicleId options .history

def getCharge (chargeId : JsString) (options : ConditionalReadOptions) :
    Except Thrown BuiltRequest :=
  singletonRead session .getCharge "query.history" "charge_id" chargeId options

def listChargeSamples (chargeId : JsString) (options : HistoryPageOptions) :
    Except Thrown BuiltRequest :=
  ownedHistoryRead session .listChargeSamples "charge_id" chargeId options .dense

def listVehicleStates (vehicleId : JsString) (options : HistoryPageOptions) :
    Except Thrown BuiltRequest :=
  ownedHistoryRead session .listVehicleStates "vehicle_id" vehicleId options .history

def listVehicleUpdates (vehicleId : JsString) (options : HistoryPageOptions) :
    Except Thrown BuiltRequest :=
  ownedHistoryRead session .listVehicleUpdates "vehicle_id" vehicleId options .history

def listDataQuality (options : DataQualityPageOptions) : Except Thrown BuiltRequest := do
  requireCapability session.toClientSession "data-quality"
  let normalized ← normalizeHistoryOptions session options.toHistoryPageOptions .history
  let vehicleId ← options.vehicleId.mapM validateId
  read session .listDataQuality [] (historyQuery normalized ++ queryValue "vehicle_id" vehicleId)
    normalized.toConditionalReadOptions

def listVehicleMetadata (vehicleId : JsString) (options : MetadataPageOptions) :
    Except Thrown BuiltRequest := do
  requireCapability session.toClientSession "metadata.mutable"
  let normalized ← normalizeMetadataPageOptions session options
  let validated ← validateId vehicleId
  read session .listVehicleMetadata [(js "vehicle_id", validated)]
    (pageQuery normalized.toPageReadOptions ++ queryValue "kind" normalized.kind)
    normalized.toConditionalReadOptions

def getMetadata (metadataId : JsString) (options : ConditionalReadOptions) :
    Except Thrown BuiltRequest :=
  singletonRead session .getMetadata "metadata.mutable" "metadata_id" metadataId options

def getCommand (commandId : JsString) (options : ConditionalReadOptions) :
    Except Thrown BuiltRequest :=
  singletonRead session .getCommand "commands.async" "command_id" commandId options

/-- The path of `streamEvents`. -/
def streamEvents (protocolVersion : SupportedProtocolVersion) (vehicleId : Option JsString)
    (eventTypes : Option (List JsString)) : Except Thrown JsString := do
  requireCapability session.toClientSession "events.sse"
  let vehicleId ← normalizeVehicleId vehicleId
  let eventTypes ← normalizeEventTypes eventTypes protocolVersion
  return eventPath vehicleId eventTypes

end Reads

end TeslatlasClient
