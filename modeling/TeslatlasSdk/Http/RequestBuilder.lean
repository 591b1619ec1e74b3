import TeslatlasSdk.Http.Headers
import TeslatlasSdk.Http.JsonRequestSnapshot
import TeslatlasSdk.Text.FormUrlencoded

/-!
# Building requests

Paths come from templates, queries from the names that an operation declares, and the body of a
write is a snapshot's text.
-/

open Text Core Json

namespace Http

/-! ## Operations -/

structure ReadOperationDescriptor where
  pathTemplate : JsString
  queryNames : List JsString
  versioned : Bool
  deriving DecidableEq, Repr

structure WriteOperationDescriptor where
  pathTemplate : JsString
  method : JsString
  hasJsonBody : Bool
  deriving DecidableEq, Repr

inductive ReadOperationName where
  | discoverHub
  | listVehicles
  | getVehicleCurrentState
  | listVehicleDrives
  | getDrive
  | listDrivePositions
  | listVehicleCharges
  | getCharge
  | listChargeSamples
  | listVehicleStates
  | listVehicleUpdates
  | listDataQuality
  | listVehicleMetadata
  | getMetadata
  | getCommand
  deriving DecidableEq, Repr

inductive WriteOperationName where
  | createMetadata
  | replaceMetadata
  | deleteMetadata
  | createCommand
  deriving DecidableEq, Repr

def descriptor (pathTemplate : String) (queryNames : List String) (versioned : Bool) :
    ReadOperationDescriptor :=
  { pathTemplate := js pathTemplate, queryNames := queryNames.map js, versioned }

def writeDescriptor (pathTemplate method : String) (hasJsonBody : Bool) :
    WriteOperationDescriptor :=
  { pathTemplate := js pathTemplate, method := js method, hasJsonBody }

def readOperationDescriptors : ReadOperationName → ReadOperationDescriptor
  | .discoverHub => descriptor "/.well-known/teslatlas-hub" [] false
  | .listVehicles => descriptor "/v1/vehicles" ["cursor", "limit"] true
  | .getVehicleCurrentState => descriptor "/v1/vehicles/\x7bvehicle_id\x7d/current" [] true
  | .listVehicleDrives =>
      descriptor "/v1/vehicles/\x7bvehicle_id\x7d/drives" ["cursor", "limit", "from", "to"] true
  | .getDrive => descriptor "/v1/drives/\x7bdrive_id\x7d" [] true
  | .listDrivePositions =>
      descriptor "/v1/drives/\x7bdrive_id\x7d/positions" ["cursor", "limit", "from", "to"] true
  | .listVehicleCharges =>
      descriptor "/v1/vehicles/\x7bvehicle_id\x7d/charges" ["cursor", "limit", "from", "to"] true
  | .getCharge => descriptor "/v1/charges/\x7bcharge_id\x7d" [] true
  | .listChargeSamples =>
      descriptor "/v1/charges/\x7bcharge_id\x7d/samples" ["cursor", "limit", "from", "to"] true
  | .listVehicleStates =>
      descriptor "/v1/vehicles/\x7bvehicle_id\x7d/states" ["cursor", "limit", "from", "to"] true
  | .listVehicleUpdates =>
      descriptor "/v1/vehicles/\x7bvehicle_id\x7d/updates" ["cursor", "limit", "from", "to"] true
  | .listDataQuality =>
      descriptor "/v1/data-quality" ["cursor", "limit", "from", "to", "vehicle_id"] true
  | .listVehicleMetadata =>
      descriptor "/v1/vehicles/\x7bvehicle_id\x7d/metadata" ["cursor", "limit", "kind"] true
  | .getMetadata => descriptor "/v1/metadata/\x7bmetadata_id\x7d" [] true
  | .getCommand => descriptor "/v1/commands/\x7bcommand_id\x7d" [] true

def writeOperationDescriptors : WriteOperationName → WriteOperationDescriptor
  | .createMetadata => writeDescriptor "/v1/vehicles/\x7bvehicle_id\x7d/metadata" "POST" true
  | .replaceMetadata => writeDescriptor "/v1/metadata/\x7bmetadata_id\x7d" "PUT" true
  | .deleteMetadata => writeDescriptor "/v1/metadata/\x7bmetadata_id\x7d" "DELETE" false
  | .createCommand => writeDescriptor "/v1/commands" "POST" true

/-! ## Paths -/

/-- The `URIError` of `encodeURIComponent`. -/
def uriError : Thrown := .other 2

abbrev PathValues := List (JsString × JsString)

/-- The name between an opening brace, which has been read, and the next closing brace; and what
follows it. -/
def parameterName (s : JsString) : Option (JsString × JsString) :=
  if s.takeWhile (· != 0x7D) = [] then none
  else
    match s.dropWhile (· != 0x7D) with
    | [] => none
    | _ :: rest => some (s.takeWhile (· != 0x7D), rest)

theorem parameterName_length {s name rest : JsString} (h : parameterName s = some (name, rest)) :
    rest.length < s.length := by
  have hle := (List.dropWhile_sublist (l := s) (· != 0x7D)).length_le
  unfold parameterName at h
  split at h
  · cases h
  split at h
  · cases h
  · next brace later hdrop =>
    simp only [Option.some.injEq, Prod.mk.injEq] at h
    rw [hdrop, List.length_cons] at hle
    rw [← h.2]
    omega

theorem parameterRest_length {u : CodeUnit} {s name rest : JsString}
    (h : (if u = 0x7B then parameterName s else none) = some (name, rest)) :
    rest.length < (u :: s).length := by
  split at h
  · have hlt := parameterName_length h
    rw [List.length_cons]
    omega
  · cases h

/-- `template.replace(...)`, and the names that have been used. -/
def fillTemplate (values : PathValues) (template : JsString) :
    Except Thrown (JsString × List JsString) :=
  match template with
  | [] => .ok ([], [])
  | u :: s =>
      match h : if u = 0x7B then parameterName s else none with
      | none => do
          let (path, used) ← fillTemplate values s
          return (u :: path, used)
      | some (name, rest) =>
          have : rest.length < (u :: s).length := parameterRest_length h
          match values.lookup name with
          | none => .error (.teslatlas .invalidRequestPath)
          | some value =>
              match encodeURIComponent value with
              | none => .error uriError
              | some encoded => do
                  let (path, used) ← fillTemplate values rest
                  return (encoded ++ path, name :: used)
termination_by template.length
decreasing_by
  all_goals
    simp only [List.length_cons] at *
    omega

/-- `path.startsWith("/") && !path.startsWith("//")`. -/
def isRootRelative : JsString → Bool
  | 0x2F :: 0x2F :: _ => false
  | 0x2F :: _ => true
  | _ => false

def interpolatePath (template : JsString) (values : PathValues) : Except Thrown JsString := do
  let (path, used) ← fillTemplate values template
  if !isRootRelative path || values.any (fun value => !used.contains value.1) then
    .error (.teslatlas .invalidRequestPath)
  else return path

/-! ## Requests -/

/-- `ProtocolRequestInit`; a signal and a callback have an identity and nothing else. -/
structure ProtocolRequestInit where
  method : Option JsString := none
  headers : List (JsString × JsString)
  redirect : JsString := js "error"
  body : Option JsString := none
  ifNoneMatch : Option JsString := none
  signal : Option Nat := none
  onDispatch : Option Nat := none
  deriving DecidableEq, Repr

structure BuiltRequest where
  path : JsString
  init : ProtocolRequestInit
  deriving DecidableEq, Repr

/-- `QueryValue` but for `undefined`; a number by its text. -/
inductive QueryValue where
  | text (value : JsString)
  | list (values : List JsString)
  deriving DecidableEq, Repr

/-- The pairs that a query appends under the declared names. -/
def queryPairs (queryValues : List (JsString × QueryValue)) :
    List JsString → List (JsString × JsString)
  | [] => []
  | name :: names =>
      match queryValues.lookup name with
      | none => queryPairs queryValues names
      | some (.list items) => items.map (name, ·) ++ queryPairs queryValues names
      | some (.text value) => (name, value) :: queryPairs queryValues names

def buildReadRequest (operation : ReadOperationDescriptor) (pathValues : PathValues)
    (queryValues : List (JsString × QueryValue)) (protocolVersion : JsString)
    (ifNoneMatch : Option JsString) (signal : Option Nat) : Except Thrown BuiltRequest := do
  let path ← interpolatePath operation.pathTemplate pathValues
  let encodedQuery := formSerialize (queryPairs queryValues operation.queryNames)
  return {
    path := if encodedQuery.isEmpty then path else path ++ 0x3F :: encodedQuery
    init := {
      headers :=
        if operation.versioned then [(js "Teslatlas-Protocol-Version", protocolVersion)] else []
      ifNoneMatch
      signal } }

/-- A body is a snapshot that this module has made, or any other value. -/
inductive RequestBody (n : Nat) where
  | snapshot (copy : JsonRequestSnapshot)
  | value (body : HeapValue n)

structure WriteRequestOptions (n : Nat) where
  body : Option (RequestBody n) := none
  ifMatch : Option JsString := none
  idempotencyKey : Option JsString := none
  signal : Option Nat := none
  onDispatch : Option Nat := none

/-- The text of a body, in the heap that there is when the request is built. -/
def RequestBody.text {n : Nat} (heap : Heap n) : RequestBody n → Except TeslatlasError JsString
  | .snapshot copy => .ok copy.body
  | .value body => (snapshotJsonRequest heap body none).result.map (·.body)

def writeBody {n : Nat} (heap : Heap n) (operation : WriteOperationDescriptor) :
    Option (RequestBody n) → Except TeslatlasError (Option JsString)
  | none => if operation.hasJsonBody then .error .invalidRequestBody else .ok none
  | some body =>
      if operation.hasJsonBody then (body.text heap).map some else .error .invalidRequestBody

def buildWriteRequest {n : Nat} (heap : Heap n) (operation : WriteOperationDescriptor)
    (pathValues : PathValues) (protocolVersion : JsString) (options : WriteRequestOptions n) :
    Except Thrown BuiltRequest := do
  let path ← interpolatePath operation.pathTemplate pathValues
  let ifMatch ← options.ifMatch.mapM headerValue
  let idempotencyKey ← options.idempotencyKey.mapM headerValue
  let body ← (writeBody heap operation options.body).mapError Thrown.teslatlas
  return {
    path
    init := {
      method := some operation.method
      headers :=
        [(js "Teslatlas-Protocol-Version", protocolVersion)] ++
          ifMatch.toList.map (js "If-Match", ·) ++
          idempotencyKey.toList.map (js "Idempotency-Key", ·) ++
          if operation.hasJsonBody then [(js "Content-Type", js "application/json")] else []
      body
      signal := options.signal
      onDispatch := options.onDispatch } }

end Http
