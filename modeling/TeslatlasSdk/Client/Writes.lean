import TeslatlasSdk.Commands.AdvertisedCommand
import TeslatlasSdk.Core.Checks
import TeslatlasSdk.Core.OpaqueValues
import TeslatlasSdk.Events.ProtocolSubscription
import TeslatlasSdk.Http.LosslessSnapshot
import TeslatlasSdk.Http.RequestBuilder

/-!
# Writes of the client

What `createMetadata`, `replaceMetadata` and `createCommand` check before they send, and the requests
that they build.  A heap is given twice: as it is when the body is captured, and as it is when the
request is built.
-/

open Text Core Json Http Events

namespace Client

/-- The commands of a session's descriptor, with the objects that hold their schemas, and the
compiler of schemas. -/
structure AdvertisedCommands where
  objects : Nat
  heap : Heap objects
  capabilities : List (Commands.Capability objects)
  compile : Commands.Compiler (Option Value)

/-- What the writes read of the session. -/
structure ClientSession where
  protocolVersion : JsString
  capabilities : List JsString
  maxRequestBodyBytes : Nat
  advertised : AdvertisedCommands

/-- A string under a key of a validated object. -/
def stringAt (value : Option Value) (key : String) : JsString :=
  match value.bind (·.child (js key)) with
  | some (.leaf (.string value)) => value
  | _ => []

/-- What `validateAdvertisedCommand` reads of a validated request. -/
def commandRequest (value : Value) : Commands.CommandRequest (Option Value) where
  command := stringAt (some value) "command"
  commandClass := stringAt (some value) "command_class"
  hasConfirmation := (value.child (js "confirmation")).isSome
  parameters := value.child (js "parameters")
  expectedState := value.child (js "expected_state")

/-- The check of a session's descriptor.  Schemas that have been compiled before do not change its
verdicts. -/
def ClientSession.validateAdvertisedCommand (session : ClientSession) (value : Value) :
    Except TeslatlasError Unit :=
  (Commands.validateAdvertisedCommand session.advertised.compile session.advertised.heap
    session.advertised.capabilities (commandRequest value) .empty).1

/-- The generated validators of bodies. -/
structure BodyValidators where
  validateMetadataCreate : ProtocolValidator
  validateMetadataReplace : ProtocolValidator
  validateCommandRequest : ProtocolValidator

/-- A signal, and the reason it has been aborted for by the time of the call. -/
structure CallSignal where
  identity : Nat
  aborted : AbortState
  deriving DecidableEq, Repr

def requireCapability (session : ClientSession) (capability : String) : Except Thrown Unit :=
  if session.capabilities.contains (js capability) then .ok ()
  else .error (.teslatlas .missingCapability)

def throwIfAlreadyAborted (signal : Option CallSignal) : Except Thrown Unit :=
  match signal.bind (·.aborted) with
  | some reason => .error reason
  | none => .ok ()

def validateId (value : JsString) : Except Thrown JsString :=
  if value.length < 3 || 128 < value.length || containsControlCharacters value then
    .error (.teslatlas .invalidReadOptions)
  else .ok value

variable {n : Nat}

/-- `snapshotJsonRequest` as the operations call it. -/
def captureBody (session : ClientSession) (heap : Heap n) (body : HeapValue n) :
    Except Thrown JsonRequestSnapshot :=
  (snapshotJsonRequest heap body (some session.maxRequestBodyBytes)).result.mapError .teslatlas

def snapshotCommandRequest (session : ClientSession) (heap : Heap n) (body : HeapValue n) :
    Except Thrown JsonRequestSnapshot :=
  match captureBody session heap body with
  | .error (.teslatlas .invalidRequestBody) =>
      .error (protocolValidationError "validateCommandRequest")
  | captured => captured

section Operations

variable (session : ClientSession) (validators : BodyValidators) (captured later : Heap n)

def createMetadata (vehicleId : JsString) (body : HeapValue n) (signal : Option CallSignal) :
    Except Thrown BuiltRequest := do
  requireCapability session "metadata.mutable"
  throwIfAlreadyAborted signal
  let validatedVehicleId ← validateId vehicleId
  let snapshot ← captureBody session captured body
  let value ← decodeProtocolValue snapshot.value [] validators.validateMetadataCreate
    "validateMetadataCreate"
  if !strictEquals (← property value (js "vehicle_id"))
      (some (.leaf (.string validatedVehicleId))) then
    throw (protocolValidationError "validateMetadataCreate.vehicle_id")
  buildWriteRequest later (writeOperationDescriptors .createMetadata)
    [(js "vehicle_id", validatedVehicleId)] session.protocolVersion
    { body := some (.snapshot snapshot), signal := signal.map (·.identity) }

def replaceMetadata (metadataId : JsString) (body : HeapValue n) (ifMatch : JsString)
    (signal : Option CallSignal) : Except Thrown BuiltRequest := do
  requireCapability session "metadata.mutable"
  let ifMatch ← (asStrongEntityTag ifMatch).mapError Thrown.teslatlas
  throwIfAlreadyAborted signal
  let snapshot ← captureBody session captured body
  let _ ← decodeProtocolValue snapshot.value [] validators.validateMetadataReplace
    "validateMetadataReplace"
  let validatedMetadataId ← validateId metadataId
  buildWriteRequest later (writeOperationDescriptors .replaceMetadata)
    [(js "metadata_id", validatedMetadataId)] session.protocolVersion
    { body := some (.snapshot snapshot), ifMatch := some ifMatch,
      signal := signal.map (·.identity) }

def deleteMetadata (metadataId ifMatch : JsString) (signal : Option CallSignal) :
    Except Thrown BuiltRequest := do
  requireCapability session "metadata.mutable"
  let ifMatch ← (asStrongEntityTag ifMatch).mapError Thrown.teslatlas
  throwIfAlreadyAborted signal
  let validatedMetadataId ← validateId metadataId
  buildWriteRequest later (writeOperationDescriptors .deleteMetadata)
    [(js "metadata_id", validatedMetadataId)] session.protocolVersion
    { ifMatch := some ifMatch, signal := signal.map (·.identity) }

def createCommand (body : HeapValue n) (idempotencyKey : JsString) (signal : Option CallSignal)
    (onDispatch : Nat) : Except Thrown BuiltRequest := do
  requireCapability session "commands.async"
  let idempotencyKey ← (asIdempotencyKey idempotencyKey).mapError Thrown.teslatlas
  throwIfAlreadyAborted signal
  let snapshot ← snapshotCommandRequest session captured body
  let value ← decodeProtocolValue snapshot.value [] validators.validateCommandRequest
    "validateCommandRequest"
  (session.validateAdvertisedCommand value).mapError Thrown.teslatlas
  buildWriteRequest later (writeOperationDescriptors .createCommand) [] session.protocolVersion
    { body := some (.snapshot snapshot), idempotencyKey := some idempotencyKey,
      signal := signal.map (·.identity), onDispatch := some onDispatch }

end Operations

/-! ## Snapshots -/

variable {heap captured later : Heap n} {value body : HeapValue n}

theorem snapshotJsonRequest_quiet (maximumBytes : Option Nat) :
    (snapshotJsonRequest heap value maximumBytes).Quiet := by
  have hquiet : (copyJsonValue heap value ∅).Quiet :=
    quiet_copyJsonValue heap value ∅
  rw [snapshotJsonRequest]
  split
  · exact hquiet
  · split
    · exact hquiet
    · exact hquiet

theorem snapshotJsonRequest_of_not_lossless (h : ¬ Lossless heap value)
    (maximumBytes : Option Nat) :
    (snapshotJsonRequest heap value maximumBytes).result = .error .invalidRequestBody := by
  cases hcopy : (copyJsonValue heap value ∅).result with
  | error e => simp only [snapshotJsonRequest, hcopy]
  | ok snapshot => exact absurd (clean_empty_iff.mp (copyJsonValue_ok value ∅ snapshot hcopy).1) h

theorem snapshotJsonRequest_of_lossless (h : Lossless heap value) :
    ∃ snapshot : JsonRequestSnapshot, Represents heap value snapshot.value ∧
      jsonParse snapshot.body = some (snapshot.value.map unsignedScalar) ∧
      ∀ maximumBytes, (snapshotJsonRequest heap value maximumBytes).result =
        if maximumBytes.any fun maximum => maximum < (utf8Encode snapshot.body).length then
          .error (.protocolValidation "request.body.size")
        else .ok snapshot := by
  obtain ⟨snapshot, hcopy⟩ := copyJsonValue_of_clean (clean_empty_iff.mpr h)
  obtain ⟨-, hrepresents, hwritten⟩ := copyJsonValue_ok value ∅ snapshot hcopy
  refine ⟨snapshot, hrepresents, hwritten.jsonParse, fun maximumBytes => ?_⟩
  simp only [snapshotJsonRequest, hcopy]
  split
  · rfl
  · exact hcopy

/-! ## What is sent -/

/-- The request's body is the text of the value that was validated, which is a copy of the heap's
value. -/
def SendsValidated (heap : Heap n) (value : HeapValue n) (validator : ProtocolValidator)
    (maximum : Nat) (request : BuiltRequest) : Prop :=
  ∃ snapshot : JsonRequestSnapshot, Represents heap value snapshot.value ∧
    validator snapshot.value [] = true ∧ request.init.body = some snapshot.body ∧
    jsonParse snapshot.body = some (snapshot.value.map unsignedScalar) ∧
    (utf8Encode snapshot.body).length ≤ maximum

theorem captureBody_ok {session : ClientSession} {snapshot : JsonRequestSnapshot}
    (h : captureBody session heap value = .ok snapshot) :
    Represents heap value snapshot.value ∧
      jsonParse snapshot.body = some (snapshot.value.map unsignedScalar) ∧
      (utf8Encode snapshot.body).length ≤ session.maxRequestBodyBytes := by
  rw [captureBody] at h
  by_cases hlossless : Lossless heap value
  · obtain ⟨copied, hrepresents, hparse, hresult⟩ := snapshotJsonRequest_of_lossless hlossless
    rw [hresult] at h
    split at h
    · cases h
    · next hsize =>
      obtain rfl := Except.ok.inj h
      exact ⟨hrepresents, hparse, by simpa using hsize⟩
  · rw [snapshotJsonRequest_of_not_lossless hlossless] at h
    cases h

theorem snapshotCommandRequest_ok {session : ClientSession} {snapshot : JsonRequestSnapshot}
    (h : snapshotCommandRequest session heap value = .ok snapshot) :
    captureBody session heap value = .ok snapshot := by
  rw [snapshotCommandRequest] at h
  split at h
  · cases h
  · exact h

theorem decodeProtocolValue_ok {input output : Value} {lexemes : NumericLexemes}
    {validator : ProtocolValidator} {name : String}
    (h : decodeProtocolValue input lexemes validator name = .ok output) :
    validator input lexemes = true ∧ output = input := by
  rw [decodeProtocolValue] at h
  split at h
  · cases h
  split at h
  · cases h
  · next hvalid => exact ⟨by simpa using hvalid, (Except.ok.inj h).symm⟩

-- A body that is a snapshot is not looked up again.
theorem buildWriteRequest_body {operation : WriteOperationDescriptor} {pathValues : PathValues}
    {protocolVersion : JsString} {options : WriteRequestOptions n} {snapshot : JsonRequestSnapshot}
    {request : BuiltRequest} (hbody : options.body = some (.snapshot snapshot))
    (h : buildWriteRequest later operation pathValues protocolVersion options = .ok request) :
    request.init.body = some snapshot.body := by
  rw [buildWriteRequest, bind_eq_ok] at h
  obtain ⟨path, -, h⟩ := h
  rw [bind_eq_ok] at h
  obtain ⟨ifMatch, -, h⟩ := h
  rw [bind_eq_ok] at h
  obtain ⟨idempotencyKey, -, h⟩ := h
  rw [bind_eq_ok] at h
  obtain ⟨sent, hsent, h⟩ := h
  rw [hbody, writeBody] at hsent
  obtain rfl := Except.ok.inj h
  by_cases hjson : operation.hasJsonBody = true
  · rw [if_pos hjson] at hsent
    exact (Except.ok.inj hsent).symm
  · rw [if_neg hjson] at hsent
    cases hsent

section Sent

variable {session : ClientSession} {validators : BodyValidators} {request : BuiltRequest}

theorem createMetadata_sends {vehicleId : JsString} {signal : Option CallSignal}
    (h : createMetadata session validators captured later vehicleId body signal = .ok request) :
    SendsValidated captured body validators.validateMetadataCreate session.maxRequestBodyBytes
      request := by
  simp only [createMetadata, bind_eq_ok] at h
  obtain ⟨-, -, -, -, id, -, snapshot, hsnapshot, value, hvalue, vehicle, -, h⟩ := h
  obtain ⟨hrepresents, hparse, hsize⟩ := captureBody_ok hsnapshot
  obtain ⟨hvalid, rfl⟩ := decodeProtocolValue_ok hvalue
  split at h
  · cases h
  · exact ⟨snapshot, hrepresents, hvalid, buildWriteRequest_body rfl h, hparse, hsize⟩

theorem replaceMetadata_sends {metadataId ifMatch : JsString} {signal : Option CallSignal}
    (h : replaceMetadata session validators captured later metadataId body ifMatch signal =
      .ok request) :
    SendsValidated captured body validators.validateMetadataReplace session.maxRequestBodyBytes
      request := by
  simp only [replaceMetadata, bind_eq_ok] at h
  obtain ⟨-, -, tag, -, -, -, snapshot, hsnapshot, value, hvalue, id, -, h⟩ := h
  obtain ⟨hrepresents, hparse, hsize⟩ := captureBody_ok hsnapshot
  obtain ⟨hvalid, -⟩ := decodeProtocolValue_ok hvalue
  exact ⟨snapshot, hrepresents, hvalid, buildWriteRequest_body rfl h, hparse, hsize⟩

theorem createCommand_sends {idempotencyKey : JsString} {signal : Option CallSignal}
    {onDispatch : Nat}
    (h : createCommand session validators captured later body idempotencyKey signal onDispatch =
      .ok request) :
    SendsValidated captured body validators.validateCommandRequest session.maxRequestBodyBytes
      request := by
  simp only [createCommand, bind_eq_ok] at h
  obtain ⟨-, -, key, -, -, -, snapshot, hsnapshot, value, hvalue, -, -, h⟩ := h
  obtain ⟨hrepresents, hparse, hsize⟩ := captureBody_ok (snapshotCommandRequest_ok hsnapshot)
  obtain ⟨hvalid, -⟩ := decodeProtocolValue_ok hvalue
  exact ⟨snapshot, hrepresents, hvalid, buildWriteRequest_body rfl h, hparse, hsize⟩

end Sent

-- A snapshot runs nothing of the caller's, is taken of lossless values only and of all of them that
-- fit, and is what the operations send, whatever has become of the caller's objects.
theorem snapshots_lossless (captured : Heap n) (body : HeapValue n) :
    (∀ maximumBytes, (snapshotJsonRequest captured body maximumBytes).Quiet) ∧
    (¬ Lossless captured body → ∀ maximumBytes,
      (snapshotJsonRequest captured body maximumBytes).result = .error .invalidRequestBody) ∧
    (Lossless captured body →
      ∃ snapshot : JsonRequestSnapshot, Represents captured body snapshot.value ∧
        jsonParse snapshot.body = some (snapshot.value.map unsignedScalar) ∧
        ∀ maximumBytes, (snapshotJsonRequest captured body maximumBytes).result =
          if maximumBytes.any fun maximum => maximum < (utf8Encode snapshot.body).length then
            .error (.protocolValidation "request.body.size")
          else .ok snapshot) ∧
    ∀ (session : ClientSession) (validators : BodyValidators) (later : Heap n)
      (signal : Option CallSignal) (request : BuiltRequest),
      (∀ vehicleId,
        createMetadata session validators captured later vehicleId body signal = .ok request →
        SendsValidated captured body validators.validateMetadataCreate
          session.maxRequestBodyBytes request) ∧
      (∀ metadataId ifMatch,
        replaceMetadata session validators captured later metadataId body ifMatch signal =
          .ok request →
        SendsValidated captured body validators.validateMetadataReplace
          session.maxRequestBodyBytes request) ∧
      ∀ idempotencyKey onDispatch,
        createCommand session validators captured later body idempotencyKey signal onDispatch =
          .ok request →
        SendsValidated captured body validators.validateCommandRequest
          session.maxRequestBodyBytes request := by
  refine ⟨snapshotJsonRequest_quiet, snapshotJsonRequest_of_not_lossless,
    snapshotJsonRequest_of_lossless, ?_⟩
  intro session validators later signal request
  exact ⟨fun vehicleId => createMetadata_sends, fun metadataId ifMatch => replaceMetadata_sends,
    fun idempotencyKey onDispatch => createCommand_sends⟩

end Client
