import TeslatlasSdk.Client.Identity
import TeslatlasSdk.Http.FetchTransport
import TeslatlasSdk.Http.RequestTarget
import TeslatlasSdk.Protocol.Negotiation

/-!
# The operations of the client

A client's calls run in threads.  Each sends a request, is given a response and settles with a
result or an error; the signals of its callers are aborted at any time.
-/

open Text Core Json Http Events Client Protocol

namespace TeslatlasClient

/-! ## Sessions -/

structure RichSession extends ReadSession where
  descriptor : ProtocolDescriptor
  version : SupportedProtocolVersion
  protocolVersion_eq : protocolVersion = version.text

/-- The generated validators of responses. -/
structure ResponseValidators where
  validateDiscovery : ProtocolValidator
  validateCommandJob : ProtocolValidator
  validateMetadataRecord : ProtocolValidator
  validateMetadataTombstone : ProtocolValidator
  /-- Those of the other reads. -/
  read : ReadOperationName → ProtocolValidator

structure ClientConfig where
  session : RichSession
  decoder : DecoderHost
  validators : ResponseValidators
  bodyValidators : BodyValidators
  /-- The caller gives an authorization provider. -/
  isAuthorized : Bool
  apiUrl : Url
  discoveryUrl : Url
  authorityUrl : JsString → Option Url
  /-- Whether every endpoint of a descriptor passes `isSecureEndpointUrl`. -/
  areEndpointsSecure : Value → Bool

/-- `#acceptedResponseVersions`. -/
def RichSession.acceptedResponseVersions (session : RichSession) : List JsString :=
  (Protocol.acceptedResponseVersions session.descriptor session.version).map
    SupportedProtocolVersion.text

/-! ## Calls -/

/-- Writes of metadata, with bodies in the caller's heap. -/
inductive MetadataWrite (n : Nat) where
  | createMetadata (vehicleId : JsString) (body : HeapValue n)
  | replaceMetadata (metadataId : JsString) (body : HeapValue n) (ifMatch : JsString)
  | deleteMetadata (metadataId : JsString) (ifMatch : JsString)

inductive ClientCall where
  /-- `createClientSession`; the base URL is none where it is not that of a secure endpoint. -/
  | connect (baseUrl : Option Url) (requestedVersion : Option JsString) (signal : Option Nat)
  | read (call : ReadCall)
  | write {n : Nat} (heap : Heap n) (write : MetadataWrite n) (signal : Option Nat)
  | createCommand {n : Nat} (heap : Heap n) (body : HeapValue n) (idempotencyKey : JsString)
      (signal : Option Nat)
  /-- A caller aborts its signal. -/
  | abort (caller : Nat) (reason : Thrown)
  /-- What `cancel()` of streams does from now on. -/
  | setCancellation (cancellation : Cancellation)

inductive ClientResult where
  | session (descriptor : Value) (protocolVersion : SupportedProtocolVersion)
  | read (result : ReadResult)
  | written (result : WriteResult)
  | done

/-! ## State -/

/-- What a thread has sent and been given. -/
structure Exchange where
  request : Option BuiltRequest := none
  response : Option Response := none
  body : BodyView := {}
  /-- The value of a response that has been decoded. -/
  decoded : Option Value := none

structure ClientState where
  callers : Nat → AbortState := fun _ => none
  cancellation : Cancellation := {}
  exchanges : Nat → Exchange := fun _ => {}

inductive ClientAction where
  | dispatched (url : Url) (request : BuiltRequest) (authorization : Option JsString)
  | responded (response : Response)
  | body (event : BodyEvent)
  | decoded (value : Value)
  | settled (call : ClientCall) (result : Except Thrown ClientResult)
  | aborted (caller : Nat) (reason : Thrown)
  | cancellationSet (cancellation : Cancellation)

/-- An action and the thread that performs it. -/
structure ClientEvent where
  thread : Nat
  action : ClientAction

namespace ClientState

def update (s : ClientState) (thread : Nat) (change : Exchange → Exchange) : ClientState :=
  { s with exchanges := fun i => if i = thread then change (s.exchanges i) else s.exchanges i }

def record (s : ClientState) (event : ClientEvent) : ClientState :=
  match event.action with
  | .dispatched _ request _ => s.update event.thread ({ · with request := some request })
  | .responded response => s.update event.thread ({ · with response := some response })
  | .body change =>
      s.update event.thread fun exchange => { exchange with body := exchange.body.record change }
  | .decoded value => s.update event.thread ({ · with decoded := some value })
  | .settled _ _ => s
  | .aborted caller reason =>
      { s with callers := fun c =>
          if c = caller then (s.callers c).or (some reason) else s.callers c }
  | .cancellationSet cancellation => { s with cancellation }

/-- The state of a signal. -/
def signal (identity : Option Nat) (s : ClientState) : AbortState := identity.bind s.callers

end ClientState

/-! ## Threads -/

abbrev ClientAsync (β : Type) : Type := HttpAsync ClientState ClientEvent Empty β

def act (i : Nat) (action : ClientAction) : ClientAsync Unit := Async.perform ⟨i, action⟩

/-- The body of a thread's response. -/
def exchangeHost (i : Nat) : BodyHost ClientState ClientEvent where
  event event := ⟨i, .body event⟩
  view s := (s.exchanges i).body
  cancellation s := s.cancellation

section Operations

variable (config : ClientConfig) (i : Nat) (signal : Option Nat)

/-- What the caller's provider answers, or the abort that wins the race against it. -/
def authorization : ClientAsync (Option JsString) := do
  match ← Async.await .authorization with
  | .authorization result => Async.ofExcept result
  | _ => throw (abortReason (((← Async.get).signal signal).getD .undefined))

/-- `FetchTransport.request`, whose response is the thread's; the condition of the request is set
before the authorization is. -/
def send (base : Url) (isAuthorized : Bool) (request : BuiltRequest) : ClientAsync Response := do
  let url ← Async.ofExcept (resolveRequestUrl config.authorityUrl base request.path)
  let _ ← Async.ofExcept (request.init.ifNoneMatch.mapM headerValue)
  let response ← Http.request (ClientState.signal signal)
    (if isAuthorized then some (authorization signal) else none) (pure ())
    fun value => act i (.dispatched url request value)
  act i (.responded response)
  return response

/-- `throwIfAlreadyAborted`. -/
def throwIfAlreadyAborted : ClientAsync Unit := do
  match (← Async.get).signal signal with
  | some reason => throw reason
  | none => return ()

/-! ## `createClientSession` -/

/-- The `protocol` of a validated descriptor. -/
def protocolDescriptor (descriptor : Value) : ProtocolDescriptor :=
  let found := descriptor.child (js "protocol")
  { currentVersion := stringAt found "current_version"
    minimumClientVersion := stringAt found "minimum_client_version"
    supportedVersions :=
      match found.bind (·.child (js "supported_versions")) with
      | some (.array versions) =>
          versions.filterMap fun
            | .leaf (.string version) => some version
            | _ => none
      | _ => [] }

def discoveryRequest : BuiltRequest where
  path := js "/.well-known/teslatlas-hub"
  init := { headers := [], signal }

def currentProtocolVersion : JsString := js "1.2.0"

def createClientSession (baseUrl : Option Url) (requestedVersion : Option JsString) :
    ClientAsync ClientResult := do
  match baseUrl with
  | none => throw (.teslatlas .invalidBaseUrl)
  | some base =>
      let response ← awaited (send config i signal base false (discoveryRequest signal))
      let descriptor ← awaited (withResponseOwnership (exchangeHost i) response do
        Async.ofExcept (rejectIf (response.status ≠ 200)
          (protocolValidationError "Discovery.status"))
        Async.ofExcept (requireMediaType response (js "application/json") "validateDiscovery")
        Async.ofExcept (rejectIf (!response.entityTag.any isEntityTag)
          (protocolValidationError "Discovery.etag"))
        decodeBody (exchangeHost i) (ClientState.signal signal) response
          config.validators.validateDiscovery "validateDiscovery")
      Async.ofExcept (rejectIf (!config.areEndpointsSecure descriptor)
        (protocolValidationError "Discovery.endpoints"))
      let version ← Async.ofExcept ((negotiateProtocolVersion (protocolDescriptor descriptor)
        (requestedVersion.getD currentProtocolVersion)).mapError Thrown.teslatlas)
      return .session descriptor version

/-! ## Reads -/

def validateMetadataEntity (validators : ResponseValidators) : ProtocolValidator :=
  fun value lexemes => validators.validateMetadataRecord value lexemes ||
    validators.validateMetadataTombstone value lexemes

def readValidator (validators : ResponseValidators) : ReadOperationName → ProtocolValidator
  | .discoverHub => validators.validateDiscovery
  | .getMetadata => validateMetadataEntity validators
  | .getCommand => validators.validateCommandJob
  | operation => validators.read operation

def readValidatorName : ReadOperationName → String
  | .discoverHub => "validateDiscovery"
  | .listVehicles => "validateVehiclePage"
  | .getVehicleCurrentState => "validateCurrentState"
  | .listVehicleDrives => "validateDrivePage"
  | .getDrive => "validateDrive"
  | .listDrivePositions => "validatePositionPage"
  | .listVehicleCharges => "validateChargePage"
  | .getCharge => "validateCharge"
  | .listChargeSamples => "validateChargeSamplePage"
  | .listVehicleStates => "validateStatePage"
  | .listVehicleUpdates => "validateUpdatePage"
  | .listDataQuality => "validateDataQualityPage"
  | .listVehicleMetadata => "validateMetadataPage"
  | .getMetadata => "validateMetadataEntity"
  | .getCommand => "validateCommandJob"

/-- The options that a read has in common with every other. -/
def ReadCall.conditional (call : ReadCall) : ConditionalReadOptions :=
  call.options.toConditionalReadOptions

/-- What `#read` asks of a response. -/
def readRequirements (session : RichSession) (call : ReadCall) : ReadResponseRequirements where
  requireStrongEntityTag := call.operation = .getMetadata
  acceptedProtocolVersions :=
    if call.descriptor.versioned then some session.acceptedResponseVersions else none
  ifNoneMatch := call.conditional.ifNoneMatch

/-- `#read`. -/
def runRead (call : ReadCall) : ClientAsync ClientResult := do
  let signal := call.conditional.signal
  let name := readValidatorName call.operation
  let request ← Async.ofExcept (call.request config.session.toReadSession)
  let isDiscovery := call.operation = .discoverHub
  let response ← awaited (send config i signal
    (if isDiscovery then config.discoveryUrl else config.apiUrl)
    (config.isAuthorized && !isDiscovery) request)
  let result ← awaited (decodeReadResponse (exchangeHost i) (ClientState.signal signal)
    config.decoder response (readValidator config.validators call.operation) name
    (readRequirements config.session call))
  match result with
  | .notModified metadata =>
      throwIfAlreadyAborted signal
      return .read (.notModified metadata)
  | .modified decoded =>
      act i (.decoded decoded.value)
      Async.ofExcept
        (validateReadIdentity call.operation decoded.value call.pathValues call.query name)
      throwIfAlreadyAborted signal
      return .read (.modified decoded)

/-! ## Writes -/

namespace MetadataWrite

variable {n : Nat} (heap : Heap n) (call : MetadataWrite n)

/-- The request of a write, whose signal may be aborted already. -/
def request (signal : Option CallSignal) : Except Thrown BuiltRequest :=
  let session := config.session.toClientSession
  match call with
  | .createMetadata vehicleId body =>
      Client.createMetadata session config.bodyValidators heap heap vehicleId body signal
  | .replaceMetadata metadataId body ifMatch =>
      Client.replaceMetadata session config.bodyValidators heap heap metadataId body ifMatch signal
  | .deleteMetadata metadataId ifMatch =>
      Client.deleteMetadata session heap metadataId ifMatch signal

def validator : ProtocolValidator :=
  match call with
  | .deleteMetadata _ _ => config.validators.validateMetadataTombstone
  | _ => config.validators.validateMetadataRecord

def validatorName : String :=
  match call with
  | .deleteMetadata _ _ => "validateMetadataTombstone"
  | _ => "validateMetadataRecord"

/-- What `#write` asks of a response. -/
def requirements : WriteResponseRequirements where
  requireStrongEntityTag := true
  requireLocation := call matches .createMetadata _ _
  successStatus := if call matches .createMetadata _ _ then 201 else 200
  acceptedProtocolVersions := some config.session.acceptedResponseVersions

/-- The end of `#write`. -/
def validateIdentity (result : WriteResult) : Except Thrown Unit :=
  match call with
  | .createMetadata vehicleId _ =>
      validateCreatedIdentity result vehicleId call.validatorName
  | .replaceMetadata metadataId _ _ =>
      requireIdentity result.value "metadata_id" (some (text metadataId)) call.validatorName
  | .deleteMetadata metadataId _ =>
      requireIdentity result.value "metadata_id" (some (text metadataId)) call.validatorName

end MetadataWrite

/-- A signal as an operation is given it. -/
def callSignal (s : ClientState) : Option CallSignal :=
  signal.map fun identity => ⟨identity, s.callers identity⟩

/-- `#write`. -/
def runWrite {n : Nat} (heap : Heap n) (call : MetadataWrite n) : ClientAsync ClientResult := do
  let s ← Async.get
  let request ← Async.ofExcept (call.request config heap (callSignal signal s))
  let response ← awaited (send config i signal config.apiUrl config.isAuthorized request)
  let result ← awaited (decodeWriteResponse (exchangeHost i) (ClientState.signal signal)
    config.decoder response (call.validator config) call.validatorName (call.requirements config))
  act i (.decoded result.value)
  Async.ofExcept (call.validateIdentity result)
  throwIfAlreadyAborted signal
  return .written result

def commandRequirements : WriteResponseRequirements where
  requireEntityTag := true
  requireLocation := true
  successStatus := 202
  acceptedProtocolVersions := some config.session.acceptedResponseVersions

/-- The part of `#writeCommand` behind the response. -/
def decodeCommand (response : Response) (expectedCommand : Value) : ClientAsync ClientResult := do
  let result ← awaited (decodeWriteResponse (exchangeHost i) (ClientState.signal signal)
    config.decoder response config.validators.validateCommandJob "validateCommandJob"
    (commandRequirements config))
  act i (.decoded result.value)
  Async.ofExcept (validateCommandIdentity result expectedCommand "validateCommandJob")
  throwIfAlreadyAborted signal
  return .written result

/-- `error instanceof ProtocolHttpError`. -/
def isProtocolHttpError : Thrown → Bool
  | .teslatlas (.protocolHttp _) => true
  | _ => false

def uncertain : Thrown := .teslatlas .commandUncertain

/-- `createCommand` with `#writeCommand`; the request is marked as dispatched by the callback that
fetch is preceded by. -/
def runCommand {n : Nat} (heap : Heap n) (body : HeapValue n) (idempotencyKey : JsString) :
    ClientAsync ClientResult := do
  let s ← Async.get
  let session := config.session.toClientSession
  let request ← Async.ofExcept (Client.createCommand session config.bodyValidators heap heap body
    idempotencyKey (callSignal signal s) i)
  let snapshot ← Async.ofExcept (snapshotCommandRequest session heap body)
  let sent ← Async.attempt
    (awaited (send config i signal config.apiUrl config.isAuthorized request))
  match sent with
  | .error error => do
      if ((← Async.get).exchanges i).request.isSome then throw uncertain else throw error
  | .ok response =>
      let result ← (decodeCommand config i signal response snapshot.value).attempt
      match result with
      | .ok result => return result
      | .error error =>
          if isProtocolHttpError error then throw error else throw uncertain

end Operations

/-! ## The system -/

/-- What a call does. -/
def ClientConfig.operation (config : ClientConfig) (i : Nat) : ClientCall → ClientAsync ClientResult
  | .connect baseUrl requestedVersion signal =>
      createClientSession config i signal baseUrl requestedVersion
  | .read call => runRead config i call
  | .write heap call signal => runWrite config i signal heap call
  | .createCommand heap body idempotencyKey signal =>
      runCommand config i signal heap body idempotencyKey
  | .abort caller reason => do
      act i (.aborted caller reason)
      return .done
  | .setCancellation cancellation => do
      act i (.cancellationSet cancellation)
      return .done

/-- The thread of a call. -/
def ClientConfig.thread (config : ClientConfig) (call : ClientCall) (i : Nat) :
    Program ClientState ClientEvent Awaited (Answer Empty) :=
  Async.toProgram do
    let result ← (config.operation i call).attempt
    act i (.settled call result)

def clientSystem (config : ClientConfig) :
    System ClientState ClientEvent Awaited (Answer Empty) ClientCall where
  initial := {}
  record := ClientState.record
  accepts _ _ request answer := request.answeredBy answer
  call := config.thread

end TeslatlasClient
