import TeslatlasSdk.Hub.Client
import TeslatlasSdk.Http.FetchTransport

/-!
# The operations of a hub client

The methods of a hub client, each in the thread of its call.  Actions of the session stand where the
code changes its fields, and where it comes by what later steps rest on.
-/

open Text Core Http

namespace Hub

abbrev HubAsync (β : Type) : Type := HttpAsync Session HubEvent HubCredential β

def act (i : Nat) (action : HubAction) : HubAsync Unit := Async.perform ⟨i, action⟩

/-- The body of an operation's response. -/
def bodyHost (i : Nat) : BodyHost Session HubEvent where
  event event := ⟨i, .body event⟩
  view s := (s.operations i).body
  cancellation s := s.cancellation

/-- "Hub client operation belongs to an expired session". -/
def expiredSession : Thrown := .abortError 2

def requireActive : HubAsync Unit := do
  if (← Async.get).disposed then throw (.teslatlas .hubClientDisposed) else return ()

def assertOperation (i : Nat) : HubAsync Unit := do
  let s ← Async.get
  if s.isExpired i then
    act i .refused
    throw expiredSession
  else
    match s.signal i with
    | some reason =>
        act i .refused
        throw (abortReason reason)
    | none => act i .passed

def beginOperation (i : Nat) (signal : Option Nat) : HubAsync Unit := do
  requireActive
  act i (.began signal)
  assertOperation i

/-! ## Responses -/

def maximumResponseBytes : Nat := 1048576

def readBody (i : Nat) (response : Response) (validatorName : String) : HubAsync JsString :=
  readBoundedText (bodyHost i) (Session.signal i) response validatorName maximumResponseBytes

def decodeResponse {β : Type} (i : Nat) (response : Response) (decode : JsString → Except Thrown β)
    (validatorName : String) : HubAsync β := do
  Async.ofExcept (requireJsonContentType response validatorName)
  let body ← awaited (readBody i response validatorName)
  Async.ofExcept (decode body)

inductive HubErrorRoute where
  | discovery
  | drives
  | other
  deriving DecidableEq, Repr

/-- What `#throwHubError` makes of the code of an error. -/
def hubError (response : Response) (route : HubErrorRoute) (code : JsString) : Thrown :=
  match statusForHubError code with
  | .error error => error
  | .ok expectedStatus =>
      if expectedStatus ≠ response.status ∨
          route = .discovery ∧ code ≠ js "service_unavailable" ∨
          route = .drives ∧ response.status = 503 ∧ code ≠ js "service_unavailable" ∨
          route = .other then
        validationError "HubError.status"
      else .teslatlas (.hubHttp response.status code)

def throwHubError {β : Type} (config : HubConfig) (i : Nat) (response : Response)
    (route : HubErrorRoute) : HubAsync β := do
  let body ← awaited (readBody i response "HubError")
  assertOperation i
  if body.isEmpty then throw (.teslatlas (.hubHttp response.status (js "hub_http_error")))
  else
    Async.ofExcept (requireJsonContentType response "HubError")
    let code ← Async.ofExcept (config.decoders.error body)
    throw (hubError response route code)

def throwClaimExtractorError {β : Type} (i : Nat) (response : Response) : HubAsync β := do
  let body ← awaited (readBody i response "HubError")
  assertOperation i
  Async.ofExcept (requireTextContentType response "HubError")
  if body.isEmpty then throw (validationError "HubError.body")
  else throw (.teslatlas (.hubHttp response.status (js "hub_http_error")))

/-! ## Requests -/

/-- `FetchTransport.request` for an operation, whose response is the operation's. -/
def send (i : Nat) (authorization : Option (HubAsync (Option JsString))) (route : HubRoute) :
    HubAsync Response := do
  let response ← awaited (request (Session.signal i) authorization (assertOperation i)
    fun value => act i (.dispatched route value))
  act i (.responded response)
  return response

/-- `#read`, over the provider of the transport's authorization. -/
def read {β : Type} (config : HubConfig) (i : Nat)
    (authorization : Option (HubAsync (Option JsString))) (route : HubRoute)
    (errorRoute : HubErrorRoute) (decode : JsString → Except Thrown β) (validatorName : String)
    (successStatuses : List Nat) : HubAsync (HubResponse β) := do
  assertOperation i
  let response ← send i authorization route
  withResponseOwnership (bodyHost i) response do
    assertOperation i
    if response.status ∉ successStatuses then
      awaited (throwHubError config i response errorRoute)
    else
      let value ← awaited (decodeResponse i response decode validatorName)
      assertOperation i
      let metadata ← Async.ofExcept (responseMetadata response false)
      return { value, metadata }

inductive ClaimRoute where
  | claim
  | rotate
  deriving DecidableEq, Repr

def decodeClaimResponse (config : HubConfig) (i : Nat) (response : Response) (route : ClaimRoute) :
    HubAsync (HubResponse HubClaim) :=
  withResponseOwnership (bodyHost i) response do
    assertOperation i
    if response.status ≠ 200 then
      if route = .claim ∧ isClaimExtractorStatus response.status then
        awaited (throwClaimExtractorError i response)
      else awaited (throwHubError config i response .other)
    else
      let value ← awaited (decodeResponse i response config.decoders.claim "HubClaim")
      assertOperation i
      act i (.decoded value)
      let metadata ← Async.ofExcept (responseMetadata response false)
      return { value, metadata }

/-! ## Discovery -/

/-- The fetch of a shared discovery and its first handler. -/
def fetchDiscovery (config : HubConfig) (thread : Nat) : HubAsync (HubResponse HubDiscovery) := do
  let result ← awaited (read config thread none .discovery .discovery config.decoders.discovery
    "HubDiscovery" [200])
  assertOperation thread
  if result.value.hubId ≠ config.expectedHubId then throw (.teslatlas .hubIdentityMismatch)
  else
    act thread (.published result.value)
    return result

/-- The handler of its error. -/
def invalidateDiscovery (thread : Nat) : Discovered → HubAsync Unit
  | .ok _ => return ()
  | .error _ => do
      let s ← Async.get
      if s.discoveryPending = some thread ∧ s.isExpired thread = false then act thread .invalidated
      else return ()

/-- The shared fetch and the chain of handlers on it, in a thread of its own.  The session has just
passed a check of the caller, so that the operation begins. -/
def sharedDiscovery (config : HubConfig) (thread : Nat) : HubAsync Unit := do
  beginOperation thread none
  act thread .opened
  let result ← (fetchDiscovery config thread).attempt
  tick
  invalidateDiscovery thread result
  tick
  act thread (.settled result)

/-- `if (operation.signal.aborted) onAbort()`. -/
def leaveIfAborted (i : Nat) : HubAsync Unit := do
  match (← Async.get).signal i with
  | some reason => act i (.left (.error (abortReason reason)))
  | none => return ()

/-- The handlers of a caller on the promise of a shared discovery. -/
def leaveDiscovery (pending i : Nat) : HubAsync (HubResponse HubDiscovery) := do
  let s ← Async.get
  match s.waits i, (s.operations pending).result with
  | .waiting _, some (.ok result) =>
      match ← (assertOperation i).attempt with
      | .ok _ =>
          act i (.left (.ok result))
          return result
      | .error error =>
          act i (.left (.error error))
          throw error
  | .waiting _, some (.error error) =>
      act i (.left (.error error))
      throw error
  -- an abort has settled the promise
  | .left _ result, _ => Async.ofExcept result
  | _, _ => throw .undefined

def waitForDiscovery (pending i : Nat) : HubAsync (HubResponse HubDiscovery) := do
  act i (.joined pending)
  leaveIfAborted i
  let _ ← Async.await (.discovery pending i)
  leaveDiscovery pending i

def discover (config : HubConfig) (i : Nat) : HubAsync (HubResponse HubDiscovery) := do
  assertOperation i
  match (← Async.get).discoveryPending with
  | some pending => waitForDiscovery pending i
  | none =>
      let pending ← Async.fork fun thread => (sharedDiscovery config thread).toProgram
      waitForDiscovery pending i

def ensureDiscovery (config : HubConfig) (i : Nat) : HubAsync HubDiscovery := do
  assertOperation i
  match (← Async.get).discovery with
  | some discovery =>
      act i (.admitted discovery)
      return discovery
  | none =>
      let response ← awaited (discover config i)
      act i (.admitted response.value)
      return response.value

def requireCapability (config : HubConfig) (i : Nat) (capability : JsString) : HubAsync Unit := do
  assertOperation i
  let discovery ← awaited (ensureDiscovery config i)
  assertOperation i
  if capability ∈ discovery.capabilities then return ()
  else throw (.teslatlas (.unsupportedHubMethod capability))

/-! ## Credentials -/

def awaitCredential : HubAsync (Option HubCredential) := do
  match ← Async.await .credentialLoad with
  | .credential result => Async.ofExcept result
  | _ => throw .undefined

/-- Check the session once more if it is what an error comes from. -/
def rethrow {β : Type} (i : Nat) (error : Thrown) : HubAsync β := do
  let s ← Async.get
  if s.isExpired i || (s.signal i).isSome then
    assertOperation i
    throw error
  else throw error

/-- `#loadCredential`.  Where the signal's abort wins the race against it, the load fails. -/
def loadCredential (i : Nat) : HubAsync (Option HubCredential) := do
  assertOperation i
  tryCatch (do
    act i .loadStarted
    let credential ← awaitCredential
    assertOperation i
    act i (.loaded credential)
    return credential) (rethrow i)

def awaitMutation : HubAsync Unit := do
  match ← Async.await .mutation with
  | .mutation result => Async.ofExcept result
  | _ => throw .undefined

/-- `#enqueueCredentialMutation`. -/
def enqueueCredentialMutation (i : Nat) (enqueue : HubAction) (start : HubAsync Unit) :
    HubAsync Unit := do
  act i enqueue
  let _ ← Async.await (.turn i)
  let result ← Async.attempt do
    start
    awaitMutation
  act i (.mutated result)
  Async.ofExcept result

def saveCredential (i : Nat) (credential : HubCredential) : HubAsync Unit :=
  tryCatch (do
    awaited (enqueueCredentialMutation i .saveQueued do
      assertOperation i
      act i (.saveStarted credential))
    assertOperation i) (rethrow i)

/-- The provider of `#makeAuthenticatedTransport`. -/
def authorization (i : Nat) (snapshot : Option HubCredential) : HubAsync (Option JsString) := do
  let credential ← (match snapshot with
    | some credential => return some credential
    | none => awaited (loadCredential i) : HubAsync (Option HubCredential))
  match credential with
  | none => return none
  | some credential =>
      Async.ofExcept (validateCredential (← Async.get).now credential)
      return some credential.bearer

/-- `#writeClaim`, which rotations use. -/
def writeClaim (config : HubConfig) (i : Nat) (authorization : HubAsync (Option JsString))
    (route : HubRoute) (claimRoute : ClaimRoute) : HubAsync (HubResponse HubClaim) := do
  assertOperation i
  let response ← send i (some authorization) route
  awaited (decodeClaimResponse config i response claimRoute)

/-- The end of a claim and of a rotation. -/
def storeClaim (i : Nat) (result : HubResponse HubClaim)
    (check : Except Thrown Unit) : HubAsync (HubResponse HubClaim) := do
  assertOperation i
  Async.ofExcept (requireUnexpiredClaim (← Async.get).now result.value)
  Async.ofExcept check
  awaited (saveCredential i (asCredential result.value))
  assertOperation i
  return result

/-! ## Methods -/

section Methods

variable (config : HubConfig) (i : Nat)

def callDiscover (signal : Option Nat) : HubAsync HubResult := do
  beginOperation i signal
  return .discovery (← awaited (discover config i))

def health (signal : Option Nat) : HubAsync HubResult := do
  beginOperation i signal
  return .value (← awaited (read config i none .health .other config.decoders.health "HubHealth"
    [200]))

def readiness (signal : Option Nat) : HubAsync HubResult := do
  beginOperation i signal
  return .value (← awaited (read config i none .readiness .other config.decoders.readiness
    "HubReadiness" [200, 503]))

def maximumClaimRequestBytes : Nat := 4096

/-- `JSON.stringify({ secret, device_name })`. -/
def claimBody (secret deviceName : JsString) : JsString :=
  js "\x7b\"secret\":" ++ Json.stringify secret ++ js ",\"device_name\":" ++
    Json.stringify deviceName ++ js "\x7d"

def requireDeviceName (deviceName : JsString) : Except Thrown Unit :=
  if deviceName.length = 0 ∨ deviceName.length > 65536 then
    .error (validationError "HubClaimRequest.deviceName")
  else .ok ()

def requireClaimSize (body : JsString) : Except Thrown Unit :=
  if (utf8Encode body).length > maximumClaimRequestBytes then
    .error (validationError "HubClaimRequest.size")
  else .ok ()

/-- The `URIError` of `encodeURIComponent`. -/
def malformedUri : Thrown := .other 3

def claimPath (pairingId : JsString) : Except Thrown JsString :=
  match encodeURIComponent pairingId with
  | none => .error malformedUri
  | some component => .ok (js "/v1/pairings/" ++ component ++ js "/claim")

/-- What the handler of the claim transport throws. -/
def rethrowClaim (error : Thrown) : HubAsync Response := do
  if error.isTeslatlasError then throw error
  else
    match (← Async.get).signal i with
    | some reason => throw (reasonOr error reason)
    | none =>
        if error.isAbortError then throw error
        else throw (.teslatlas .transport)

/-- The call of the claim transport.  The invitation is read again, after the awaits. -/
def sendClaim (invitation : Nat) (body : JsString) : HubAsync Response :=
  tryCatch (do
    let current := (← Async.get).invitations invitation
    let path ← Async.ofExcept (claimPath current.pairingId)
    act i (.claimStarted { path, body, tlsPin := current.tlsPin })
    awaitResponse .claimTransport) (rethrowClaim i)

def claimPairing (invitation : Nat) (deviceName : JsString) (signal : Option Nat) :
    HubAsync HubResult := do
  beginOperation i signal
  let s ← Async.get
  Async.ofExcept (validateInvitation config s.now (s.invitations invitation))
  act i (.validated invitation (s.invitations invitation))
  Async.ofExcept (requireDeviceName deviceName)
  let body := claimBody (s.invitations invitation).secret deviceName
  Async.ofExcept (requireClaimSize body)
  if config.claimTransport = false then throw (.teslatlas .hubTlsPinUnavailable)
  else
    let _ ← awaited (ensureDiscovery config i)
    assertOperation i
    let response ← sendClaim i invitation body
    act i (.responded response)
    let result ← awaited (decodeClaimResponse config i response .claim)
    return .claim (← storeClaim i result (.ok ()))

def rotateDevice (signal : Option Nat) : HubAsync HubResult := do
  beginOperation i signal
  let _ ← awaited (ensureDiscovery config i)
  let previous ← awaited (loadCredential i)
  assertOperation i
  match previous with
  | none => throw (.teslatlas (.hubHttp 401 (js "hub_http_error")))
  | some previous =>
      Async.ofExcept (validateCredential (← Async.get).now previous)
      let result ← awaited (writeClaim config i (authorization i (some previous)) .rotate .rotate)
      return .claim (← storeClaim i result
        (if result.value.deviceId = previous.deviceId then .ok ()
        else .error (validationError "HubClaim.deviceId")))

def vehicles (signal : Option Nat) : HubAsync HubResult := do
  beginOperation i signal
  awaited (requireCapability config i (js "query.vehicles"))
  return .value (← awaited (read config i (some (authorization i none)) .vehicles .other
    config.decoders.vehicles "HubVehicles" [200]))

def current (vehicleId : JsString) (signal : Option Nat) : HubAsync HubResult := do
  Async.ofExcept (validateUuid vehicleId "vehicleId")
  beginOperation i signal
  awaited (requireCapability config i (js "query.current"))
  let result ← awaited (read config i (some (authorization i none)) (.current vehicleId) .other
    config.decoders.current "HubCurrent" [200])
  if result.value.vehicleId ≠ vehicleId then throw (.teslatlas .vehicleIdentityMismatch)
  else return .current result

/-- What `drives` makes of a response. -/
def decodeDrives (vehicleId : JsString) (options : HubDrivesOptions) (response : Response) :
    HubAsync HubDrivesResult := do
  assertOperation i
  if response.status ≠ 200 ∧ response.status ≠ 304 then
    awaited (throwHubError config i response .drives)
  else
    Async.ofExcept (requireNoStore response)
    let metadata ← Async.ofExcept (responseMetadata response true)
    if response.status = 304 then
      if options.ifNoneMatch = none ∨ metadata.etag ≠ options.ifNoneMatch then
        throw (validationError "HubDrives.304.condition")
      else
        awaited (requireEmptyResponseBody (bodyHost i) (Session.signal i) response "HubDrives.304")
        assertOperation i
        return .notModified metadata
    else
      let value ← awaited (decodeResponse i response config.decoders.drives "HubDrives")
      assertOperation i
      Async.ofExcept (requireDrivesPage vehicleId options value)
      match value.nextCursor with
      | some cursor =>
          act i (.cursorBound cursor (cursorBinding vehicleId options.fromMs options.toMs))
          return .page value metadata
      | none => return .page value metadata

def requireIntegers (options : HubDrivesOptions) : Except Thrown Unit := do
  requireInteger "from_ms" options.fromMs
  requireInteger "to_ms" options.toMs
  requireInteger "limit" options.limit

def drives (vehicleId : JsString) (options : HubDrivesOptions) : HubAsync HubResult := do
  Async.ofExcept (validateUuid vehicleId "vehicleId")
  Async.ofExcept (requireIfNoneMatch options.ifNoneMatch)
  beginOperation i options.signal
  awaited (requireCapability config i (js "query.drives"))
  assertOperation i
  let s ← Async.get
  Async.ofExcept (requireCursorBinding s options.cursor
    (cursorBinding vehicleId options.fromMs options.toMs))
  Async.ofExcept (requireIntegers options)
  let response ← send i (some (authorization i none)) (.drives vehicleId options)
  return .drives (← awaited (withResponseOwnership (bodyHost i) response
    (decodeDrives config i vehicleId options response)))

/-- `new DOMException("Hub client logged out", "AbortError")`, and the one of `dispose`. -/
def clientLoggedOut : Thrown := .abortError 3

def clientDisposed : Thrown := .abortError 4

def logout : HubAsync HubResult := do
  requireActive
  act i (.aborted .session clientLoggedOut)
  act i .loggedOut
  awaited (enqueueCredentialMutation i .clearQueued (act i .clearStarted))
  return .done

def dispose : HubAsync HubResult := do
  if (← Async.get).disposed then return .done
  else
    act i .disposed
    act i (.aborted .session clientDisposed)
    act i .forgot
    return .done

end Methods

/-! ## The system -/

/-- An action of the caller or of the host. -/
def setting (i : Nat) (action : HubAction) : HubAsync HubResult := do
  act i action
  return .done

/-- What a call does. -/
def HubConfig.operation (config : HubConfig) (i : Nat) : HubCall → HubAsync HubResult
  | .discover signal => callDiscover config i signal
  | .health signal => health config i signal
  | .readiness signal => readiness config i signal
  | .claimPairing invitation deviceName signal => claimPairing config i invitation deviceName signal
  | .rotateDevice signal => rotateDevice config i signal
  | .vehicles signal => vehicles config i signal
  | .current vehicleId signal => current config i vehicleId signal
  | .drives vehicleId options => drives config i vehicleId options
  | .logout => logout i
  | .dispose => dispose i
  | .abortOwner reason => setting i (.aborted .owner reason)
  | .abort caller reason => setting i (.aborted (.caller caller) reason)
  | .changeInvitation invitation value => setting i (.invitationChanged invitation value)
  | .setClock now => setting i (.clockSet now)
  | .setCancellation cancellation => setting i (.cancellationSet cancellation)

/-- The thread of a call. -/
def HubConfig.thread (config : HubConfig) (call : HubCall) (i : Nat) :
    Program Session HubEvent Awaited (Answer HubCredential) :=
  Async.toProgram do
    let result ← (config.operation i call).attempt
    act i (.finished call result)

/-- A caller of a shared discovery goes on when the discovery or its own promise is settled, and a
mutation starts when those in front of it are settled. -/
def accepts (s : Session) : Awaited → Answer HubCredential → Bool
  | .discovery pending waiter, .tick =>
      (s.operations pending).result.isSome || !(s.waits waiter).isWaiting
  | .turn thread, .tick => s.mutations.head? = some thread
  | request, answer => request.answeredBy answer

/-- The objects of the caller and the clock at the start. -/
structure HubStart where
  invitations : Nat → HubInvitation
  now : Int

def hubSystem (config : HubConfig) (start : HubStart) :
    System Session HubEvent Awaited (Answer HubCredential) HubCall where
  initial := { invitations := start.invitations, now := start.now }
  record := Session.record
  accepts s _ := accepts s
  call := config.thread

end Hub
