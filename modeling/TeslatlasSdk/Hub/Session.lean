import TeslatlasSdk.Core.Numbers
import TeslatlasSdk.Http.ResponseOwnership
import TeslatlasSdk.Json.Parser

/-!
# The state of a hub session

The fields of a hub client, the operations begun on it and the shared discoveries, with the actions
that change them.  An operation is numbered by the thread it runs in; a shared discovery runs in a
thread of its own, as an operation of the session.  What an operation has done and obtained is its
own; its signal and its place among the callers of a shared discovery are changed by others.
-/

open Text Core Http

namespace Hub

/-! ## Data -/

/-- The fields that the code looks at. -/
structure HubDiscovery where
  hubId : JsString
  capabilities : List JsString
  deriving DecidableEq, Repr

structure HubCredential where
  accessToken : JsString
  deviceId : JsString
  expiresAtMs : JsNumber
  deriving DecidableEq, Repr

structure HubClaim where
  accessToken : JsString
  deviceId : JsString
  expiresAtMs : JsNumber
  deriving DecidableEq, Repr

/-- `asCredential`. -/
def asCredential (claim : HubClaim) : HubCredential where
  accessToken := claim.accessToken
  deviceId := claim.deviceId
  expiresAtMs := claim.expiresAtMs

/-- The `Authorization` header of a credential. -/
def HubCredential.bearer (credential : HubCredential) : JsString :=
  js "Bearer " ++ credential.accessToken

structure HubInvitation where
  pairingId : JsString
  secret : JsString
  expiresAtMs : JsNumber
  endpoint : JsString
  tlsPin : JsString
  pairingUri : JsString
  deriving DecidableEq, Repr

/-- What the claim transport is given; the URL is that of the path at the endpoint. -/
structure HubClaimTransportRequest where
  path : JsString
  body : JsString
  tlsPin : JsString
  deriving DecidableEq, Repr

structure HubCurrent where
  vehicleId : JsString
  deriving DecidableEq, Repr

structure HubDrive where
  id : Int
  vehicleId : JsString
  startDateMs : Int
  deriving DecidableEq, Repr

structure HubDrives where
  items : List HubDrive
  nextCursor : Option JsString
  deriving DecidableEq, Repr

structure HubResponseMetadata where
  status : Nat
  etag : Option JsString
  requestId : Option JsString
  deriving DecidableEq, Repr

structure HubResponse (β : Type) where
  value : β
  metadata : HubResponseMetadata

structure HubDrivesOptions where
  fromMs : Option JsNumber := none
  toMs : Option JsNumber := none
  limit : Option JsNumber := none
  cursor : Option JsString := none
  ifNoneMatch : Option JsString := none
  signal : Option Nat := none

inductive HubDrivesResult where
  | page (value : HubDrives) (metadata : HubResponseMetadata)
  | notModified (metadata : HubResponseMetadata)

/-- Where requests go. -/
inductive HubRoute where
  | discovery
  | health
  | readiness
  | rotate
  | vehicles
  | current (vehicleId : JsString)
  | drives (vehicleId : JsString) (options : HubDrivesOptions)

/-! ## Calls -/

inductive HubCall where
  | discover (signal : Option Nat)
  | health (signal : Option Nat)
  | readiness (signal : Option Nat)
  /-- Invitations are objects of the caller. -/
  | claimPairing (invitation : Nat) (deviceName : JsString) (signal : Option Nat)
  | rotateDevice (signal : Option Nat)
  | vehicles (signal : Option Nat)
  | current (vehicleId : JsString) (signal : Option Nat)
  | drives (vehicleId : JsString) (options : HubDrivesOptions)
  | logout
  | dispose
  /-- The owner or a caller aborts its signal. -/
  | abortOwner (reason : Thrown)
  | abort (caller : Nat) (reason : Thrown)
  | changeInvitation (invitation : Nat) (value : HubInvitation)
  | setClock (now : Int)
  /-- What `cancel()` of streams does from now on. -/
  | setCancellation (cancellation : Cancellation)

inductive HubResult where
  | discovery (response : HubResponse HubDiscovery)
  | value (response : HubResponse Json.Value)
  | claim (response : HubResponse HubClaim)
  | current (response : HubResponse HubCurrent)
  | drives (result : HubDrivesResult)
  | done

/-! ## Operations -/

/-- The settlement of a discovery. -/
abbrev Discovered := Except Thrown (HubResponse HubDiscovery)

/-- The mutation of the credential store that an operation has asked for. -/
inductive Mutation where
  | none
  | queued
  /-- The store is at work on it. -/
  | storing
  | settled (stored : Bool)
  deriving DecidableEq, Repr

/-- What an operation has done and been given. -/
structure Operation where
  begun : Bool := false
  generation : Nat := 0
  /-- The caller's signal. -/
  caller : Option Nat := none
  /-- The cursors that had been bound when it began, and since when they are kept. -/
  bindings : List (JsString × JsString) := []
  epoch : Nat := 0
  /-- A check of the session has failed. -/
  refused : Bool := false
  /-- It is a shared discovery that callers may join. -/
  opened : Bool := false
  /-- What the promise of a shared discovery is settled with. -/
  result : Option Discovered := none
  /-- The invitation that it has checked, with what it was then. -/
  validated : Option (Nat × HubInvitation) := none
  admitted : Option HubDiscovery := none
  /-- What the store has loaded for it. -/
  loaded : Option (Option HubCredential) := none
  sent : Option HubRoute := none
  claimed : Option HubClaimTransportRequest := none
  response : Option Response := none
  body : BodyView := {}
  /-- The claim of its response. -/
  claim : Option HubClaim := none
  mutation : Mutation := .none
  /-- The cursor that it has bound. -/
  bound : Option (JsString × JsString) := none

/-- A caller's place among those of a shared discovery. -/
inductive Wait where
  | none
  | waiting (discovery : Nat)
  | left (discovery : Nat) (result : Discovered)

def Wait.isWaiting : Wait → Bool
  | .waiting _ => true
  | _ => false

def Wait.isFor (discovery : Nat) : Wait → Bool
  | .waiting d => d = discovery
  | _ => false

/-! ## The session -/

structure Session where
  sessionGeneration : Nat := 0
  /-- The generation that the controller of the session was made in. -/
  sessionAbort : Nat := 0
  disposed : Bool := false
  discovery : Option HubDiscovery := none
  /-- The documents that have been published since the last logout. -/
  published : List HubDiscovery := []
  discoveryPending : Option Nat := none
  cursorBindings : List (JsString × JsString) := []
  /-- The cursors that pages have returned since the bindings were last cleared, and how often that
  has been. -/
  issued : List (JsString × JsString) := []
  epoch : Nat := 0
  operations : Nat → Operation := fun _ => {}
  /-- The signals of the operations, which follow the owner's, the session's and the caller's; that
  of a shared discovery follows its controller's instead of a caller's. -/
  reasons : Nat → AbortState := fun _ => none
  waits : Nat → Wait := fun _ => .none
  /-- `waiters` of the shared discoveries. -/
  waiters : Nat → Nat := fun _ => 0
  /-- The callers of shared discoveries, by their abort listeners. -/
  listeners : List Nat := []
  /-- `credentialMutation`: the threads whose mutations are not settled, in order. -/
  mutations : List Nat := []
  /-- The store is at work on the first of them. -/
  mutating : Bool := false
  owner : AbortState := none
  callers : Nat → AbortState := fun _ => none
  invitations : Nat → HubInvitation
  /-- `Date.now()`. -/
  now : Int
  cancellation : Cancellation := {}

inductive SignalSource where
  | owner
  | session
  | caller (caller : Nat)
  deriving DecidableEq, Repr

inductive HubAction where
  | began (caller : Option Nat)
  /-- `assertOperation` has passed, or thrown. -/
  | passed
  | refused
  | opened
  | joined (discovery : Nat)
  /-- The promise of a caller of a shared discovery is settled. -/
  | left (result : Discovered)
  | published (discovery : HubDiscovery)
  /-- A discovery that has failed takes the one before it away. -/
  | invalidated
  | settled (result : Discovered)
  /-- `validateInvitation` has passed. -/
  | validated (invitation : Nat) (value : HubInvitation)
  /-- `ensureDiscovery` has returned. -/
  | admitted (discovery : HubDiscovery)
  | loadStarted
  | loaded (credential : Option HubCredential)
  | dispatched (route : HubRoute) (authorization : Option JsString)
  | claimStarted (request : HubClaimTransportRequest)
  | responded (response : Response)
  | body (event : BodyEvent)
  | decoded (claim : HubClaim)
  | saveQueued
  | saveStarted (credential : HubCredential)
  | clearQueued
  | clearStarted
  | mutated (result : Except Thrown Unit)
  | cursorBound (cursor binding : JsString)
  | aborted (source : SignalSource) (reason : Thrown)
  | loggedOut
  | disposed
  /-- Discovery and cursor bindings are cleared. -/
  | forgot
  | finished (call : HubCall) (result : Except Thrown HubResult)
  /-- The caller's and the host's own changes. -/
  | invitationChanged (invitation : Nat) (value : HubInvitation)
  | clockSet (now : Int)
  | cancellationSet (cancellation : Cancellation)

/-- An action and the thread that performs it. -/
structure HubEvent where
  thread : Nat
  action : HubAction

namespace Session

/-- `isExpired`. -/
def isExpired (s : Session) (operation : Nat) : Bool :=
  (s.operations operation).generation ≠ s.sessionGeneration || s.disposed

/-- `operation.signal`. -/
def signal (operation : Nat) (s : Session) : AbortState := s.reasons operation

def update (s : Session) (thread : Nat) (change : Operation → Operation) : Session :=
  { s with operations := fun i => if i = thread then change (s.operations i) else s.operations i }

/-- The reason that `AbortSignal.any` of the owner's and the caller's signals starts with; the
session's own is not aborted while operations begin. -/
def combinedReason (s : Session) (caller : Option Nat) : AbortState :=
  s.owner.or (caller.bind s.callers)

/-- Clear the cursor bindings. -/
def unbind (s : Session) : Session :=
  { s with cursorBindings := [], issued := [], epoch := s.epoch + 1 }

/-! ## Waiters and aborts -/

/-- `new DOMException("Discovery has no active callers", "AbortError")`. -/
def noActiveCallers : Thrown := .abortError 1

/-- The promise of a caller is settled, its listener is removed and it is counted no more. -/
def release (s : Session) (waiter discovery : Nat) (result : Discovered) : Session :=
  { s with
    waits := fun i => if i = waiter then .left discovery result else s.waits i
    waiters := fun d => if d = discovery then s.waiters d - 1 else s.waiters d
    listeners := s.listeners.erase waiter }

/-- Abort a pending discovery that nobody waits for. -/
def abandon (s : Session) (discovery : Nat) : Session :=
  if s.waiters discovery = 0 ∧ s.discoveryPending = some discovery then
    { s with
      discoveryPending := none
      reasons := fun i =>
        if i = discovery then (s.reasons i).or (some noActiveCallers) else s.reasons i }
  else s

/-- `finish` of `waitForDiscovery`. -/
def leave (s : Session) (waiter : Nat) (result : Discovered) : Session :=
  match s.waits waiter with
  | .waiting discovery => (s.release waiter discovery result).abandon discovery
  | _ => s

/-- Whether the signal of an operation follows a source. -/
def follows (s : Session) (operation : Operation) : SignalSource → Bool
  | .owner => operation.begun
  | .session => operation.begun && operation.generation = s.sessionAbort
  | .caller caller => operation.begun && operation.caller = some caller

/-- Abort the signals that follow a source, before the listeners run. -/
def mark (s : Session) (source : SignalSource) (reason : Thrown) : Session :=
  { s with reasons := fun i =>
      if s.follows (s.operations i) source then (s.reasons i).or (some reason) else s.reasons i }

/-- The listener of a caller of a shared discovery, `onAbort`. -/
def onAbort (s : Session) (waiter : Nat) : Session :=
  match s.reasons waiter with
  | some reason => s.leave waiter (.error (abortReason reason))
  | none => s

/-- Abort a source: the listeners of the callers whose signals follow it run in order. -/
def abort (s : Session) (source : SignalSource) (reason : Thrown) : Session :=
  (s.listeners.filter fun i => s.follows (s.operations i) source).foldl onAbort
    (s.mark source reason)

def setSource (s : Session) (source : SignalSource) (reason : Thrown) : Session :=
  match source with
  | .owner => { s with owner := s.owner.or (some reason) }
  | .session => s
  | .caller caller =>
      { s with callers := fun c =>
          if c = caller then (s.callers c).or (some reason) else s.callers c }

/-! ## Actions -/

/-- What an action makes of the session. -/
def record (s : Session) (event : HubEvent) : Session :=
  let thread := event.thread
  match event.action with
  | .began caller =>
      { s.update thread fun operation =>
          { operation with
            begun := true, generation := s.sessionGeneration, caller, bindings := s.issued,
            epoch := s.epoch } with
        reasons := fun i => if i = thread then s.combinedReason caller else s.reasons i }
  | .passed => s
  | .refused => s.update thread ({ · with refused := true })
  | .opened =>
      { s.update thread ({ · with opened := true }) with discoveryPending := some thread }
  | .joined discovery =>
      { s with
        waits := fun i => if i = thread then .waiting discovery else s.waits i
        waiters := fun d => if d = discovery then s.waiters d + 1 else s.waiters d
        listeners := s.listeners ++ [thread] }
  | .left result => s.leave thread result
  | .published discovery =>
      { s.unbind with discovery := some discovery, published := discovery :: s.published }
  | .invalidated => { s.unbind with discovery := none }
  | .settled result =>
      { s.update thread ({ · with result := some result }) with
        discoveryPending := if s.discoveryPending = some thread then none else s.discoveryPending }
  | .validated invitation value => s.update thread ({ · with validated := some (invitation, value) })
  | .admitted discovery => s.update thread ({ · with admitted := some discovery })
  | .loadStarted => s
  | .loaded credential => s.update thread ({ · with loaded := some credential })
  | .dispatched route _ => s.update thread ({ · with sent := some route })
  | .claimStarted request => s.update thread ({ · with claimed := some request })
  | .responded response => s.update thread ({ · with response := some response })
  | .body event =>
      s.update thread fun operation => { operation with body := operation.body.record event }
  | .decoded claim => s.update thread ({ · with claim := some claim })
  | .saveQueued | .clearQueued =>
      { s.update thread ({ · with mutation := .queued }) with mutations := s.mutations ++ [thread] }
  | .saveStarted _ | .clearStarted =>
      { s.update thread ({ · with mutation := .storing }) with mutating := true }
  | .mutated result =>
      { s.update thread ({ · with mutation := .settled result.isOk }) with
        mutations := s.mutations.tail, mutating := false }
  | .cursorBound cursor binding =>
      { s.update thread ({ · with bound := some (cursor, binding) }) with
        cursorBindings := (cursor, binding) :: s.cursorBindings.filter (·.1 ≠ cursor)
        issued := (cursor, binding) :: s.issued }
  | .aborted source reason => (s.abort source reason).setSource source reason
  | .loggedOut =>
      { s.unbind with
        sessionGeneration := s.sessionGeneration + 1, sessionAbort := s.sessionGeneration + 1,
        discovery := none, published := [], discoveryPending := none }
  | .disposed => { s with disposed := true, sessionGeneration := s.sessionGeneration + 1 }
  | .forgot => { s.unbind with discovery := none, discoveryPending := none }
  | .finished _ _ => s
  | .invitationChanged invitation value =>
      { s with invitations := fun i => if i = invitation then value else s.invitations i }
  | .clockSet now => { s with now }
  | .cancellationSet cancellation => { s with cancellation }

end Session

end Hub
