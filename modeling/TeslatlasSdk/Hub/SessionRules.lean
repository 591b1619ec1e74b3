import TeslatlasSdk.Core.ProgramLogic
import TeslatlasSdk.Http.BodyLaws
import TeslatlasSdk.Hub.Operations

/-!
# What the operations of a hub client may do

The rules for the actions of a hub session, and the invariant behind them: the identity of what is
known of the hub, the callers of shared discoveries, the mutations of the credential store and the
cursors of drives.
-/

open Text Core Http

namespace Hub

/-! ## Rules -/

/-- What `assertOperation` checks: the session is the operation's, and its signal is not aborted. -/
structure Current (s : Session) (i : Nat) : Prop where
  unexpired : s.isExpired i = false
  signal : s.reasons i = none

/-- An operation that has begun and passes the check. -/
structure Live (s : Session) (i : Nat) : Prop extends Current s i where
  begun : (s.operations i).begun = true

/-- The value is decoded from the text of the body, which has been read. -/
def ReadAs {β : Type} (response : Response) (body : BodyView) (decode : JsString → Except Thrown β)
    (value : β) : Prop :=
  ∃ text, HasText response body text ∧ decode text = .ok value

/-- A value has been decoded from the body of the response to the operation's own request, under one
of the statuses. -/
structure Fetched {β : Type} (x : Operation) (route : HubRoute) (statuses : List Nat)
    (decode : JsString → Except Thrown β) (value : β) : Prop where
  sent : x.sent = some route
  response : ∃ response, x.response = some response ∧ response.status ∈ statuses ∧
    ReadAs response x.body decode value

/-- The document is one that some operation has fetched. -/
def Documented (config : HubConfig) (s : Session) (discovery : HubDiscovery) : Prop :=
  ∃ p, Fetched (s.operations p) .discovery [200] config.decoders.discovery discovery

/-- A document has been fetched, is one of the expected hub, and has been published in the operation's
generation, if that is not over. -/
structure Vouched (config : HubConfig) (s : Session) (i : Nat) (discovery : HubDiscovery) : Prop where
  fetched : Documented config s discovery
  hub : discovery.hubId = config.expectedHubId
  generation : (s.operations i).generation ≤ s.sessionGeneration
  published : (s.operations i).generation = s.sessionGeneration → discovery ∈ s.published

/-- A discovery vouches for its document, if it has succeeded. -/
def Expected (config : HubConfig) (s : Session) (i : Nat) (result : Discovered) : Prop :=
  ∀ response, result = .ok response → Vouched config s i response.value

/-- The operation has been admitted by a discovery of the expected hub. -/
def AdmittedBy (config : HubConfig) (x : Operation) (discovery : HubDiscovery) : Prop :=
  x.admitted = some discovery ∧ discovery.hubId = config.expectedHubId

/-- The routes that need a discovery, and the capability that it has to have. -/
def HubRoute.isAuthenticated : HubRoute → Bool
  | .discovery | .health | .readiness => false
  | .rotate | .vehicles | .current _ | .drives _ _ => true

def HubRoute.capability : HubRoute → Option JsString
  | .vehicles => some (js "query.vehicles")
  | .current _ => some (js "query.current")
  | .drives _ _ => some (js "query.drives")
  | _ => none

/-- The query that a cursor belongs to. -/
def HubRoute.cursor? : HubRoute → Option (JsString × JsString)
  | .drives vehicleId options =>
      options.cursor.map fun cursor =>
        (cursor, cursorBinding vehicleId options.fromMs options.toMs)
  | _ => none

/-- The arguments of a route are well-formed. -/
def HubRoute.WellAsked : HubRoute → Prop
  | .current vehicleId => isUuid vehicleId = true
  | .drives vehicleId options => isUuid vehicleId = true ∧ requireIntegers options = .ok ()
  | _ => True

/-- An operation has loaded a credential that is well-formed. -/
def HasLoaded (x : Operation) (credential : HubCredential) : Prop :=
  x.loaded = some (some credential) ∧ isToken credential.accessToken = true ∧
    isUuid credential.deviceId = true

/-- A request is sent by a live operation that has sent none, with its own credential, for a hub that
is known; and a cursor goes back to a query that it has come from. -/
structure MayDispatch (config : HubConfig) (s : Session) (i : Nat) (route : HubRoute)
    (authorization : Option JsString) : Prop where
  live : Live s i
  sent : (s.operations i).sent = none
  claimed : (s.operations i).claimed = none
  asked : route.WellAsked
  admitted : route.isAuthenticated = true → ∃ discovery, AdmittedBy config (s.operations i) discovery ∧
    ∀ capability, route.capability = some capability → capability ∈ discovery.capabilities
  bearer : ∀ value, authorization = some value → route.isAuthenticated = true ∧
    ∃ credential, HasLoaded (s.operations i) credential ∧ value = credential.bearer
  cursor : ∀ query, route.cursor? = some query → (s.operations i).epoch = s.epoch →
    query.1 ∈ (s.operations i).bindings.map (·.1) → query ∈ s.issued

/-- What a claim is made of: the body of the invitation as it has been checked, the path and the pin
of the invitation as it is. -/
structure ClaimOf (s : Session) (invitation : Nat) (value : HubInvitation)
    (request : HubClaimTransportRequest) : Prop where
  body : ∃ deviceName, request.body = claimBody value.secret deviceName
  path : claimPath (s.invitations invitation).pairingId = .ok request.path
  pin : request.tlsPin = (s.invitations invitation).tlsPin

/-- A pairing claim is sent by a live operation that has sent nothing, for a hub that is known. -/
structure MayClaim (config : HubConfig) (s : Session) (i : Nat)
    (request : HubClaimTransportRequest) : Prop where
  live : Live s i
  invitation : ∃ invitation value, (s.operations i).validated = some (invitation, value) ∧
    ClaimOf s invitation value request
  sent : (s.operations i).sent = none
  claimed : (s.operations i).claimed = none
  admitted : ∃ discovery, AdmittedBy config (s.operations i) discovery

/-- The claim is decoded from the body of a response of status 200 to the operation's own request. -/
structure MayDecode (config : HubConfig) (s : Session) (i : Nat) (claim : HubClaim) : Prop where
  live : Live s i
  unclaimed : (s.operations i).claim = none
  unasked : (s.operations i).mutation = .none
  answered : (s.operations i).sent ≠ none ∨ (s.operations i).claimed ≠ none
  response : ∃ response, (s.operations i).response = some response ∧ response.status = 200 ∧
    ReadAs response (s.operations i).body config.decoders.claim claim

/-- The operation has a claim that has not expired, for the device whose credential it has loaded,
and has asked for no mutation. -/
structure MayQueue (s : Session) (i : Nat) : Prop where
  fresh : (s.operations i).mutation = .none
  claim : ∃ claim, (s.operations i).claim = some claim ∧
    isUnexpired claim.expiresAtMs s.now = true ∧
    ∀ previous, (s.operations i).loaded = some (some previous) → claim.deviceId = previous.deviceId

/-- It is the mutation's turn, and the store is at rest. -/
structure HasTurn (s : Session) (i : Nat) : Prop where
  head : s.mutations.head? = some i
  queued : (s.operations i).mutation = .queued
  rest : s.mutating = false

/-- The error of a check of the operation that fails. -/
inductive CheckError (s : Session) (i : Nat) : Thrown → Prop
  | expired (h : s.isExpired i = true) : CheckError s i expiredSession
  | aborted {reason : Thrown} (h : s.isExpired i = false) (hreason : s.reasons i = some reason) :
      CheckError s i (abortReason reason)

/-- The promise of a caller is settled as the discovery is, or with the error of its own check. -/
structure MayLeave (s : Session) (i : Nat) (result : Discovered) : Prop where
  settled : ∃ d, s.waits i = .waiting d ∧
    ((s.operations d).result = some result ∨ ∃ e, result = .error e ∧ CheckError s i e)
  ok : ∀ response, result = .ok response → Current s i

/-- A cursor is bound by the page that has returned it. -/
structure MayBind (s : Session) (i : Nat) (cursor binding : JsString) : Prop where
  live : Live s i
  query : ∃ vehicleId options, (s.operations i).sent = some (.drives vehicleId options) ∧
    (HubRoute.drives vehicleId options).WellAsked ∧
      binding = cursorBinding vehicleId options.fromMs options.toMs
  response : ∃ response, (s.operations i).response = some response ∧ response.status = 200
  bound : (s.operations i).bound = none

/-! ## Results -/

/-- The order of pages: later drives first, and among those of one time the greater id. -/
def HubDrive.Precedes (drive other : HubDrive) : Prop :=
  other.startDateMs < drive.startDateMs ∨
    other.startDateMs = drive.startDateMs ∧ other.id < drive.id

/-- What a page of drives has to be for the query. -/
structure PageLaw (vehicleId : JsString) (options : HubDrivesOptions) (value : HubDrives) :
    Prop where
  owned : ∀ drive ∈ value.items, drive.vehicleId = vehicleId
  ordered : value.items.Pairwise HubDrive.Precedes
  start : ∀ drive ∈ value.items,
    (options.fromMs.bind JsNumber.safeInteger?).getD 0 ≤ drive.startDateMs
  stop : ∀ drive ∈ value.items,
    drive.startDateMs < (options.toMs.bind JsNumber.safeInteger?).getD maximumSafeInteger
  size : (value.items.length : Int) ≤ (options.limit.bind JsNumber.safeInteger?).getD 100

/-- What drives that are not modified rest on. -/
structure Unmodified (x : Operation) (vehicleId : JsString) (options : HubDrivesOptions) :
    Prop where
  sent : x.sent = some (.drives vehicleId options)
  response : ∃ response tag, x.response = some response ∧ response.status = 304 ∧
    options.ifNoneMatch = some tag ∧ response.entityTag = some tag ∧ WasEmpty response x.body
  bound : x.bound = none

/-- What a page of drives rests on. -/
structure Paged (config : HubConfig) (x : Operation) (vehicleId : JsString)
    (options : HubDrivesOptions) (value : HubDrives) : Prop where
  fetched : Fetched x (.drives vehicleId options) [200] config.decoders.drives value
  law : PageLaw vehicleId options value
  bound : x.bound =
    value.nextCursor.map fun cursor => (cursor, cursorBinding vehicleId options.fromMs options.toMs)

/-- What the value of a read rests on. -/
def ReadsValue (config : HubConfig) (x : Operation) (call : HubCall) (value : Json.Value) : Prop :=
  match call with
  | .health _ => Fetched x .health [200] config.decoders.health value
  | .readiness _ => Fetched x .readiness [200, 503] config.decoders.readiness value
  | .vehicles _ => Fetched x .vehicles [200] config.decoders.vehicles value
  | _ => False

/-- What a claim that is returned rests on: it has been decoded from the response to the operation's
own request, and is stored. -/
structure Stored (config : HubConfig) (x : Operation) (value : HubClaim) : Prop where
  claim : x.claim = some value
  mutation : x.mutation = .settled true
  answered : x.sent ≠ none ∨ x.claimed ≠ none
  response : ∃ response, x.response = some response ∧ response.status = 200 ∧
    ReadAs response x.body config.decoders.claim value

/-- What a call has to have for a result. -/
def Rests (config : HubConfig) (s : Session) (x : Operation) (call : HubCall) : HubResult → Prop
  | .discovery response => Documented config s response.value ∧
      response.value.hubId = config.expectedHubId
  | .claim response => Stored config x response.value
  | .current response => ∃ vehicleId signal, call = .current vehicleId signal ∧
      response.value.vehicleId = vehicleId ∧
        Fetched x (.current vehicleId) [200] config.decoders.current response.value
  | .drives (.page value _) => ∃ vehicleId options, call = .drives vehicleId options ∧
      Paged config x vehicleId options value
  | .drives (.notModified _) => ∃ vehicleId options, call = .drives vehicleId options ∧
      Unmodified x vehicleId options
  | .value response => ReadsValue config x call response.value
  | .done => True

/-- A call settles: the body of its response is released, a check that has failed is an error, an
error has bound no cursor, and a result has what it rests on. -/
structure Finishes (config : HubConfig) (i : Nat) (call : HubCall) (result : Except Thrown HubResult)
    (s : Session) : Prop where
  released : ∀ response, (s.operations i).response = some response →
    Released response (s.operations i).body
  refused : (s.operations i).refused = true → ∃ e, result = .error e
  unbound : ∀ e, result = .error e → (s.operations i).bound = none
  rests : ∀ found, result = .ok found → Rests config s (s.operations i) call found

/-- Every shared discovery that is not settled is aborted. -/
def Forsaken (s : Session) : Prop :=
  ∀ p, (s.operations p).opened = true → (s.operations p).result = none → s.reasons p ≠ none

/-- The rules of the session. -/
def Permits (config : HubConfig) (s : Session) (event : HubEvent) : Prop :=
  let i := event.thread
  match event.action with
  | .began _ => s.operations i = {} ∧ s.waits i = .none ∧ s.disposed = false
  | .passed => Current s i
  | .refused => ¬ Current s i
  | .opened => Live s i ∧ s.discoveryPending = none ∧ s.waits i = .none ∧
      (s.operations i).opened = false ∧ (s.operations i).result = none
  | .joined d => Live s i ∧ s.discoveryPending = some d ∧ s.waits i = .none ∧
      (s.operations i).opened = false
  | .left result => MayLeave s i result
  | .published d => Live s i ∧ s.discoveryPending = some i ∧ d.hubId = config.expectedHubId ∧
      Fetched (s.operations i) .discovery [200] config.decoders.discovery d
  | .invalidated => s.discoveryPending = some i ∧ s.isExpired i = false
  | .settled result => (s.operations i).result = none ∧ Expected config s i result ∧
      ∀ response, (s.operations i).response = some response → Released response (s.operations i).body
  | .validated invitation value => value = s.invitations invitation ∧
      validateInvitation config s.now value = .ok ()
  | .admitted d => Vouched config s i d
  | .loadStarted => Live s i
  | .loaded _ => Live s i ∧ (s.operations i).sent = none ∧ (s.operations i).claimed = none
  | .dispatched route authorization => MayDispatch config s i route authorization
  | .claimStarted request => MayClaim config s i request
  | .responded _ => (s.operations i).response = none
  | .decoded claim => MayDecode config s i claim
  | .saveQueued => MayQueue s i
  | .saveStarted credential => Live s i ∧ HasTurn s i ∧
      ∃ claim, (s.operations i).claim = some claim ∧ credential = asCredential claim
  | .clearQueued => (s.operations i).mutation = .none ∧ (s.operations i).begun = false
  | .clearStarted => HasTurn s i
  | .mutated result => s.mutations.head? = some i ∧
      (result.isOk = true → (s.operations i).mutation = .storing)
  | .loggedOut => Forsaken s
  | .forgot => s.disposed = true ∧ Forsaken s
  | .cursorBound cursor binding => MayBind s i cursor binding
  | .finished call result => Finishes config i call result s
  | _ => True

/-! ## The invariant -/

/-- What is known of the hub is that of the expected one, by a document of the generation. -/
structure IdentityInv (config : HubConfig) (s : Session) : Prop where
  published : ∀ d ∈ s.published, Documented config s d ∧ d.hubId = config.expectedHubId
  discovery : ∀ d, s.discovery = some d → d ∈ s.published
  results : ∀ p result, (s.operations p).result = some result → Expected config s p result
  left : ∀ i d result, s.waits i = .left d result → Expected config s i result
  admitted : ∀ i d, (s.operations i).admitted = some d → Vouched config s i d
  pending : ∀ p, s.discoveryPending = some p → s.disposed = false →
    (s.operations p).generation = s.sessionGeneration
  together : ∀ i d, s.waits i = .waiting d → (s.operations i).generation = (s.operations d).generation

/-- The callers of shared discoveries are counted, and one that goes on is the pending one.
The listeners of some callers whose signals have just been aborted may have yet to run. -/
structure SharingInv (aborted : List Nat) (s : Session) : Prop where
  listening : ∀ i, i ∈ s.listeners ↔ (s.waits i).isWaiting = true
  nodup : s.listeners.Nodup
  counted : ∀ d, s.waiters d = s.listeners.countP fun i => (s.waits i).isFor d
  unaborted : ∀ i, (s.waits i).isWaiting = true → s.reasons i ≠ none → i ∈ aborted
  joined : ∀ i d, s.waits i = .waiting d → (s.operations d).opened = true
  apart : ∀ d, (s.operations d).opened = true → s.waits d = .none
  pending : ∀ p, s.discoveryPending = some p →
    (s.operations p).opened = true ∧ (s.operations p).result = none
  live : ∀ p, (s.operations p).opened = true → (s.operations p).result = none →
    s.reasons p = none → s.discoveryPending = some p
  begun : ∀ p, s.discoveryPending = some p → (s.operations p).begun = true ∧
    (s.operations p).generation = s.sessionAbort
  current : s.disposed = false → s.sessionAbort = s.sessionGeneration
  generations : ∀ i, (s.operations i).generation ≤ s.sessionGeneration

/-- The queue of mutations. -/
structure QueueInv (s : Session) : Prop where
  nodup : s.mutations.Nodup
  members : ∀ i, i ∈ s.mutations ↔
    (s.operations i).mutation = .queued ∨ (s.operations i).mutation = .storing
  storing : ∀ i, (s.operations i).mutation = .storing →
    s.mutations.head? = some i ∧ s.mutating = true
  mutating : s.mutating = true → ∃ i, (s.operations i).mutation = .storing

/-- The cursors that are bound are those that pages have returned. -/
structure CursorInv (s : Session) : Prop where
  bound : ∀ cursor binding, s.cursorBinding? cursor = some binding → (cursor, binding) ∈ s.issued
  issued : ∀ cursor binding, (cursor, binding) ∈ s.issued → s.cursorBinding? cursor ≠ none
  epochs : ∀ i, (s.operations i).epoch ≤ s.epoch
  begun : ∀ i, (s.operations i).epoch = s.epoch →
    ∀ query ∈ (s.operations i).bindings, query ∈ s.issued

/-- The abort of a signal is one of all operations that follow it. -/
structure SignalInv (s : Session) : Prop where
  owner : s.owner ≠ none → ∀ i, (s.operations i).begun = true → s.reasons i ≠ none
  callers : ∀ c, s.callers c ≠ none → ∀ i, (s.operations i).begun = true →
    (s.operations i).caller = some c → s.reasons i ≠ none

structure Inv (config : HubConfig) (s : Session) : Prop where
  identity : IdentityInv config s
  signals : SignalInv s
  sharing : SharingInv [] s
  queue : QueueInv s
  cursors : CursorInv s

/-- What the others leave to an operation. -/
structure Keeps (i : Nat) (s s' : Session) : Prop where
  operation : s'.operations i = s.operations i := by rfl
  reason : ∀ reason, s.reasons i = some reason → s'.reasons i = some reason := by exact fun _ h => h
  wait : s'.waits i = s.waits i ∨
    ∃ d reason, s.waits i = .waiting d ∧ s'.waits i = .left d (.error (abortReason reason)) := by
      exact .inl rfl
  generation : s.sessionGeneration ≤ s'.sessionGeneration := by exact Nat.le_refl _
  disposed : s.disposed = true → s'.disposed = true := by exact id
  result : ∀ p result, (s.operations p).result = some result →
    (s'.operations p).result = some result := by exact fun _ _ h => h
  head : s.mutations.head? = some i → s'.mutations.head? = some i := by exact id
  epoch : s.epoch ≤ s'.epoch := by exact Nat.le_refl _
  issued : s'.epoch = s.epoch → ∀ query ∈ s.issued, query ∈ s'.issued := by exact fun _ _ h => h
  published : s'.sessionGeneration = s.sessionGeneration → ∀ d ∈ s.published, d ∈ s'.published := by
    exact fun _ _ h => h
  fetched : ∀ p statuses (decode : JsString → Except Thrown HubDiscovery) d,
    Fetched (s.operations p) .discovery statuses decode d →
      Fetched (s'.operations p) .discovery statuses decode d

end Hub
