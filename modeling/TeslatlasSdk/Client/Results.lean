import TeslatlasSdk.Client.Operations
import TeslatlasSdk.Http.BodyLaws

/-!
# The results of the client

What a call of the client settles with is compared with the request that it has sent and with the
response that it has been given.  The rules of threads carry that to every run.
-/

open Text Core Json Http Events Client

namespace TeslatlasClient

/-! ## What a call may settle with -/

/-- The value and the location of a response belong to what a call asks for. -/
def ClientCall.Matches (config : ClientConfig) (call : ClientCall) (value : Value)
    (location : Option JsString) : Prop :=
  match call with
  | .read call => call.Owns value
  | .write _ (.createMetadata vehicleId _) _ => OwnsCreated vehicleId value location
  | .write _ (.replaceMetadata metadataId _ _) _ => HasId value "metadata_id" metadataId
  | .write _ (.deleteMetadata metadataId _) _ => HasId value "metadata_id" metadataId
  | .createCommand heap body _ _ =>
      ∃ snapshot, snapshotCommandRequest config.session.toClientSession heap body = .ok snapshot ∧
        OwnsCommand snapshot.value value location
  | _ => True

/-- What a read that is not modified rests on. -/
def Confirmed (config : ClientConfig) (x : Exchange) (call : ReadCall) : Prop :=
  ∃ request response, x.request = some request ∧ x.response = some response ∧
    response.status = 304 ∧
    (∃ condition tag, request.init.ifNoneMatch = some condition ∧
      response.entityTag = some tag ∧ opaqueTag condition = opaqueTag tag) ∧
    WasEmpty response x.body ∧
    (call.descriptor.versioned = true →
      ∃ version ∈ config.session.acceptedResponseVersions, response.protocolVersion = some version)

/-- What a result rests on that has a value. -/
def Answered (config : ClientConfig) (x : Exchange) (call : ClientCall) (result : WriteResult) :
    Prop :=
  ∃ response, x.response = some response ∧ response.status ≠ 304 ∧
    x.decoded = some result.value ∧ call.Matches config result.value response.location

/-- What a call has to have for a result. -/
def Rests (config : ClientConfig) (x : Exchange) (call : ClientCall) : ClientResult → Prop
  | .read (.notModified _) =>
      x.decoded = none ∧ ∃ read, call = .read read ∧ Confirmed config x read
  | .read (.modified result) => Answered config x call result
  | .written result => Answered config x call result
  | .session _ _ =>
      x.decoded = none ∧ ∀ response, x.response = some response → response.status ≠ 304
  | .done => x.decoded = none ∧ x.response = none

/-- A call settles: the body of its response is released, and a result has what it rests on. -/
structure Settles (config : ClientConfig) (call : ClientCall)
    (result : Except Thrown ClientResult) (x : Exchange) : Prop where
  released : ∀ response, x.response = some response → Released response x.body
  rests : ∀ found, result = .ok found → Rests config x call found

/-! ## The logic -/

def Permits (config : ClientConfig) (s : ClientState) (event : ClientEvent) : Prop :=
  match event.action with
  | .settled call result => Settles config call result (s.exchanges event.thread)
  | _ => True

theorem record_exchanges {s : ClientState} {event : ClientEvent} {i : Nat}
    (h : event.thread ≠ i) : (s.record event).exchanges i = s.exchanges i := by
  obtain ⟨thread, action⟩ := event
  have hne : i ≠ thread := fun heq => h heq.symm
  cases action with
  | dispatched | responded | body | decoded => exact if_neg hne
  | settled | aborted | cancellationSet => rfl

/-- A thread's exchange is its own. -/
def clientLogic (config : ClientConfig) : Logic (clientSystem config) where
  permits := Permits config
  actor event := event.thread
  Inv _ := True
  Keeps i s s' := s'.exchanges i = s.exchanges i
  Fresh s i := s.exchanges i = {}
  Parked _ _ _ _ := True
  Halted _ _ := True
  inv_initial := trivial
  inv_record _ _ := trivial
  keeps_refl _ _ := rfl
  keeps_trans h h' := h'.trans h
  keeps_record _ _ h := record_exchanges h
  fresh_initial _ := rfl
  fresh_keeps h hfresh := h.trans hfresh
  parked_keeps _ _ := trivial
  halted_keeps _ _ := trivial

/-- An assertion about the exchange of a thread. -/
def At (i : Nat) (A : Exchange → Prop) (s : ClientState) : Prop := A (s.exchanges i)

section Triples

variable {config : ClientConfig} {i : Nat}

theorem stable_at (A : Exchange → Prop) : (clientLogic config).Stable i (At i A) := by
  intro s s' hkeeps hs
  have hexchange : s'.exchanges i = s.exchanges i := hkeeps
  rw [At, hexchange]
  exact hs

theorem exchange_update (s : ClientState) (change : Exchange → Exchange) :
    (s.update i change).exchanges i = change (s.exchanges i) := if_pos rfl

theorem record_body (s : ClientState) (event : BodyEvent) :
    (s.record ⟨i, .body event⟩).exchanges i =
      { s.exchanges i with body := (s.exchanges i).body.record event } := if_pos rfl

theorem bodyLaws : BodyLaws (clientLogic config) (exchangeHost i) i where
  actor _ := rfl
  permits _ _ := trivial
  view_record {s} event := congrArg Exchange.body (record_body s event)
  view_keeps h := congrArg Exchange.body h
  parked _ _ _ := trivial

/-- The request and the response of a thread that has decoded nothing yet. -/
def Given (i : Nat) (request : BuiltRequest) (response : Response) : ClientState → Prop :=
  At i fun x => x.request = some request ∧ x.response = some response ∧ x.decoded = none

theorem frame_given (request : BuiltRequest) (response : Response) :
    Frame (clientLogic config) (exchangeHost i) i (Given i request response) where
  stable := stable_at _
  body {s} event hs := by
    have hbody : (s.record ⟨i, .body event⟩).exchanges i =
        { s.exchanges i with body := (s.exchanges i).body.record event } := record_body s event
    show At i _ (s.record ⟨i, .body event⟩)
    rw [At, hbody]
    exact hs

-- An action that changes the exchange of the thread.
theorem triple_act {A B : Exchange → Prop} {action : ClientAction}
    (change : Exchange → Exchange) (hpermits : ∀ s, Permits config s ⟨i, action⟩)
    (hrecord : ∀ s, ClientState.record s ⟨i, action⟩ = s.update i change)
    (hchange : ∀ x, A x → B (change x)) :
    (clientLogic config).Triple i (At i A) (act i action) fun r s => r = .ok () ∧ At i B s := by
  refine .perform rfl fun s _ hs => ⟨hpermits s, rfl, ?_⟩
  show At i B (ClientState.record s ⟨i, action⟩)
  rw [hrecord, At, exchange_update]
  exact hchange _ hs

variable (config) in
theorem act_bind {β : Type} {A B : Exchange → Prop} {action : ClientAction}
    (change : Exchange → Exchange) {f : Unit → ClientAsync β}
    {R : Except Thrown β → ClientState → Prop} (hpermits : ∀ s, Permits config s ⟨i, action⟩)
    (hrecord : ∀ s, ClientState.record s ⟨i, action⟩ = s.update i change)
    (hchange : ∀ x, A x → B (change x))
    (hf : (clientLogic config).Triple i (At i B) (f ()) R) :
    (clientLogic config).Triple i (At i A) (act i action >>= f) R := by
  refine .bind (triple_act change hpermits hrecord hchange)
    (fun _ => hf.weaken (fun s hs => hs.2) fun _ _ hr => hr) ?_
  rintro e s ⟨herror, -⟩
  cases herror

/-! ## Requests -/

/-- A thread that has been given no response. -/
def Unanswered (i : Nat) : ClientState → Prop := At i fun x => x.response = none ∧ x.decoded = none

theorem quiet_authorization (signal : Option Nat) :
    (clientLogic config).Quiet i (authorization signal) := by
  have hthrow : (clientLogic config).Quiet i (do
      throw (abortReason (((← Async.get).signal signal).getD .undefined)) :
        ClientAsync (Option JsString)) := .get_bind fun s => .throw _
  refine .bind (.await fun _ _ _ => trivial) fun answer => ?_
  cases answer with
  | authorization result => exact .ofExcept result
  | tick | aborted | response | chunk | credential | mutation => exact hthrow

theorem quiet_throwIfAlreadyAborted (signal : Option Nat) :
    (clientLogic config).Quiet i (throwIfAlreadyAborted signal) := by
  refine .get_bind fun s => ?_
  cases s.signal signal with
  | none => exact .pure ()
  | some reason => exact .throw _

theorem triple_send (signal : Option Nat) (base : Url) (isAuthorized : Bool)
    (request : BuiltRequest) :
    (clientLogic config).Triple i (At i (· = {})) (send config i signal base isAuthorized request)
      (Outcome (fun response => At i (· = { request := some request, response := some response }))
        (Unanswered i)) := by
  have hunanswered : ∀ (sent : Option BuiltRequest) s, At i (· = { request := sent }) s →
      Unanswered i s := by
    intro sent s hs
    have hx : s.exchanges i = { request := sent } := hs
    rw [Unanswered, At, hx]
    exact ⟨rfl, rfl⟩
  refine .ofExcept_bind (fun url _ => ?_) fun _ s _ hs => hunanswered none s hs
  refine .ofExcept_bind (fun _ _ => ?_) fun _ s _ hs => hunanswered none s hs
  refine .bind (bodyLaws.request (P := At i (· = {})) (W := At i (· = {}))
      (Q := At i (· = { request := some request })) (E := Unanswered i)
      (ClientState.signal signal) (stable_at _) (stable_at _) (hunanswered none)
      (hunanswered (some request)) (fun _ _ _ _ => trivial) (fun value hvalue => ?_)
      (.pure fun s hs => hs) fun value => ?_) (fun response => ?_) fun _ _ hs => hs
  · have hquiet : value = authorization signal := by
      cases isAuthorized with
      | true => exact (Option.some.inj hvalue).symm
      | false => cases hvalue
    rw [hquiet]
    exact quiet_authorization signal _ (stable_at _)
  · have hdispatched : (clientLogic config).Triple i (At i (· = {}))
        (act i (.dispatched url request value))
        fun r s => r = .ok () ∧ At i (· = { request := some request }) s :=
      triple_act ({ · with request := some request }) (fun _ => trivial) (fun _ => rfl)
        fun x hx => by rw [hx]
    refine hdispatched.weaken (fun _ hs => hs) ?_
    rintro r s ⟨rfl, hs⟩
    exact hs
  · refine act_bind config (A := (· = { request := some request }))
      (B := (· = { request := some request, response := some response }))
      ({ · with response := some response }) (fun _ => trivial) (fun _ => rfl)
      (fun x hx => by rw [hx]) ?_
    exact .pure fun s hs => hs

/-! ## Reads -/

theorem given_untouched {request : BuiltRequest} {response : Response} {s : ClientState}
    (h : At i (· = { request := some request, response := some response }) s) :
    Viewed (exchangeHost i) (Given i request response) Untouched s := by
  have hx : s.exchanges i = { request := some request, response := some response } := h
  refine ⟨?_, ?_⟩
  · rw [Given, At, hx]
    exact ⟨rfl, rfl, rfl⟩
  · show (s.exchanges i).body = {}
    rw [hx]

theorem matchesCondition_eq_true {ifNoneMatch etag : Option JsString}
    (h : matchesCondition ifNoneMatch etag = true) :
    ∃ condition tag, ifNoneMatch = some condition ∧ etag = some tag ∧
      opaqueTag condition = opaqueTag tag := by
  unfold matchesCondition at h
  split at h
  · next condition tag => exact ⟨condition, tag, rfl, rfl, of_decide_eq_true h⟩
  · cases h

-- A versioned read is answered in a version that the session accepts.
theorem accepted_version {config : ClientConfig} {call : ReadCall} {version : Option JsString}
    (hversioned : call.descriptor.versioned = true)
    (h : acceptsVersion
      (readRequirements config.session call).toResponseMetadataRequirements version = true) :
    ∃ accepted ∈ config.session.acceptedResponseVersions, version = some accepted := by
  rw [acceptsVersion, readRequirements, if_pos hversioned, Option.all_some] at h
  cases version with
  | none => cases h
  | some version => exact ⟨version, List.contains_iff_mem.mp h, rfl⟩

-- A thread that has been given no response settles with an error.
theorem settles_unanswered {call : ClientCall} {e : Thrown} {s : ClientState}
    (h : Unanswered i s) : Settles config call (.error e) (s.exchanges i) where
  released response hresponse := by
    rw [h.1] at hresponse
    cases hresponse
  rests _ hfound := by cases hfound

theorem given_released {request : BuiltRequest} {response : Response} {s : ClientState}
    (h : Viewed (exchangeHost i) (Given i request response) (Released response) s) :
    ∀ r, (s.exchanges i).response = some r → Released r (s.exchanges i).body := by
  intro other hother
  rw [h.1.2.1] at hother
  obtain rfl := Option.some.inj hother
  exact h.2

-- A thread whose response is released settles with an error.
theorem settles_released {call : ClientCall} {e : Thrown} {request : BuiltRequest}
    {response : Response} {s : ClientState}
    (h : Viewed (exchangeHost i) (Given i request response) (Released response) s) :
    Settles config call (.error e) (s.exchanges i) where
  released := given_released h
  rests _ hfound := by cases hfound

theorem request_ifNoneMatch {session : ReadSession} {call : ReadCall} {request : BuiltRequest}
    (h : call.request session = .ok request) :
    request.init.ifNoneMatch = call.conditional.ifNoneMatch := by
  have hgate := call.request_eq session
  rw [Gated] at hgate
  split at hgate
  · rw [h, read, buildReadRequest] at hgate
    obtain ⟨path, -, hrequest⟩ := bind_eq_ok.mp hgate.symm
    obtain rfl := Except.ok.inj hrequest
    rfl
  · obtain ⟨e, herror⟩ := hgate
    rw [h] at herror
    cases herror

theorem stable_sent (request : BuiltRequest) (r : Except Thrown Response) :
    (clientLogic config).Stable i
      (Outcome (fun response => At i (· = { request := some request, response := some response }))
        (Unanswered i) r) := by
  cases r with
  | ok response => exact stable_at (· = { request := some request, response := some response })
  | error e => exact stable_at fun x => x.response = none ∧ x.decoded = none

theorem unanswered_initial {s : ClientState} (h : At i (· = {}) s) : Unanswered i s := by
  have hx : s.exchanges i = {} := h
  rw [Unanswered, At, hx]
  exact ⟨rfl, rfl⟩

-- A request that is built and sent, in front of what is done with its response.
theorem send_bind {call : ClientCall} {signal : Option Nat} {base : Url} {isAuthorized : Bool}
    {request : BuiltRequest} {f : Response → ClientAsync ClientResult}
    (hf : ∀ response, (clientLogic config).Triple i
      (Viewed (exchangeHost i) (Given i request response) Untouched) (f response)
      fun r => At i (Settles config call r)) :
    (clientLogic config).Triple i (At i (· = {}))
      (awaited (send config i signal base isAuthorized request) >>= f)
      fun r => At i (Settles config call r) :=
  .bind (bodyLaws.awaited (triple_send signal base isAuthorized request) (stable_sent request))
    (fun response => (hf response).weaken (fun _ hs => given_untouched hs) fun _ _ hr => hr)
    fun _ _ hs => settles_unanswered hs

/-- What a thread has when its response has been decoded. -/
structure HasDecoded (response : Response) (result : WriteResult) (x : Exchange) : Prop where
  location : result.metadata.location = response.location
  given : x.response = some response
  decoded : x.decoded = some result.value
  read : WasRead response x.body

theorem HasDecoded.released {response : Response} {result : WriteResult} {x : Exchange}
    (h : HasDecoded response result x) : ∀ r, x.response = some r → Released r x.body := by
  intro other hother
  rw [h.given] at hother
  obtain rfl := Option.some.inj hother
  exact h.read.released

theorem HasDecoded.settles {response : Response} {result : WriteResult} {x : Exchange}
    (h : HasDecoded response result x) (call : ClientCall) (e : Thrown) :
    Settles config call (.error e) x where
  released := h.released
  rests _ hfound := by cases hfound

-- A decoded result that belongs to what was asked for.
theorem HasDecoded.answered {response : Response} {result : WriteResult} {x : Exchange}
    (h : HasDecoded response result x) {call : ClientCall} (hstatus : response.status ≠ 304)
    (hmatches : call.Matches config result.value result.metadata.location) :
    Answered config x call result :=
  ⟨response, h.given, hstatus, h.decoded, h.location ▸ hmatches⟩

-- The end of an operation that has decoded a result: its identity is checked.
theorem decoded_bind {call : ClientCall} {request : BuiltRequest} {response : Response}
    {result : WriteResult} {found : ClientResult} {check : Except Thrown Unit}
    {signal : Option Nat} (hstatus : response.status ≠ 304)
    (hcheck : ∀ u, check = .ok u → call.Matches config result.value result.metadata.location)
    (hfound : ∀ x, Answered config x call result → Rests config x call found) :
    (clientLogic config).Triple i
      (Succeeded (exchangeHost i) (Given i request response) response result) (do
        act i (.decoded result.value)
        Async.ofExcept check
        throwIfAlreadyAborted signal
        return found)
      fun r => At i (Settles config call r) := by
  refine .weaken (W := At i fun x => result.metadata.location = response.location ∧
    (x.request = some request ∧ x.response = some response ∧ x.decoded = none) ∧
      WasRead response x.body) ?_ (fun s hs => hs) fun _ _ hr => hr
  refine act_bind config (B := HasDecoded response result) ({ · with decoded := some result.value })
    (fun _ => trivial) (fun _ => rfl) (fun x hx => ⟨hx.1, hx.2.1.2.1, rfl, hx.2.2⟩) ?_
  refine .ofExcept_bind (fun u hu => ?_) fun e s _ hs => HasDecoded.settles hs call e
  refine (quiet_throwIfAlreadyAborted signal).bind_triple (stable_at _) (fun _ => ?_)
    fun e s hs => HasDecoded.settles hs call e
  refine .pure fun s hs => ⟨HasDecoded.released hs, ?_⟩
  rintro _ ⟨⟩
  exact hfound _ (HasDecoded.answered hs hstatus (hcheck u hu))

theorem triple_runRead (call : ReadCall) :
    (clientLogic config).Triple i (At i (· = {})) (runRead config i call)
      fun r => At i (Settles config (.read call) r) := by
  refine .ofExcept_bind (fun request hrequest => ?_)
    fun e s _ hs => settles_unanswered (unanswered_initial hs)
  refine send_bind fun response => ?_
  have hframe : Frame (clientLogic config) (exchangeHost i) i (Given i request response) :=
    frame_given request response
  refine .bind (bodyLaws.awaited (bodyLaws.decodeReadResponse _ config.decoder hframe response _ _ _)
    (bodyLaws.stable_releases hframe (bodyLaws.stable_readSound hframe))) (fun result => ?_)
    fun _ _ hs => settles_released hs
  cases result with
  | modified decoded =>
    refine .assume fun hstatus => ?_
    have hother : response.status ≠ 304 := by
      rw [hstatus]
      decide
    exact decoded_bind hother (fun u hu => validateReadIdentity_owns hu) fun x hx => hx
  | notModified metadata =>
    refine .assume fun hstatus => .assume fun hconfirms => ?_
    have hstable : (clientLogic config).Stable i
        (Viewed (exchangeHost i) (Given i request response) (WasEmpty response)) :=
      bodyLaws.stable_viewed hframe _
    refine (quiet_throwIfAlreadyAborted call.conditional.signal).bind_triple hstable (fun _ => ?_)
      fun e s hs => settles_released (Viewed.mono (fun _ h => h.released) hs)
    refine .pure fun s hs => ⟨given_released (Viewed.mono (fun _ h => h.released) hs), ?_⟩
    rintro _ ⟨⟩
    refine ⟨hs.1.2.2, call, rfl, request, response, hs.1.1, hs.1.2.1, hstatus, ?_, hs.2, ?_⟩
    · rw [request_ifNoneMatch hrequest]
      exact matchesCondition_eq_true hconfirms.condition
    · exact fun hversioned => accepted_version hversioned hconfirms.version

/-! ## Writes -/

theorem MetadataWrite.successStatus_ne {n : Nat} (call : MetadataWrite n) :
    (call.requirements config).successStatus ≠ 304 := by
  cases call with
  | createMetadata =>
    show 201 ≠ 304
    decide
  | replaceMetadata | deleteMetadata =>
    show 200 ≠ 304
    decide

theorem MetadataWrite.validateIdentity_owns {n : Nat} {heap : Heap n} {call : MetadataWrite n}
    {signal : Option Nat} {result : WriteResult} {u : Unit}
    (h : call.validateIdentity result = .ok u) :
    (ClientCall.write heap call signal).Matches config result.value result.metadata.location := by
  cases call with
  | createMetadata vehicleId body => exact validateCreatedIdentity_owns h
  | replaceMetadata metadataId body ifMatch => exact requireIdentity_ok h
  | deleteMetadata metadataId ifMatch => exact requireIdentity_ok h

variable (config) in
-- A write's response becomes a result that belongs to it, or an error.
theorem triple_decodeWrite (call : ClientCall) {signal : Option Nat} {request : BuiltRequest}
    {response : Response} {validator : ProtocolValidator} {validatorName : String}
    {requirements : WriteResponseRequirements} (check : WriteResult → Except Thrown Unit)
    (hstatus : requirements.successStatus ≠ 304)
    (hcheck : ∀ result u, check result = .ok u →
      call.Matches config result.value result.metadata.location)
    (hfound : ∀ x result, Answered config x call result → Rests config x call (.written result)) :
    (clientLogic config).Triple i
      (Viewed (exchangeHost i) (Given i request response) Untouched) (do
        let result ← awaited (decodeWriteResponse (exchangeHost i) (ClientState.signal signal)
          config.decoder response validator validatorName requirements)
        act i (.decoded result.value)
        Async.ofExcept (check result)
        throwIfAlreadyAborted signal
        return .written result)
      fun r => At i (Settles config call r) := by
  have hframe : Frame (clientLogic config) (exchangeHost i) i (Given i request response) :=
    frame_given request response
  have hstable : ∀ result : WriteResult, (clientLogic config).Stable i fun s =>
      response.status = requirements.successStatus ∧
        Succeeded (exchangeHost i) (Given i request response) response result s :=
    fun result s s' hkeeps hs => ⟨hs.1, bodyLaws.stable_succeeded hframe result s s' hkeeps hs.2⟩
  refine .bind (bodyLaws.awaited (bodyLaws.decodeWriteResponse _ config.decoder hframe response
    _ _ _) (bodyLaws.stable_releases hframe hstable)) (fun result => ?_)
    fun _ _ hs => settles_released hs
  refine .assume fun hsuccess => ?_
  exact decoded_bind (hsuccess ▸ hstatus) (hcheck result) fun x hx => hfound x result hx

theorem triple_runWrite {n : Nat} (heap : Heap n) (call : MetadataWrite n)
    (signal : Option Nat) :
    (clientLogic config).Triple i (At i (· = {})) (runWrite config i signal heap call)
      fun r => At i (Settles config (.write heap call signal) r) := by
  refine .get_bind fun s _ hs => ?_
  refine .weaken (W := At i (· = {})) ?_ (fun s' heq => heq ▸ hs) fun _ _ hr => hr
  refine .ofExcept_bind (fun request _ => ?_)
    fun e s _ hs => settles_unanswered (unanswered_initial hs)
  refine send_bind fun response => ?_
  exact triple_decodeWrite config _ _ call.successStatus_ne (fun result u hu => call.validateIdentity_owns hu)
    fun x result hx => hx

/-! ## Commands -/

theorem Settles.rethrown {call : ClientCall} {e e' : Thrown} {x : Exchange}
    (h : Settles config call (.error e) x) : Settles config call (.error e') x where
  released := h.released
  rests _ hfound := by cases hfound

theorem triple_runCommand {n : Nat} (heap : Heap n) (body : HeapValue n) (idempotencyKey : JsString)
    (signal : Option Nat) :
    (clientLogic config).Triple i (At i (· = {}))
      (runCommand config i signal heap body idempotencyKey)
      fun r => At i (Settles config (.createCommand heap body idempotencyKey signal) r) := by
  refine .get_bind fun s _ hs => ?_
  refine .weaken (W := At i (· = {})) ?_ (fun s' heq => heq ▸ hs) fun _ _ hr => hr
  refine .ofExcept_bind (fun request _ => ?_)
    fun e s _ hs => settles_unanswered (unanswered_initial hs)
  refine .ofExcept_bind (fun snapshot hsnapshot => ?_)
    fun e s _ hs => settles_unanswered (unanswered_initial hs)
  refine .attempt_bind (bodyLaws.awaited (triple_send signal config.apiUrl config.isAuthorized
    request) (stable_sent request)) fun sent => ?_
  cases sent with
  | error error =>
    refine .get_bind fun s _ hs => ?_
    have hunanswered : ∀ s', s' = s → Unanswered i s' := fun s' heq => heq ▸ hs
    exact .ite (fun _ => .throw fun s' heq => settles_unanswered (hunanswered s' heq))
      fun _ => .throw fun s' heq => settles_unanswered (hunanswered s' heq)
  | ok response =>
    refine .weaken (W := Viewed (exchangeHost i) (Given i request response) Untouched) ?_
      (fun s hs => given_untouched hs) fun _ _ hr => hr
    refine .attempt_bind (triple_decodeWrite config
      (.createCommand heap body idempotencyKey signal)
      (fun result => validateCommandIdentity result snapshot.value "validateCommandJob")
      (show 202 ≠ 304 by decide) (fun result u hu => ⟨snapshot, hsnapshot, validateCommandIdentity_owns hu⟩)
      fun x result hx => hx) fun result => ?_
    cases result with
    | ok result => exact .pure fun s hs => hs
    | error error =>
      exact .ite (fun _ => .throw fun s hs => Settles.rethrown hs)
        fun _ => .throw fun s hs => Settles.rethrown hs

/-! ## Sessions -/

theorem triple_createClientSession (baseUrl : Option Url) (requestedVersion : Option JsString)
    (signal : Option Nat) :
    (clientLogic config).Triple i (At i (· = {}))
      (createClientSession config i signal baseUrl requestedVersion)
      fun r => At i (Settles config (.connect baseUrl requestedVersion signal) r) := by
  cases baseUrl with
  | none => exact .throw fun s hs => settles_unanswered (unanswered_initial hs)
  | some base =>
    refine send_bind fun response => ?_
    have hframe : Frame (clientLogic config) (exchangeHost i) i
        (Given i (discoveryRequest signal) response) := frame_given _ response
    have hread : ∀ value : Value, (clientLogic config).Stable i fun s => response.status = 200 ∧
        Viewed (exchangeHost i) (Given i (discoveryRequest signal) response) (WasRead response) s :=
      fun _ s s' hkeeps hs => ⟨hs.1, bodyLaws.stable_viewed hframe _ s s' hkeeps hs.2⟩
    refine .bind (bodyLaws.awaited (bodyLaws.withResponseOwnership (R := fun _ s =>
      response.status = 200 ∧ Viewed (exchangeHost i) (Given i (discoveryRequest signal) response)
        (WasRead response) s) hframe hread ?_) (bodyLaws.stable_releases hframe hread))
      (fun descriptor => .assume fun hstatus => ?_) fun _ _ hs => settles_released hs
    · refine .ofExcept_bind (fun _ hstatus => ?_) fun _ _ _ hs => hs.mono fun _ h => h.guarded
      refine untouched_bind bodyLaws hframe (.ofExcept _) fun _ => ?_
      refine untouched_bind bodyLaws hframe (.ofExcept _) fun _ => ?_
      have hok : response.status = 200 := by simpa using rejectIf_eq_ok.mp hstatus
      refine (bodyLaws.decodeBody _ hframe response _ _).weaken (fun _ hs => hs) fun r s hs => ?_
      cases r with
      | ok value => exact ⟨hok, hs⟩
      | error e => exact hs
    · have hreleased : ∀ s, Viewed (exchangeHost i) (Given i (discoveryRequest signal) response)
          (WasRead response) s → Viewed (exchangeHost i)
          (Given i (discoveryRequest signal) response) (Released response) s :=
        fun s hs => hs.mono fun _ h => h.released
      refine .ofExcept_bind (fun _ _ => ?_) fun e s _ hs => settles_released (hreleased s hs)
      refine .ofExcept_bind (fun version _ => ?_) fun e s _ hs => settles_released (hreleased s hs)
      refine .pure fun s hs => ⟨given_released (hreleased s hs), ?_⟩
      rintro _ ⟨⟩
      refine ⟨hs.1.2.2, fun other hother => ?_⟩
      rw [hs.1.2.1] at hother
      obtain rfl := Option.some.inj hother
      rw [hstatus]
      decide

/-! ## Threads -/

-- A call that sends nothing.
theorem triple_setting {call : ClientCall} {action : ClientAction}
    (hpermits : ∀ s, Permits config s ⟨i, action⟩)
    (hrecord : ∀ s, (ClientState.record s ⟨i, action⟩).exchanges = s.exchanges) :
    (clientLogic config).Triple i (At i (· = {})) (do
        act i action
        return .done)
      fun r => At i (Settles config call r) := by
  refine .bind (Q := fun r s => r = .ok () ∧ At i (· = {}) s) (.perform rfl fun s _ hs =>
    ⟨hpermits s, rfl, ?_⟩) (fun _ => ?_) ?_
  · show At i (· = {}) (ClientState.record s ⟨i, action⟩)
    rw [At, hrecord]
    exact hs
  · refine .pure fun s hs => ?_
    have hx : s.exchanges i = {} := hs.2
    rw [At, hx]
    have hnone : ∀ response, (none : Option Response) = some response →
        Released response {} := nofun
    refine ⟨hnone, ?_⟩
    rintro _ ⟨⟩
    exact ⟨rfl, rfl⟩
  · rintro e s ⟨herror, -⟩
    cases herror

theorem triple_operation (call : ClientCall) :
    (clientLogic config).Triple i (At i (· = {})) (config.operation i call)
      fun r => At i (Settles config call r) := by
  cases call with
  | connect baseUrl requestedVersion signal =>
    exact triple_createClientSession baseUrl requestedVersion signal
  | read call => exact triple_runRead call
  | write heap call signal => exact triple_runWrite heap call signal
  | createCommand heap body idempotencyKey signal =>
    exact triple_runCommand heap body idempotencyKey signal
  | abort caller reason => exact triple_setting (fun _ => trivial) fun _ => rfl
  | setCancellation cancellation => exact triple_setting (fun _ => trivial) fun _ => rfl

end Triples

theorem callsHold (config : ClientConfig) : (clientLogic config).CallsHold := by
  intro call i s hinv hfresh
  have hthread : (clientLogic config).Triple i (At i (· = {})) (do
      let result ← (config.operation i call).attempt
      act i (.settled call result)) fun _ _ => True :=
    .attempt_bind (triple_operation call) fun result =>
      .perform rfl fun s _ hs => ⟨hs, trivial⟩
  exact hthread.toProgram (fun _ _ _ => trivial) hinv
    (fun j hj => hfresh j (by omega)) (Nat.lt_succ_self i) (hfresh i (Nat.le_refl i))

/-! ## Runs -/

def resultsMonitor (config : ClientConfig) : Monitor ClientState ClientEvent :=
  (clientLogic config).monitor

-- In every run, a call that settles with a result has what the result rests on.
theorem results_permitted (config : ClientConfig)
    (inputs : List (SystemInput (Answer Empty) ClientCall)) :
    (resultsMonitor config).Permitted {} ((clientSystem config).machine.run inputs).2 :=
  (Logic.follows_run (callsHold config) inputs).1

end TeslatlasClient
