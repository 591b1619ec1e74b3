import TeslatlasSdk.Client.Results
import TeslatlasSdk.Http.ErrorLaws

/-!
# The outcomes of the client's calls

A call sends one request at most.  What it settles with is accounted for by how far it has come:
before the dispatch, between the dispatch and the response, or behind the response.
-/

open Text Core Json Http Events Client Protocol

namespace TeslatlasClient

/-! ## What a call asks for -/

/-- The signal that a call is given. -/
def ClientCall.signal : ClientCall → Option Nat
  | .connect _ _ signal => signal
  | .read call => call.conditional.signal
  | .write _ _ signal => signal
  | .createCommand _ _ _ signal => signal
  | .abort _ _ => none
  | .setCancellation _ => none

/-- The request that a call of thread `i` sends and the base of its URL, if it sends one. -/
def ClientCall.prepare (config : ClientConfig) (i : Nat) (s : ClientState) :
    ClientCall → Except Thrown (Option (Url × BuiltRequest))
  | .connect none _ _ => .error (.teslatlas .invalidBaseUrl)
  | .connect (some base) _ signal => .ok (some (base, discoveryRequest signal))
  | .read call =>
      (call.request config.session.toReadSession).map fun request =>
        some (if call.operation = .discoverHub then config.discoveryUrl else config.apiUrl, request)
  | .write heap call signal =>
      (call.request config heap (callSignal signal s)).map fun request =>
        some (config.apiUrl, request)
  | .createCommand heap body idempotencyKey signal =>
      (Client.createCommand config.session.toClientSession config.bodyValidators heap heap body
        idempotencyKey (callSignal signal s) i).map fun request => some (config.apiUrl, request)
  | .abort _ _ => .ok none
  | .setCancellation _ => .ok none

/-- The statuses of a call's results. -/
def ClientCall.expected (config : ClientConfig) : ClientCall → List Nat
  | .connect _ _ _ => [200]
  | .read _ => [200, 304]
  | .write _ call _ => [(call.requirements config).successStatus]
  | .createCommand _ _ _ _ => [202]
  | .abort _ _ => []
  | .setCancellation _ => []

/-- The value has been decoded from the body of the response by the validator of the call. -/
def ClientCall.Admits (config : ClientConfig) (response : Response) (view : BodyView)
    (value : Value) : ClientCall → Prop
  | .connect _ _ _ =>
      IsDecoded response view config.validators.validateDiscovery "validateDiscovery" value
  | .read call =>
      IsDecoded response view (readValidator config.validators call.operation)
        (readValidatorName call.operation) value
  | .write _ call _ => IsDecoded response view (call.validator config) call.validatorName value
  | .createCommand _ _ _ _ =>
      IsDecoded response view config.validators.validateCommandJob "validateCommandJob" value
  | .abort _ _ => False
  | .setCancellation _ => False

/-- What a call checks of a value that it has decoded. -/
def ClientCall.check (config : ClientConfig) (result : WriteResult) :
    ClientCall → Except Thrown Unit
  | .connect _ requestedVersion _ => do
      rejectIf (!config.areEndpointsSecure result.value)
        (protocolValidationError "Discovery.endpoints")
      let _ ← (negotiateProtocolVersion (protocolDescriptor result.value)
        (requestedVersion.getD currentProtocolVersion)).mapError Thrown.teslatlas
  | .read call =>
      validateReadIdentity call.operation result.value call.pathValues call.query
        (readValidatorName call.operation)
  | .write _ call _ => call.validateIdentity result
  | .createCommand heap body _ _ => do
      let snapshot ← snapshotCommandRequest config.session.toClientSession heap body
      validateCommandIdentity result snapshot.value "validateCommandJob"
  | .abort _ _ => .ok ()
  | .setCancellation _ => .ok ()

/-! ## What becomes of a call -/

/-- What the host answers the threads with. -/
abbrev Answers := Nat → List (Answer Empty)

/-- Signals that are aborted stay aborted, with their reasons. -/
def Earlier (s s' : ClientState) : Prop :=
  ∀ caller reason, s.callers caller = some reason → s'.callers caller = some reason

/-- A request that the call has built is that of the thread. -/
def Prepared (config : ClientConfig) (i : Nat) (call : ClientCall) (base : Url)
    (request : BuiltRequest) (s : ClientState) : Prop :=
  ∃ s₀, Earlier s₀ s ∧ call.prepare config i s₀ = .ok (some (base, request))

/-- The errors of a call that has sent nothing. -/
inductive Unsent (config : ClientConfig) (answers : Answers) (i : Nat) (call : ClientCall)
    (s : ClientState) : Thrown → Prop
  | invalid {s₀ : ClientState} {e : Thrown} (hs : Earlier s₀ s)
      (h : call.prepare config i s₀ = .error e) : Unsent config answers i call s e
  | target {base : Url} {request : BuiltRequest} {e : Thrown}
      (hrequest : Prepared config i call base request s)
      (h : resolveRequestUrl config.authorityUrl base request.path = .error e) :
      Unsent config answers i call s e
  /-- The condition of the request is no string of bytes. -/
  | condition {base : Url} {request : BuiltRequest}
      (hrequest : Prepared config i call base request s)
      (h : request.init.ifNoneMatch.any (!isHeaderValue ·) = true) :
      Unsent config answers i call s headersError
  /-- The provider has rejected. -/
  | unauthorized {s₀ : ClientState} {error : Thrown} (hs : Earlier s₀ s)
      (h : .authorization (.error error) ∈ answers i) :
      Unsent config answers i call s (requestError (s₀.signal call.signal) error)
  /-- The provider has lost its race against the signal. -/
  | lost {s₀ : ClientState} (hs : Earlier s₀ s) (h : .aborted ∈ answers i) :
      Unsent config answers i call s (requestError (s₀.signal call.signal) newAbortError)
  /-- The provider's value is no string of bytes. -/
  | header {s₀ : ClientState} {value : JsString} (hs : Earlier s₀ s)
      (h : .authorization (.ok (some value)) ∈ answers i) (hvalue : isHeaderValue value = false) :
      Unsent config answers i call s (requestError (s₀.signal call.signal) headersError)
  | authorization {value : JsString} (h : .authorization (.ok (some value)) ∈ answers i)
      (hvalue : value = [] ∨ containsControlCharacters value = true) :
      Unsent config answers i call s (.teslatlas .invalidAuthorizationValue)
  | aborted {reason : Thrown} (h : s.signal call.signal = some reason) :
      Unsent config answers i call s (abortReason reason)

/-- What may be thrown while the body of a thread's response is read. -/
inductive ReadError (answers : Answers) (cancellations : List Thrown) (i : Nat) : Thrown → Prop
  | read {e : Thrown} (h : .chunk (.error e) ∈ answers i) : ReadError answers cancellations i e
  | cancelled {e : Thrown} (h : e ∈ cancellations) : ReadError answers cancellations i e
  | invalid {e : Thrown} (h : e.isProtocolValidationError = true) :
      ReadError answers cancellations i e
  | locked : ReadError answers cancellations i lockedBodyError
  | aborted : ReadError answers cancellations i newAbortError

/-- The errors of a response that a call has been given, by what has come of its body.  Streams may
throw at once when their readers are cancelled. -/
inductive Rejected (config : ClientConfig) (answers : Answers) (cancellations : List Thrown)
    (i : Nat) (call : ClientCall) (s : ClientState) (response : Response) (view : BodyView) :
    Thrown → Prop
  | response {e : Thrown}
      (h : ResponseError config.decoder response view (call.expected config) e) :
      Rejected config answers cancellations i call s response view e
  | disagrees {result : WriteResult} {e : Thrown}
      (hadmits : call.Admits config response view result.value)
      (hlocation : result.metadata.location = response.location)
      (h : call.check config result = .error e) :
      Rejected config answers cancellations i call s response view e
  | aborted {e : Thrown}
      (h : Aborts (ReadError answers cancellations i) (s.signal call.signal) e) :
      Rejected config answers cancellations i call s response view e
  | cancelling {e : Thrown} (h : e ∈ cancellations) :
      Rejected config answers cancellations i call s response view e

/-- The problem that the body of a command's response carries, or the reason of an abort. -/
def Problematic (config : ClientConfig) (answers : Answers) (cancellations : List Thrown) (i : Nat)
    (s : ClientState) (signal : Option Nat) (response : Response) (view : BodyView) (e : Thrown) :
    Prop :=
  isProtocolHttpError e = true ∧
    ((∃ problem, response.status ≠ 202 ∧ IsProblem config.decoder response view problem ∧
      problemError response problem = .ok e) ∨
      Aborts (ReadError answers cancellations i) (s.signal signal) e)

/-- The fetch of the thread has rejected, and the handler has made the error of it. -/
def FetchFails (answers : Answers) (i : Nat) (s : ClientState) (call : ClientCall)
    (e : Thrown) : Prop :=
  ∃ s₀ error, Earlier s₀ s ∧ .response (.error error) ∈ answers i ∧
    e = requestError (s₀.signal call.signal) error

def ClientCall.isCommand : ClientCall → Bool
  | .createCommand _ _ _ _ => true
  | _ => false

/-- How a call fails that has sent its request.  A command does not tell more than it has to. -/
def SentFails (config : ClientConfig) (answers : Answers) (cancellations : List Thrown)
    (i : Nat) (s : ClientState) (call : ClientCall) (response : Option Response) (e : Thrown) :
    Prop :=
  let view := (s.exchanges i).body
  if call.isCommand then
    e = uncertain ∨ ∃ given, response = some given ∧
      Problematic config answers cancellations i s call.signal given view e
  else
    match response with
    | none => FetchFails answers i s call e
    | some given => Rejected config answers cancellations i call s given view e

/-- How a call fails, by how far it has come. -/
def Fails (config : ClientConfig) (answers : Answers) (cancellations : List Thrown) (i : Nat)
    (s : ClientState) (call : ClientCall) (e : Thrown) : Prop :=
  match (s.exchanges i).request with
  | none => Unsent config answers i call s e
  | some _ => SentFails config answers cancellations i s call (s.exchanges i).response e

/-- What a call's result is made from: the status of the response, and its body. -/
def Delivers (config : ClientConfig) (call : ClientCall) (response : Response) (view : BodyView) :
    ClientResult → Prop
  | .read (.notModified _) => response.status = 304 ∧ ∃ read, call = .read read
  | .read (.modified result) =>
      response.status = 200 ∧ call.Admits config response view result.value ∧
        ∃ read, call = .read read
  | .written result =>
      response.status ∈ call.expected config ∧ call.Admits config response view result.value
  | .session descriptor version =>
      response.status = 200 ∧ call.Admits config response view descriptor ∧
      ∃ baseUrl requestedVersion signal,
        call = .connect baseUrl requestedVersion signal ∧
        config.areEndpointsSecure descriptor = true ∧
        negotiateProtocolVersion (protocolDescriptor descriptor)
          (requestedVersion.getD currentProtocolVersion) = .ok version
  | .done => False

/-- Calls that only tell the model something. -/
def ClientCall.isSetting : ClientCall → Bool
  | .abort _ _ => true
  | .setCancellation _ => true
  | _ => false

/-- A call has settled. -/
structure Accounted (config : ClientConfig) (answers : Answers) (cancellations : List Thrown)
    (i : Nat) (s : ClientState) (call : ClientCall) (result : Except Thrown ClientResult) :
    Prop where
  /-- What the thread has sent is what the call has built. -/
  prepared : ∀ request, (s.exchanges i).request = some request →
    ∃ base, Prepared config i call base request s
  fails : ∀ e, result = .error e → Fails config answers cancellations i s call e
  delivers : ∀ found, result = .ok found → call.isSetting = true ∨
    ∃ request response, (s.exchanges i).request = some request ∧
      (s.exchanges i).response = some response ∧
        Delivers config call response (s.exchanges i).body found

/-! ## The logic -/

def Accounts (config : ClientConfig) (answers : Answers) (cancellations : List Thrown)
    (s : ClientState) (event : ClientEvent) : Prop :=
  let x := s.exchanges event.thread
  match event.action with
  | .dispatched _ _ _ => x.request = none
  | .responded _ => x.request.isSome = true ∧ x.response = none
  | .settled call result =>
      Accounted config answers cancellations event.thread s call result
  | .cancellationSet cancellation => ∀ e, cancellation.reader = some e → e ∈ cancellations
  | _ => True

/-- A thread is answered with nothing else. -/
def admits (answers : Answers) (i : Nat) (answer : Answer Empty) : Bool :=
  (answers i).contains answer

/-- Readers throw nothing else when they are cancelled. -/
def cancels (cancellations : List Thrown) : ClientCall → Bool
  | .setCancellation cancellation => cancellation.reader.all cancellations.contains
  | _ => true

/-- The client where these are the answers of the host and what readers throw. -/
def accountedSystem (config : ClientConfig) (answers : Answers)
    (cancellations : List Thrown) :
    System ClientState ClientEvent Awaited (Answer Empty) ClientCall :=
  (clientSystem config).restrict (cancels cancellations) (admits answers)

theorem Earlier.refl (s : ClientState) : Earlier s s := fun _ _ h => h

theorem Earlier.trans {s s' s'' : ClientState} (h : Earlier s s') (h' : Earlier s' s'') :
    Earlier s s'' :=
  fun caller reason hs => h' caller reason (h caller reason hs)

theorem earlier_record (s : ClientState) (event : ClientEvent) : Earlier s (s.record event) := by
  obtain ⟨thread, action⟩ := event
  intro caller reason hs
  cases action with
  | aborted c new =>
    show (if caller = c then (s.callers caller).or (some new) else s.callers caller) = some reason
    rw [hs]
    exact ite_self _
  | dispatched | responded | body | decoded | settled | cancellationSet => exact hs

theorem Earlier.signal {s s' : ClientState} (h : Earlier s s') {identity : Option Nat}
    {reason : Thrown} (hs : s.signal identity = some reason) :
    s'.signal identity = some reason := by
  cases identity with
  | none => cases hs
  | some caller => exact h caller reason hs

section

variable (config : ClientConfig) (answers : Answers) (cancellations : List Thrown)

def outcomeLogic : Logic (accountedSystem config answers cancellations) where
  permits := Accounts config answers cancellations
  actor event := event.thread
  Inv s := ∀ e, s.cancellation.reader = some e → e ∈ cancellations
  Keeps i s s' := s'.exchanges i = s.exchanges i ∧ Earlier s s'
  Fresh s i := s.exchanges i = {}
  Parked _ _ _ _ := True
  Halted _ _ := True
  inv_initial := nofun
  inv_record {s a} hinv hpermits := by
    obtain ⟨thread, action⟩ := a
    cases action with
    | cancellationSet cancellation => exact hpermits
    | dispatched | responded | body | decoded | settled | aborted => exact hinv
  keeps_refl _ s := ⟨rfl, .refl s⟩
  keeps_trans h h' := ⟨h'.1.trans h.1, h.2.trans h'.2⟩
  keeps_record {i s a} _ _ h := ⟨record_exchanges h, earlier_record s a⟩
  fresh_initial _ := rfl
  fresh_keeps h hfresh := h.1.trans hfresh
  parked_keeps _ _ := trivial
  halted_keeps _ _ := trivial

end

section Triples

variable {config : ClientConfig} {answers : Answers} {cancellations : List Thrown} {i : Nat}
  {call : ClientCall} {base : Url} {request : BuiltRequest} {response : Response}

/-- What a thread has sent and been given. -/
def Has (i : Nat) (request : Option BuiltRequest) (response : Option Response) (s : ClientState) :
    Prop :=
  (s.exchanges i).request = request ∧ (s.exchanges i).response = response

-- What holds of the signals goes on to hold.
theorem frame_lasting {F : ClientState → Prop} (h : ∀ s s', Earlier s s' → F s → F s') :
    Frame (outcomeLogic config answers cancellations) (exchangeHost i) i F where
  stable s s' hkeeps := h s s' hkeeps.2
  body {s} event := h s _ (earlier_record s ⟨i, .body event⟩)

theorem frame_has (sent : Option BuiltRequest) (given : Option Response) :
    Frame (outcomeLogic config answers cancellations) (exchangeHost i) i (Has i sent given) where
  stable s s' hkeeps hs := by
    rw [Has, hkeeps.1]
    exact hs
  body {s} event hs := by
    have hbody := record_body (i := i) s event
    show Has i sent given (s.record ⟨i, .body event⟩)
    rw [Has, hbody]
    exact hs

theorem Prepared.later {s s' : ClientState} (h : Prepared config i call base request s)
    (hs : Earlier s s') : Prepared config i call base request s' := by
  obtain ⟨s₀, hs₀, hrequest⟩ := h
  exact ⟨s₀, hs₀.trans hs, hrequest⟩

theorem Unsent.later {s s' : ClientState} {e : Thrown} (h : Unsent config answers i call s e)
    (hs : Earlier s s') : Unsent config answers i call s' e := by
  cases h with
  | invalid hs₀ h => exact .invalid (hs₀.trans hs) h
  | target hrequest h => exact .target (hrequest.later hs) h
  | condition hrequest h => exact .condition (hrequest.later hs) h
  | unauthorized hs₀ h => exact .unauthorized (hs₀.trans hs) h
  | lost hs₀ h => exact .lost (hs₀.trans hs) h
  | header hs₀ h hvalue => exact .header (hs₀.trans hs) h hvalue
  | authorization h hvalue => exact .authorization h hvalue
  | aborted h => exact .aborted (hs.signal h)

/-- The thread is about to send. -/
def Ready (config : ClientConfig) (i : Nat) (call : ClientCall) (base : Url)
    (request : BuiltRequest) (s : ClientState) : Prop :=
  (Has i none none s ∧ Untouched ((exchangeHost i).view s)) ∧ Prepared config i call base request s

/-- The thread has sent, and been given a response if there is one. -/
def Sent (config : ClientConfig) (i : Nat) (call : ClientCall) (base : Url)
    (request : BuiltRequest) (response : Option Response) (s : ClientState) : Prop :=
  Has i (some request) response s ∧ Prepared config i call base request s

theorem frame_sent (given : Option Response) :
    Frame (outcomeLogic config answers cancellations) (exchangeHost i) i
      (Sent config i call base request given) :=
  (frame_has (some request) given).and (frame_lasting fun _ _ hs h => h.later hs)

theorem readErrors : ReadErrors (· ∈ cancellations) (ReadError answers cancellations i) where
  cancelled := .cancelled
  invalid := .invalid
  locked := .locked
  aborted := .aborted

theorem errorLaws (signal : Option Nat) :
    ErrorLaws (outcomeLogic config answers cancellations) (exchangeHost i) i
      (ClientState.signal signal) (· ∈ cancellations) (ReadError answers cancellations i) where
  actor _ := rfl
  permits _ _ := trivial
  view_record {s} event := congrArg Exchange.body (record_body s event)
  view_keeps h := congrArg Exchange.body h.1
  parked _ _ _ := trivial
  aborted _ := frame_lasting fun _ _ hs h => hs.signal h
  cancelling hinv h := hinv _ h
  errors := readErrors
  chunk {s answer} haccepts := by
    obtain ⟨hanswered, hadmits⟩ := Bool.and_eq_true_iff.mp haccepts
    cases answer with
    | chunk result =>
      refine ⟨result, rfl, ?_⟩
      rintro e rfl
      exact .read (List.contains_iff_mem.mp hadmits)
    | tick | aborted | authorization | response | credential | mutation => cases hanswered
  racedChunk {s e} haccepts := by
    have hadmits : admits answers i (.chunk (.error e)) = true := haccepts
    exact .read (List.contains_iff_mem.mp hadmits)

theorem stable_ready :
    (outcomeLogic config answers cancellations).Stable i (Ready config i call base request) :=
  ((frame_has none none).stable.and (errorLaws none).stable_untouched).and
    (frame_lasting (i := i) fun _ _ hs h => h.later hs).stable

theorem stable_untouched_sent (given : Option Response) :
    (outcomeLogic config answers cancellations).Stable i
      (Viewed (exchangeHost i) (Sent config i call base request given) Untouched) :=
  (frame_sent given).stable.and (errorLaws none).stable_untouched

/-! ## Requests -/

/-- An error of a request that has not been sent, in front of the handler. -/
inductive Refusal (answers : Answers) (i : Nat) (signal : Option Nat) (s : ClientState) :
    Thrown → Prop
  | rejected {e : Thrown} (h : .authorization (.error e) ∈ answers i) : Refusal answers i signal s e
  | lost (h : .aborted ∈ answers i) : Refusal answers i signal s newAbortError
  | value {value : JsString} (h : .authorization (.ok (some value)) ∈ answers i)
      (hvalue : value = [] ∨ containsControlCharacters value = true) :
      Refusal answers i signal s (.teslatlas .invalidAuthorizationValue)
  | header {value : JsString} (h : .authorization (.ok (some value)) ∈ answers i)
      (hvalue : isHeaderValue value = false) : Refusal answers i signal s headersError
  | aborted {reason : Thrown} (h : s.signal signal = some reason) :
      Refusal answers i signal s (abortReason reason)

theorem Refusal.later {s s' : ClientState} {signal : Option Nat} {e : Thrown}
    (h : Refusal answers i signal s e) (hs : Earlier s s') :
    Refusal answers i signal s' e := by
  cases h with
  | rejected h => exact .rejected h
  | lost h => exact .lost h
  | value h hvalue => exact .value h hvalue
  | header h hvalue => exact .header h hvalue
  | aborted h => exact .aborted (hs.signal h)

theorem requestError_abortReason (reason : Thrown) :
    requestError (some reason) (abortReason reason) = abortReason reason := by
  cases reason with
  | undefined | null | teslatlas | sseStreamRead | abortError | other => rfl

-- The handler makes an error of the call of it.
theorem Refusal.unsent {s : ClientState} {e : Thrown}
    (h : Refusal answers i call.signal s e) :
    Unsent config answers i call s (requestError (s.signal call.signal) e) := by
  cases h with
  | rejected h => exact .unauthorized (.refl s) h
  | lost h => exact .lost (.refl s) h
  | value h hvalue => exact .authorization h hvalue
  | header h hvalue => exact .header (.refl s) h hvalue
  | @aborted reason hreason =>
    rw [hreason, requestError_abortReason]
    exact .aborted hreason

/-- An authorization is the provider's own, and is refused for a reason. -/
def Authorizes (answers : Answers) (i : Nat) (signal : Option Nat)
    (r : Except Thrown (Option JsString)) (s : ClientState) : Prop :=
  match r with
  | .ok given => ∀ value, given = some value → .authorization (.ok (some value)) ∈ answers i
  | .error e => Refusal answers i signal s e

theorem triple_authorization {P : ClientState → Prop} (signal : Option Nat)
    (hP : (outcomeLogic config answers cancellations).Stable i P) :
    (outcomeLogic config answers cancellations).Triple i P (authorization signal) fun r s =>
      P s ∧ Authorizes answers i signal r s := by
  have habort : (outcomeLogic config answers cancellations).Triple i
      (fun s => P s ∧ .aborted ∈ answers i) (do
        throw (abortReason (((← Async.get).signal signal).getD .undefined)) :
          ClientAsync (Option JsString)) fun r s => P s ∧ Authorizes answers i signal r s := by
    refine .get_bind fun s _ hs => .throw fun s' heq => ⟨heq ▸ hs.1, ?_⟩
    subst heq
    show Refusal answers i signal s' _
    cases hsignal : s'.signal signal with
    | none => exact .lost hs.2
    | some reason => exact .aborted hsignal
  refine .bind (Q := fun r s => P s ∧ ∃ answer, r = .ok answer ∧
      Awaited.authorization.answeredBy answer = true ∧ answer ∈ answers i)
    (.await (fun _ _ _ _ => trivial) fun s s' answer hs hkeeps _ haccepts => ?_)
    (fun answer => ?_) ?_
  · obtain ⟨hanswered, hadmits⟩ := Bool.and_eq_true_iff.mp haccepts
    exact ⟨hP s s' hkeeps hs, answer, rfl, hanswered, List.contains_iff_mem.mp hadmits⟩
  · cases answer with
    | authorization result =>
      refine .ofExcept fun s hs => ⟨hs.1, ?_⟩
      obtain ⟨-, other, hanswer, -, hmem⟩ := hs
      obtain rfl := Except.ok.inj hanswer
      cases result with
      | ok given =>
        rintro value rfl
        exact hmem
      | error e => exact .rejected hmem
    | tick | aborted | response | chunk | credential | mutation =>
      refine habort.weaken (fun s hs => ⟨hs.1, ?_⟩) fun _ _ hr => hr
      obtain ⟨-, other, hanswer, hanswered, hmem⟩ := hs
      obtain rfl := Except.ok.inj hanswer
      first
        | exact hmem
        | cases hanswered
  · rintro e s ⟨-, answer, herror, -⟩
    cases herror

/-- What is left of a request that is sent, behind the handler and behind the response. -/
def SendEnds (config : ClientConfig) (answers : Answers) (i : Nat) (call : ClientCall)
    (base : Url) (request : BuiltRequest) (given : Response → Option Response)
    (r : Except Thrown Response) (s : ClientState) : Prop :=
  match r with
  | .ok response =>
      Viewed (exchangeHost i) (Sent config i call base request (given response)) Untouched s
  | .error e =>
      (Sent config i call base request none s ∧ FetchFails answers i s call e) ∨
      Has i none none s ∧ Unsent config answers i call s e

theorem record_dispatched (s : ClientState) (url : Url) (value : Option JsString) :
    (s.record ⟨i, .dispatched url request value⟩).exchanges i =
      { s.exchanges i with request := some request } := if_pos rfl

theorem record_responded (s : ClientState) :
    (s.record ⟨i, .responded response⟩).exchanges i =
      { s.exchanges i with response := some response } := if_pos rfl

theorem has_record {s : ClientState} {action : ClientAction} {x : Exchange}
    {sent : Option BuiltRequest} {given : Option Response}
    (h : (s.record ⟨i, action⟩).exchanges i = x) (hsent : x.request = sent)
    (hgiven : x.response = given) : Has i sent given (s.record ⟨i, action⟩) := by
  rw [Has, h]
  exact ⟨hsent, hgiven⟩

theorem triple_sends (isAuthorized : Bool) :
    (outcomeLogic config answers cancellations).Triple i (Ready config i call base request)
      (send config i call.signal base isAuthorized request)
      (SendEnds config answers i call base request some) := by
  have hready : (outcomeLogic config answers cancellations).Stable i
      (Ready config i call base request) := stable_ready
  refine .ofExcept_bind (fun url _ => ?_) fun e s he hs => .inr ⟨hs.1.1, .target hs.2 he⟩
  refine .ofExcept_bind (fun _ _ => ?_) fun e s he hs => ?_
  on_goal 2 =>
    obtain ⟨rfl, hcondition⟩ := mapM_headerValue_error he
    exact .inr ⟨hs.1.1, .condition hs.2 hcondition⟩
  have hrequest : (outcomeLogic config answers cancellations).Triple i
      (Ready config i call base request)
      (Http.request (ClientState.signal call.signal)
        (if isAuthorized then some (authorization call.signal) else none) (pure ())
        fun value => act i (.dispatched url request value))
      (HandledOr (ClientState.signal call.signal)
        (Viewed (exchangeHost i) (Sent config i call base request none) Untouched)
        (fun error => .response (.error error) ∈ answers i)
        fun e s => Has i none none s ∧ Unsent config answers i call s e) := by
    refine (errorLaws call.signal).request_refused (ClientState.signal call.signal)
      (A := fun e s => Has i none none s ∧ Refusal answers i call.signal s e)
      (V := fun given s => Ready config i call base request s ∧
        Authorizes answers i call.signal (.ok given) s)
      (W := fun _ => Ready config i call base request) hready
      (fun _ => hready.and fun _ _ _ h => h) (stable_untouched_sent none)
      (fun e => (frame_has none none).stable.and fun s s' hkeeps h => h.later hkeeps.2)
      (fun _ _ _ _ => trivial) ?_ (fun _ s hs => ⟨hs, ?_⟩) (fun t ht => ?_) ?_ ?_
      (fun _ _ _ => .pure fun s hs => hs.1.1) (fun value => ?_) ?_
      fun s e _ hs => ⟨hs.1, hs.2.unsent⟩
    · rintro s reason - hs hsignal
      have hs : Ready config i call base request s := hs.elim id fun ⟨_, h⟩ => h.1
      exact ⟨hs.1.1, .aborted hsignal⟩
    · intro value hvalue
      cases hvalue
    · obtain rfl : t = authorization call.signal := by
        cases isAuthorized with
        | true => exact (Option.some.inj ht).symm
        | false => cases ht
      refine (triple_authorization call.signal hready).weaken (fun _ hs => hs) fun r s hs => ?_
      cases r with
      | ok value => exact hs
      | error e => exact ⟨hs.1.1.1, hs.2⟩
    · intro given e s hs he
      refine ⟨hs.1.1.1, ?_⟩
      unfold requireAuthorizationValue at he
      split at he
      · cases he
      · next value =>
        split at he
        · next hvalue =>
          obtain rfl := Except.error.inj he
          refine .value (hs.2 value rfl) ?_
          rcases Bool.or_eq_true_iff.mp hvalue with h | h
          · exact .inl (List.isEmpty_iff.mp h)
          · exact .inr h
        · cases he
    · intro given e s hs he
      obtain ⟨rfl, hgiven⟩ := mapM_headerValue_error he
      obtain ⟨value, rfl, hvalue⟩ := (Option.any_eq_true _ _).mp hgiven
      exact ⟨hs.1.1.1, .header (hs.2 value rfl) (by simpa using hvalue)⟩
    · refine .perform rfl fun s _ hs => ⟨hs.1.1.1, rfl, ⟨?_, ?_⟩, ?_⟩
      · exact has_record (record_dispatched s url value) rfl hs.1.1.2
      · exact hs.2.later (earlier_record s ⟨i, .dispatched url request value⟩)
      · exact (congrArg Exchange.body (record_dispatched s url value)).trans hs.1.2
    · intro s answer e haccepts he
      obtain ⟨hanswered, hadmits⟩ := Bool.and_eq_true_iff.mp haccepts
      cases answer with
      | response result =>
        obtain rfl : result = .error e := he
        exact List.contains_iff_mem.mp hadmits
      | tick | aborted | authorization | chunk | credential | mutation => cases hanswered
  refine .bind (Q := SendEnds config answers i call base request fun _ => none)
    (hrequest.weaken (fun _ hs => hs) fun r s hs => ?_) (fun response => ?_) fun _ _ hs => hs
  · cases r with
    | ok response => exact hs
    | error e =>
      refine hs.imp (fun hsent => ⟨hsent.1.1, s, ?_⟩) id
      obtain ⟨error, herror, he⟩ := hsent.2
      exact ⟨error, .refl s, herror, he⟩
  · refine .perform_bind rfl (fun s _ hs => ⟨⟨?_, hs.1.1.2⟩, ⟨?_, ?_⟩, ?_⟩) (.pure fun s hs => hs)
    · exact (congrArg Option.isSome hs.1.1.1).trans rfl
    · exact has_record (record_responded s) hs.1.1.1 rfl
    · exact hs.1.2.later (earlier_record s ⟨i, .responded response⟩)
    · exact (congrArg Exchange.body (record_responded s)).trans hs.2

/-! ## Settling -/

/-- A call of the thread may settle. -/
def Settled (config : ClientConfig) (answers : Answers) (cancellations : List Thrown)
    (i : Nat) (call : ClientCall) (r : Except Thrown ClientResult) (s : ClientState) : Prop :=
  Accounted config answers cancellations i s call r

theorem settled_unsent {s : ClientState} {e : Thrown} (h : Has i none none s)
    (he : Unsent config answers i call s e) :
    Settled config answers cancellations i call (.error e) s where
  prepared request hrequest := by
    rw [h.1] at hrequest
    cases hrequest
  fails _ := by
    rintro ⟨⟩
    rw [Fails, h.1]
    exact he
  delivers _ hfound := by cases hfound

theorem settled_sent {s : ClientState} {e : Thrown} {given : Option Response}
    (h : Sent config i call base request given s)
    (he : SentFails config answers cancellations i s call given e) :
    Settled config answers cancellations i call (.error e) s where
  prepared other hother := by
    rw [h.1.1] at hother
    obtain rfl := Option.some.inj hother
    exact ⟨base, h.2⟩
  fails _ := by
    rintro ⟨⟩
    rw [Fails, h.1.1, h.1.2]
    exact he
  delivers _ hfound := by cases hfound

theorem settled_found {s : ClientState} {found : ClientResult}
    (h : Sent config i call base request (some response) s)
    (hfound : Delivers config call response (s.exchanges i).body found) :
    Settled config answers cancellations i call (.ok found) s where
  prepared other hother := by
    rw [h.1.1] at hother
    obtain rfl := Option.some.inj hother
    exact ⟨base, h.2⟩
  fails _ he := by cases he
  delivers _ := by
    rintro ⟨⟩
    exact .inr ⟨request, response, h.1.1, h.1.2, hfound⟩

-- What a call that is no command is rejected with.
theorem settled_rejected {s : ClientState} {e : Thrown} (hcommand : call.isCommand = false)
    (h : Sent config i call base request (some response) s)
    (he : Rejected config answers cancellations i call s response (s.exchanges i).body e) :
    Settled config answers cancellations i call (.error e) s := by
  refine settled_sent h ?_
  rw [SentFails, hcommand]
  exact he

theorem settled_undelivered {s : ClientState} {e : Thrown} (hcommand : call.isCommand = false)
    (h : SendEnds config answers i call base request some (.error e) s) :
    Settled config answers cancellations i call (.error e) s := by
  rcases h with ⟨hsent, he⟩ | ⟨hunsent, he⟩
  · refine settled_sent hsent ?_
    rw [SentFails, hcommand]
    exact he
  · exact settled_unsent hunsent he

theorem stable_sends (r : Except Thrown Response) :
    (outcomeLogic config answers cancellations).Stable i
      (SendEnds config answers i call base request some r) := by
  cases r with
  | ok response => exact stable_untouched_sent (some response)
  | error e =>
    rintro s s' hkeeps (⟨hsent, s₀, error, hs₀, herror, he⟩ | ⟨hunsent, he⟩)
    · exact .inl ⟨(frame_sent none).stable s s' hkeeps hsent, s₀, error, hs₀.trans hkeeps.2,
        herror, he⟩
    · exact .inr ⟨(frame_has none none).stable s s' hkeeps hunsent, he.later hkeeps.2⟩

-- A request that is built and sent, in front of what is done with its response.
theorem sends_bind {isAuthorized : Bool} {f : Response → ClientAsync ClientResult}
    (hcommand : call.isCommand = false)
    (hf : ∀ response, (outcomeLogic config answers cancellations).Triple i
      (Viewed (exchangeHost i) (Sent config i call base request (some response)) Untouched)
      (f response) (Settled config answers cancellations i call)) :
    (outcomeLogic config answers cancellations).Triple i (Ready config i call base request)
      (awaited (send config i call.signal base isAuthorized request) >>= f)
      (Settled config answers cancellations i call) :=
  .bind ((errorLaws none).awaited (triple_sends isAuthorized) stable_sends) hf
    fun _ _ hs => settled_undelivered hcommand hs

-- What a decoder gives to the rest of a call.
theorem gives_bind {α : Type} {P : ClientState → Prop} {V : α → ClientState → Prop}
    {E : Thrown → ClientState → Prop} {t : ClientAsync α} {f : α → ClientAsync ClientResult}
    {R : Except Thrown ClientResult → ClientState → Prop}
    (ht : Gives (outcomeLogic config answers cancellations) (exchangeHost i) i P V E t)
    (hf : ∀ value, (outcomeLogic config answers cancellations).Triple i
      (fun s => Sent config i call base request (some response) s ∧ V value s) (f value) R)
    (herror : ∀ e s, Sent config i call base request (some response) s → E e s → R (.error e) s) :
    (outcomeLogic config answers cancellations).Triple i
      (fun s => Sent config i call base request (some response) s ∧ P s) (t >>= f) R :=
  .bind (ht _ (frame_sent (some response))) hf fun e s hs => herror e s hs.1 hs.2

-- The signal is looked at once more at the end of a call.
theorem gives_throwIfAlreadyAborted {P : ClientState → Prop} (signal : Option Nat) :
    Gives (outcomeLogic config answers cancellations) (exchangeHost i) i P (fun _ => P)
      (fun e s => Aborts (ReadError answers cancellations i) (s.signal signal) e)
      (throwIfAlreadyAborted signal) := by
  refine fun F _ => .get_bind fun s _ hs => ?_
  cases hsignal : s.signal signal with
  | none => exact .pure fun s' heq => heq ▸ hs
  | some reason => exact .throw fun s' heq => heq ▸ ⟨hs.1, reason, hsignal, .inl rfl⟩

theorem record_decoded (s : ClientState) (value : Value) :
    (s.record ⟨i, .decoded value⟩).exchanges i =
      { s.exchanges i with decoded := some value } := if_pos rfl

-- A call goes on when it has noted what it has decoded.
theorem decoded_then {value : Value} {V : BodyView → Prop} {f : Unit → ClientAsync ClientResult}
    {R : Except Thrown ClientResult → ClientState → Prop}
    (hf : (outcomeLogic config answers cancellations).Triple i
      (Viewed (exchangeHost i) (Sent config i call base request (some response)) V) (f ()) R) :
    (outcomeLogic config answers cancellations).Triple i
      (Viewed (exchangeHost i) (Sent config i call base request (some response)) V)
      (act i (.decoded value) >>= f) R := by
  refine .perform_bind rfl (fun s _ hs => ⟨trivial, ⟨?_, ?_⟩, ?_⟩) hf
  · exact has_record (record_decoded s value) hs.1.1.1 hs.1.1.2
  · exact hs.1.2.later (earlier_record s ⟨i, .decoded value⟩)
  · show V ((s.record ⟨i, .decoded value⟩).exchanges i).body
    rw [record_decoded s value]
    exact hs.2

theorem Rejected.of_refuses {s : ClientState} {e : Thrown}
    (h : Refuses (exchangeHost i) config.decoder response (call.expected config)
      (ReadError answers cancellations i) (ClientState.signal call.signal) e s) :
    Rejected config answers cancellations i call s response (s.exchanges i).body e :=
  h.elim .response .aborted

-- What the response has whatever its body is.
theorem assume_view {c : Prop} {V : ClientState → Prop} {t : ClientAsync ClientResult}
    {R : Except Thrown ClientResult → ClientState → Prop} (hc : ∀ s, V s → c)
    (h : c → (outcomeLogic config answers cancellations).Triple i
      (fun s => Sent config i call base request (some response) s ∧ V s) t R) :
    (outcomeLogic config answers cancellations).Triple i
      (fun s => Sent config i call base request (some response) s ∧ V s) t R :=
  fun fresh s k hinv hfresh hi hs => h (hc s hs.2) fresh s k hinv hfresh hi hs

theorem rejectIf_invalid {c : Prop} [Decidable c] {field : String} {e : Thrown}
    (h : rejectIf c (protocolValidationError field) = .error e) :
    e.isProtocolValidationError = true := by
  rw [(rejectIf_eq_error.mp h).2]
  rfl

-- The end of a call that has a value: its identity is checked, then the signal.
theorem check_then {result : WriteResult} {found : ClientResult}
    (hcommand : call.isCommand = false) (hlocation : result.metadata.location = response.location)
    (hfound : ∀ view, call.Admits config response view result.value →
      Delivers config call response view found) :
    (outcomeLogic config answers cancellations).Triple i
      (Viewed (exchangeHost i) (Sent config i call base request (some response)) fun view =>
        call.Admits config response view result.value) (do
        Async.ofExcept (call.check config result)
        throwIfAlreadyAborted call.signal
        return found)
      (Settled config answers cancellations i call) := by
  refine .ofExcept_bind (fun _ _ => ?_) fun e s he hs =>
    settled_rejected hcommand hs.1 (.disagrees hs.2 hlocation he)
  refine gives_bind (gives_throwIfAlreadyAborted call.signal) (fun _ => ?_)
    fun e s hs he => settled_rejected hcommand hs (.aborted he)
  exact .pure fun s hs => settled_found hs.1 (hfound _ hs.2)

theorem at_initial {s : ClientState} (h : At i (· = {}) s) : Has i none none s := by
  have hx : s.exchanges i = {} := h
  rw [Has, hx]
  exact ⟨rfl, rfl⟩

theorem ready_initial {s : ClientState} (h : At i (· = {}) s)
    (hrequest : call.prepare config i s = .ok (some (base, request))) :
    Ready config i call base request s :=
  ⟨⟨at_initial h, congrArg Exchange.body h⟩, s, .refl s, hrequest⟩

theorem accounted_runRead (call : ReadCall) :
    (outcomeLogic config answers cancellations).Triple i (At i (· = {}))
      (runRead config i call) (Settled config answers cancellations i (.read call)) := by
  refine .ofExcept_bind (fun request hrequest => ?_) fun e s he hs =>
    settled_unsent (at_initial hs) (.invalid (.refl s) ?_)
  · refine .weaken (W := Ready config i (.read call)
      (if call.operation = .discoverHub then config.discoveryUrl else config.apiUrl) request) ?_
      (fun s hs => ready_initial hs ?_) fun _ _ hr => hr
    · refine sends_bind rfl fun response => ?_
      have hlaws : ErrorLaws (outcomeLogic config answers cancellations)
          (exchangeHost i) i (ClientState.signal call.conditional.signal) (· ∈ cancellations)
          (ReadError answers cancellations i) :=
        errorLaws call.conditional.signal
      refine gives_bind (.awaited hlaws.toBodyLaws (hlaws.stable_hasRead _ _)
        hlaws.frame_refusesOr (hlaws.gives_decodeReadResponse response _ _ _)) (fun result => ?_)
          fun e s hs he => settled_rejected rfl hs (he.elim (fun h => .of_refuses h) .cancelling)
      cases result with
      | modified result =>
        refine assume_view
          (c := response.status = 200 ∧ result.metadata.location = response.location)
          (fun _ h => ⟨h.1, h.2.2⟩) fun hresponse => ?_
        refine .weaken (W := Viewed (exchangeHost i) (Sent config i (.read call) _ request
          (some response)) fun view =>
            ClientCall.Admits config response view result.value (.read call)) ?_
          (fun s hs => ⟨hs.1, hs.2.2.1⟩) fun _ _ hr => hr
        refine decoded_then (check_then rfl hresponse.2 ?_)
        exact fun view hadmits => ⟨hresponse.1, hadmits, call, rfl⟩
      | notModified metadata =>
        refine gives_bind (gives_throwIfAlreadyAborted call.conditional.signal) (fun _ => ?_)
          fun e s hs he => settled_rejected rfl hs (.aborted he)
        exact .pure fun s hs => settled_found hs.1 ⟨hs.2, call, rfl⟩
    · rw [ClientCall.prepare, hrequest]
      rfl
  · rw [ClientCall.prepare, he]
    rfl

theorem accounted_runWrite {n : Nat} (heap : Heap n) (call : MetadataWrite n)
    (signal : Option Nat) :
    (outcomeLogic config answers cancellations).Triple i (At i (· = {}))
      (runWrite config i signal heap call)
      (Settled config answers cancellations i (.write heap call signal)) := by
  refine .get_bind fun s _ hs => ?_
  refine .ofExcept_bind (fun request hrequest => ?_) fun e s' he heq => ?_
  · refine .weaken (W := Ready config i (.write heap call signal) config.apiUrl request) ?_
      (fun s' heq => heq ▸ ready_initial hs ?_) fun _ _ hr => hr
    · refine sends_bind rfl fun response => ?_
      have hlaws : ErrorLaws (outcomeLogic config answers cancellations)
          (exchangeHost i) i (ClientState.signal signal) (· ∈ cancellations)
          (ReadError answers cancellations i) :=
        errorLaws signal
      refine gives_bind (.awaited hlaws.toBodyLaws (hlaws.stable_written _ _ _)
        hlaws.frame_refuses (hlaws.gives_decodeWriteResponse response _ _ _)) (fun result => ?_)
          fun e s hs he => settled_rejected rfl hs (.of_refuses he)
      refine assume_view (c := response.status = (call.requirements config).successStatus ∧
        result.metadata.location = response.location) (fun _ h => ⟨h.1, h.2.2⟩) fun hresponse => ?_
      refine .weaken (W := Viewed (exchangeHost i) (Sent config i (.write heap call signal)
        config.apiUrl request (some response)) fun view =>
          ClientCall.Admits config response view result.value (.write heap call signal)) ?_
        (fun s hs => ⟨hs.1, hs.2.2.1⟩) fun _ _ hr => hr
      refine decoded_then (check_then rfl hresponse.2 ?_)
      exact fun view hadmits => ⟨List.mem_singleton.mpr hresponse.1, hadmits⟩
    · rw [ClientCall.prepare, hrequest]
      rfl
  · subst heq
    refine settled_unsent (at_initial hs) (.invalid (.refl s') ?_)
    rw [ClientCall.prepare, he]
    rfl

theorem accounted_createClientSession (baseUrl : Option Url) (requestedVersion : Option JsString)
    (signal : Option Nat) :
    (outcomeLogic config answers cancellations).Triple i (At i (· = {}))
      (createClientSession config i signal baseUrl requestedVersion)
      (Settled config answers cancellations i (.connect baseUrl requestedVersion signal)) := by
  cases baseUrl with
  | none => exact .throw fun s hs => settled_unsent (at_initial hs) (.invalid (.refl s) rfl)
  | some base =>
    refine .weaken (W := Ready config i (.connect (some base) requestedVersion signal) base
      (discoveryRequest signal)) ?_ (fun s hs => ready_initial hs rfl) fun _ _ hr => hr
    refine sends_bind rfl fun response => ?_
    have hlaws : ErrorLaws (outcomeLogic config answers cancellations)
        (exchangeHost i) i (ClientState.signal signal) (· ∈ cancellations)
        (ReadError answers cancellations i) :=
      errorLaws signal
    have hdescribed : ∀ descriptor : Value, (outcomeLogic config answers cancellations).Stable i
        fun s => response.status = 200 ∧ IsDecoded response ((exchangeHost i).view s)
          config.validators.validateDiscovery "validateDiscovery" descriptor :=
      fun descriptor s s' hkeeps hs =>
        ⟨hs.1, (hlaws.frame_decoded response _ _ descriptor).stable s s' hkeeps hs.2⟩
    refine gives_bind (.awaited hlaws.toBodyLaws hdescribed hlaws.frame_unreadable
      (hlaws.gives_ownership hdescribed hlaws.frame_unreadable ?_)) (fun descriptor => ?_)
      fun e s hs he => settled_rejected rfl hs (.of_refuses he.refuses)
    · refine .ofExcept_bind (fun u hu => ?_) fun e s he _ => .inl (rejectIf_invalid he)
      have hstatus : response.status = 200 := by simpa using rejectIf_eq_ok.mp hu
      refine .ofExcept_bind (fun _ _ => ?_) fun e s he _ => .inl (requireMediaType_error he)
      refine .ofExcept_bind (fun _ _ => ?_) fun e s he _ => .inl (rejectIf_invalid he)
      exact (hlaws.gives_decodeBody response _ _).mono (fun _ _ h => ⟨hstatus, h⟩) fun _ _ h => h
    · have hrejected : ∀ e s, (ClientCall.connect (some base) requestedVersion signal).check config
            ⟨descriptor, 200, none, response.location, none, none⟩ = .error e →
          (Sent config i (.connect (some base) requestedVersion signal) base
            (discoveryRequest signal) (some response) s ∧ response.status = 200 ∧
              IsDecoded response ((exchangeHost i).view s) config.validators.validateDiscovery
                "validateDiscovery" descriptor) →
          Settled config answers cancellations i (.connect (some base) requestedVersion signal)
            (.error e) s := fun e s he hs =>
        settled_rejected rfl hs.1
          (@Rejected.disagrees config answers cancellations i _ s response _
            ⟨descriptor, 200, none, response.location, none, none⟩ e hs.2.2 rfl he)
      refine .ofExcept_bind (fun u hsecure => ?_) fun e s he hs =>
        hrejected e s (bind_eq_error.mpr (.inl he)) hs
      refine .ofExcept_bind (fun version hversion => ?_) fun e s he hs =>
        hrejected e s (bind_eq_error.mpr (.inr ⟨u, hsecure, bind_eq_error.mpr (.inl he)⟩)) hs
      refine .pure fun s hs => settled_found hs.1 ⟨hs.2.1, hs.2.2, some base, requestedVersion,
        signal, rfl, ?_, ?_⟩
      · simpa using rejectIf_eq_ok.mp hsecure
      · cases hnegotiated : negotiateProtocolVersion (protocolDescriptor descriptor)
            (requestedVersion.getD currentProtocolVersion) with
        | ok found =>
          rw [hnegotiated] at hversion
          exact congrArg Except.ok (Except.ok.inj hversion)
        | error e =>
          rw [hnegotiated] at hversion
          cases hversion

end Triples

end TeslatlasClient
