import TeslatlasSdk.Client.Outcomes

/-!
# What becomes of calls

A command hides what it fails with behind the dispatch, unless the hub has told a problem.  Every
call of a run is accounted for.
-/

open Text Core Json Http Events Client Protocol

namespace TeslatlasClient

section Triples

variable {config : ClientConfig} {answers : Answers} {cancellations : List Thrown} {i : Nat}
  {call : ClientCall} {base : Url} {request : BuiltRequest} {response : Response}

/-! ## Decoding -/

theorem createCommand_snapshot {session : ClientSession} {validators : BodyValidators} {n : Nat}
    {heap later : Heap n} {body : HeapValue n} {idempotencyKey : JsString}
    {signal : Option CallSignal} {onDispatch : Nat}
    (h : Client.createCommand session validators heap later body idempotencyKey signal onDispatch =
      .ok request) : ∃ snapshot, snapshotCommandRequest session heap body = .ok snapshot := by
  simp only [Client.createCommand, bind_eq_ok] at h
  obtain ⟨-, -, -, -, -, -, snapshot, hsnapshot, -⟩ := h
  exact ⟨snapshot, hsnapshot⟩

section Command

variable {n : Nat} {heap : Heap n} {body : HeapValue n} {idempotencyKey : JsString}
  {signal : Option Nat}

/-- What the handler of a command makes of what its response is decoded to. -/
def Decoding (config : ClientConfig) (answers : Answers) (cancellations : List Thrown) (i : Nat)
    (response : Response) (signal : Option Nat) (e : Thrown) (s : ClientState) : Prop :=
  isProtocolHttpError e = true →
    Problematic config answers cancellations i s signal response (s.exchanges i).body e

-- Whatever is checked is not thrown as a problem.
theorem property_error {value : Value} {key : JsString} {e : Thrown}
    (h : property value key = .error e) : isProtocolHttpError e = false := by
  unfold property at h
  split at h
  · obtain rfl := Except.error.inj h
    rfl
  · cases h

theorem safeFields_error {problem : Value} {e : Thrown} (h : safeFields problem = .error e) :
    isProtocolHttpError e = false := by
  rw [safeFields] at h
  rcases bind_eq_error.mp h with h | ⟨code, -, h⟩
  · exact property_error h
  rcases bind_eq_error.mp h with h | ⟨requestId, -, h⟩
  · exact property_error h
  rcases bind_eq_error.mp h with h | ⟨retryable, -, h⟩
  · exact property_error h
  rcases bind_eq_error.mp h with h | ⟨seconds, -, h⟩
  · exact property_error h
  split at h
  · cases h
  · obtain rfl := Except.error.inj h
    rfl

theorem problemError_error {problem : Value} {e : Thrown}
    (h : problemError response problem = .error e) : isProtocolHttpError e = false := by
  rw [problemError] at h
  rcases bind_eq_error.mp h with h | ⟨status, -, h⟩
  · exact property_error h
  split at h
  · simp only at h
    split at h
    · obtain rfl := Except.error.inj h
      rfl
    rcases bind_eq_error.mp h with h | ⟨fields, -, h⟩
    · exact safeFields_error h
    split at h
    · cases h
    · obtain rfl := Except.error.inj h
      rfl
  · obtain rfl := Except.error.inj h
    rfl

theorem invalid_error {e : Thrown} (h : e.isProtocolValidationError = true) :
    isProtocolHttpError e = false := by
  unfold isProtocolHttpError
  split
  · cases h
  · rfl

theorem Refuses.decoding {e : Thrown} {s : ClientState}
    (h : Refuses (exchangeHost i) config.decoder response [202]
      (ReadError answers cancellations i) (ClientState.signal signal) e s) :
    Decoding config answers cancellations i response signal e s := by
  intro hproblem
  refine ⟨hproblem, ?_⟩
  rcases h with h | h
  · cases h with
    | invalid hinvalid =>
      rw [invalid_error hinvalid] at hproblem
      cases hproblem
    | locked => cases hproblem
    | problem hstatus hbody he =>
      rcases he with he | he
      · exact .inl ⟨_, by simpa using hstatus, hbody, he⟩
      · rw [problemError_error he] at hproblem
        cases hproblem
  · exact .inr h

theorem validateCommandIdentity_error {result : WriteResult} {expected : Value}
    {validatorName : String} {e : Thrown}
    (h : validateCommandIdentity result expected validatorName = .error e) :
    isProtocolHttpError e = false := by
  rw [validateCommandIdentity] at h
  rcases bind_eq_error.mp h with h | ⟨u, -, h⟩
  · obtain ⟨key, -, h⟩ := exists_of_forM_eq_error h
    rcases bind_eq_error.mp h with h | ⟨value, -, h⟩
    · exact property_error h
    rw [requireIdentity] at h
    rcases bind_eq_error.mp h with h | ⟨found, -, h⟩
    · exact property_error h
    rw [(rejectIf_eq_error.mp h).2]
    rfl
  rcases bind_eq_error.mp h with h | ⟨id, -, h⟩
  · exact property_error h
  unfold requireLocationIdentity at h
  split at h
  · split at h
    · obtain rfl := Except.error.inj h
      rfl
    · rw [(rejectIf_eq_error.mp h).2]
      rfl
  · obtain rfl := Except.error.inj h
    rfl

theorem accounted_decodeCommand (snapshot : Value) :
    (outcomeLogic config answers cancellations).Triple i
      (Viewed (exchangeHost i) (Sent config i (.createCommand heap body idempotencyKey signal) base
        request (some response)) Untouched)
      (decodeCommand config i signal response snapshot) fun r s =>
        match r with
        | .ok found => Settled config answers cancellations i
            (.createCommand heap body idempotencyKey signal) (.ok found) s
        | .error e => Sent config i (.createCommand heap body idempotencyKey signal) base request
            (some response) s ∧ Decoding config answers cancellations i response signal e s := by
  have hlaws : ErrorLaws (outcomeLogic config answers cancellations)
      (exchangeHost i) i (ClientState.signal signal) (· ∈ cancellations)
      (ReadError answers cancellations i) :=
    errorLaws signal
  refine gives_bind (.awaited hlaws.toBodyLaws (hlaws.stable_written _ _ _) hlaws.frame_refuses
    (hlaws.gives_decodeWriteResponse response _ _ _)) (fun result => ?_)
    fun e s hs he => ⟨hs, Refuses.decoding he⟩
  refine assume_view (fun _ h => h.1) fun hstatus => ?_
  refine .weaken (W := Viewed (exchangeHost i) (Sent config i
    (.createCommand heap body idempotencyKey signal) base request (some response)) fun view =>
      ClientCall.Admits config response view result.value
        (.createCommand heap body idempotencyKey signal)) ?_
    (fun s hs => ⟨hs.1, hs.2.2.1⟩) fun _ _ hr => hr
  refine decoded_then ?_
  refine .ofExcept_bind (fun u _ => ?_) fun e s he hs => ⟨hs.1, fun hproblem => ?_⟩
  · refine gives_bind (gives_throwIfAlreadyAborted signal) (fun _ => ?_)
      fun e s hs he => ⟨hs, fun hproblem => ⟨hproblem, .inr he⟩⟩
    exact .pure fun s hs => settled_found hs.1 ⟨List.mem_singleton.mpr hstatus, hs.2⟩
  · rw [validateCommandIdentity_error he] at hproblem
    cases hproblem

theorem accounted_runCommand :
    (outcomeLogic config answers cancellations).Triple i (At i (· = {}))
      (runCommand config i signal heap body idempotencyKey)
      (Settled config answers cancellations i
        (.createCommand heap body idempotencyKey signal)) := by
  refine .get_bind fun s _ hs => ?_
  refine .ofExcept_bind (fun request hrequest => ?_) fun e s' he heq => ?_
  · refine .weaken (W := Ready config i (.createCommand heap body idempotencyKey signal)
      config.apiUrl request) ?_ (fun s' heq => heq ▸ ready_initial hs ?_) fun _ _ hr => hr
    · refine .ofExcept_bind (fun snapshot hsnapshot => ?_) fun e s he _ => ?_
      · refine .attempt_bind ((errorLaws none).awaited (triple_sends config.isAuthorized)
          stable_sends) fun sent => ?_
        cases sent with
        | error error =>
          refine .get_bind fun s _ hs => ?_
          rcases hs with ⟨hsent, -⟩ | ⟨hunsent, he⟩
          · have hrequest : (s.exchanges i).request.isSome = true :=
              (congrArg Option.isSome hsent.1.1).trans rfl
            refine .ite (fun _ => .throw fun s' heq => ?_) fun hnone => absurd hrequest hnone
            exact heq ▸ settled_sent hsent (.inl rfl)
          · have hrequest : (s.exchanges i).request.isSome = false :=
              (congrArg Option.isSome hunsent.1).trans rfl
            refine .ite (fun hsome => ?_) fun _ => .throw fun s' heq => ?_
            · rw [hrequest] at hsome
              cases hsome
            · exact heq ▸ settled_unsent hunsent he
        | ok response =>
          refine .attempt_bind (accounted_decodeCommand snapshot.value) fun result => ?_
          cases result with
          | ok result => exact .pure fun s hs => hs
          | error error =>
            refine .ite (fun hproblem => .throw fun s hs => ?_) fun _ => .throw fun s hs => ?_
            · exact settled_sent hs.1 (.inr ⟨response, rfl, hs.2 hproblem⟩)
            · exact settled_sent hs.1 (.inl rfl)
      · obtain ⟨snapshot, hsnapshot⟩ := createCommand_snapshot hrequest
        rw [hsnapshot] at he
        cases he
    · rw [ClientCall.prepare, hrequest]
      rfl
  · subst heq
    refine settled_unsent (at_initial hs) (.invalid (.refl s') ?_)
    rw [ClientCall.prepare, he]
    rfl

end Command

/-! ## Threads -/

-- A call that sends nothing.
theorem accounted_setting {action : ClientAction} (hcall : call.isSetting = true)
    (hpermits : ∀ s, Accounts config answers cancellations s ⟨i, action⟩)
    (hrecord : ∀ s, (ClientState.record s ⟨i, action⟩).exchanges = s.exchanges) :
    (outcomeLogic config answers cancellations).Triple i (At i (· = {})) (do
        act i action
        return .done)
      (Settled config answers cancellations i call) := by
  refine .perform_bind (W := Has i none none) rfl (fun s _ hs => ⟨hpermits s, ?_⟩) ?_
  · show Has i none none (ClientState.record s ⟨i, action⟩)
    rw [Has, hrecord]
    exact at_initial hs
  · refine .pure fun s hs =>
      ⟨fun request hrequest => ?_, fun _ he => (by cases he), fun _ _ => .inl hcall⟩
    rw [hs.1] at hrequest
    cases hrequest

theorem accounted_operation (call : ClientCall)
    (hcall : cancels cancellations call = true) :
    (outcomeLogic config answers cancellations).Triple i (At i (· = {}))
      (config.operation i call) (Settled config answers cancellations i call) := by
  cases call with
  | connect baseUrl requestedVersion signal =>
    exact accounted_createClientSession baseUrl requestedVersion signal
  | read call => exact accounted_runRead call
  | write heap call signal => exact accounted_runWrite heap call signal
  | createCommand heap body idempotencyKey signal => exact accounted_runCommand
  | abort caller reason => exact accounted_setting rfl (fun _ => trivial) fun _ => rfl
  | setCancellation cancellation =>
    refine accounted_setting rfl (fun _ e he => ?_) fun _ => rfl
    rw [cancels, he] at hcall
    exact List.contains_iff_mem.mp hcall

end Triples

theorem accountedCallsHold (config : ClientConfig) (answers : Answers)
    (cancellations : List Thrown) : (outcomeLogic config answers cancellations).CallsHold := by
  intro call i s hinv hfresh
  show (outcomeLogic config answers cancellations).Holds i
    (if cancels cancellations call then config.thread call i else .halt) (i + 1) s
  by_cases hcall : cancels cancellations call = true
  · rw [if_pos hcall]
    have hthread : (outcomeLogic config answers cancellations).Triple i (At i (· = {})) (do
        let result ← (config.operation i call).attempt
        act i (.settled call result)) fun _ _ => True :=
      .attempt_bind (accounted_operation call hcall) fun result =>
        .perform rfl fun s _ hs => ⟨hs, trivial⟩
    exact hthread.toProgram (fun _ _ _ => trivial) hinv
      (fun j hj => hfresh j (by omega)) (Nat.lt_succ_self i) (hfresh i (Nat.le_refl i))
  · rw [if_neg hcall]
    exact trivial

/-! ## Runs -/

/-- What the host answers a thread with in a run. -/
def answersOf (inputs : List (SystemInput (Answer Empty) ClientCall)) : Answers := fun i =>
  inputs.filterMap fun
    | .answer thread answer => if thread = i then some answer else none
    | _ => none

/-- What readers throw in a run when they are cancelled. -/
def cancellationsOf (inputs : List (SystemInput (Answer Empty) ClientCall)) : List Thrown :=
  inputs.filterMap fun
    | .call (.setCancellation cancellation) => cancellation.reader
    | _ => none

theorem inputs_allowed {inputs : List (SystemInput (Answer Empty) ClientCall)}
    {input : SystemInput (Answer Empty) ClientCall} (h : input ∈ inputs) :
    System.Allows (cancels (cancellationsOf inputs)) (admits (answersOf inputs)) input := by
  match input with
  | .call (.setCancellation cancellation) =>
    show cancellation.reader.all (cancellationsOf inputs).contains = true
    cases hreader : cancellation.reader with
    | none => rfl
    | some e =>
      exact List.contains_iff_mem.mpr (List.mem_filterMap.mpr ⟨_, h, hreader⟩)
  | .answer thread answer =>
    exact List.contains_iff_mem.mpr (List.mem_filterMap.mpr ⟨_, h, if_pos rfl⟩)
  | .call (.connect _ _ _) | .call (.read _) | .call (.write _ _ _) | .call (.abort _ _)
  | .call (.createCommand _ _ _ _) => rfl

/-- The monitor of what becomes of calls. -/
def accounts (config : ClientConfig) (answers : Answers) (cancellations : List Thrown) :
    Monitor ClientState ClientEvent where
  initial := {}
  record := ClientState.record
  permits := Accounts config answers cancellations

theorem outcomes_permitted (config : ClientConfig)
    (inputs : List (SystemInput (Answer Empty) ClientCall)) :
    (accounts config (answersOf inputs) (cancellationsOf inputs)).Permitted {}
      ((clientSystem config).machine.run inputs).2 := by
  have hrun := (Logic.follows_run (accountedCallsHold config (answersOf inputs)
    (cancellationsOf inputs)) inputs).1
  have hsystem : (accountedSystem config (answersOf inputs) (cancellationsOf inputs)).machine.run
      inputs = (clientSystem config).machine.run inputs :=
    System.restrict_run _ fun input => inputs_allowed
  rw [hsystem] at hrun
  exact hrun

/-! ## Calls -/

/-- What a call settles with that is no command. -/
def CallSettles (config : ClientConfig) (answers : Answers) (cancellations : List Thrown)
    (i : Nat) (s : ClientState) (call : ClientCall) (result : Except Thrown ClientResult) : Prop :=
  let x := s.exchanges i
  match x.request, x.response, result with
  | none, _, .error e => Unsent config answers i call s e
  | some request, none, .error e =>
      (∃ base, Prepared config i call base request s) ∧ FetchFails answers i s call e
  | some request, some response, .error e =>
      (∃ base, Prepared config i call base request s) ∧
        Rejected config answers cancellations i call s response x.body e
  | some request, some response, .ok found =>
      (∃ base, Prepared config i call base request s) ∧
        Delivers config call response x.body found
  | _, _, .ok _ => False

theorem Accounted.settles {config : ClientConfig} {answers : Answers}
    {cancellations : List Thrown} {i : Nat} {s : ClientState} {call : ClientCall}
    {result : Except Thrown ClientResult}
    (h : Accounted config answers cancellations i s call result)
    (hcommand : call.isCommand = false) (hsetting : call.isSetting = false) :
    CallSettles config answers cancellations i s call result := by
  unfold CallSettles
  cases result with
  | ok found =>
    rcases h.delivers found rfl with hset | ⟨request, response, hrequest, hresponse, hdelivers⟩
    · rw [hsetting] at hset
      cases hset
    · simp only [hrequest, hresponse]
      exact ⟨h.prepared request hrequest, hdelivers⟩
  | error e =>
    have hfails := h.fails e rfl
    rw [Fails] at hfails
    cases hrequest : (s.exchanges i).request with
    | none =>
      rw [hrequest] at hfails
      simp only [hrequest]
      exact hfails
    | some request =>
      rw [hrequest] at hfails
      change SentFails config answers cancellations i s call (s.exchanges i).response e at hfails
      unfold SentFails at hfails
      rw [hcommand] at hfails
      cases hresponse : (s.exchanges i).response with
      | none =>
        rw [hresponse] at hfails
        simp only [hrequest, hresponse]
        exact ⟨h.prepared request hrequest, hfails⟩
      | some response =>
        rw [hresponse] at hfails
        simp only [hrequest, hresponse]
        exact ⟨h.prepared request hrequest, hfails⟩

end TeslatlasClient
