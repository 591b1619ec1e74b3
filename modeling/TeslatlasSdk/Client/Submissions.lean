import TeslatlasSdk.Client.CommandOutcomes

/-!
# Submissions

A command is submitted once at most.  What has become of it is told where the hub has told it, and
is uncertain everywhere else behind the dispatch; in front of the dispatch it is never uncertain,
unless the caller's own code says so.
-/

open Text Core Json Http Events Client Protocol

namespace TeslatlasClient

/-! ## What is told of a command -/

/-- The caller's code has made this error: its provider of authorizations, or its signal. -/
def ByCaller (answers : Answers) (i : Nat) (s : ClientState) (signal : Option Nat) : Prop :=
  .authorization (.error uncertain) ∈ answers i ∨ s.signal signal = some uncertain

/-- An error that is not this one. -/
def NotUncertain {β : Type} (r : Except Thrown β) : Prop := r ≠ .error uncertain

theorem NotUncertain.ok {β : Type} (b : β) : NotUncertain (.ok b) := by
  intro h
  cases h

theorem NotUncertain.bind {β γ : Type} {r : Except Thrown β} {f : β → Except Thrown γ}
    (hr : NotUncertain r) (hf : ∀ b, r = .ok b → NotUncertain (f b)) : NotUncertain (r >>= f) := by
  intro h
  rcases bind_eq_error.mp h with h | ⟨b, hb, h⟩
  · exact hr h
  · exact hf b hb h

theorem fillTemplate_uncertain (values : PathValues) (template : JsString) :
    NotUncertain (fillTemplate values template) := by
  fun_induction fillTemplate values template with
  | case1 => nofun
  | case2 u s hname ih => exact ih.bind fun _ _ => nofun
  | case3 => nofun
  | case4 => nofun
  | case5 u s name rest hname hlt value hvalue encoded hencoded ih => exact ih.bind fun _ _ => nofun

theorem interpolatePath_uncertain (template : JsString) (values : PathValues) :
    NotUncertain (interpolatePath template values) := by
  refine (fillTemplate_uncertain values template).bind fun (path, used) _ => ?_
  simp only
  split
  · nofun
  · nofun

theorem headerValue_uncertain (value : Option JsString) :
    NotUncertain (value.mapM headerValue) := by
  rw [mapM_headerValue]
  split
  · exact .ok _
  · nofun

theorem buildWriteRequest_uncertain {n : Nat} (heap : Heap n) (operation : WriteOperationDescriptor)
    (values : PathValues) (version : JsString) {options : WriteRequestOptions n}
    {snapshot : JsonRequestSnapshot} (hbody : options.body = some (.snapshot snapshot)) :
    NotUncertain (buildWriteRequest heap operation values version options) := by
  refine (interpolatePath_uncertain _ _).bind fun path _ => .bind (headerValue_uncertain _)
    fun _ _ => .bind (headerValue_uncertain _) fun _ _ => .bind ?_ fun _ _ => .ok _
  rw [hbody, writeBody]
  split
  · exact .ok _
  · intro h
    cases h

theorem assertFiniteNumbers_uncertain (value : Value) (validatorName : String) :
    assertFiniteNumbers value validatorName ≠ .error .commandUncertain := by
  rw [assertFiniteNumbers, visitJson_eq]
  generalize visits [] value none = visited
  induction visited with
  | nil =>
    intro h
    cases h
  | cons v visited ih =>
    rw [visitAll]
    by_cases hfinite : v.2.1.isFinite = true
    · simp only [hfinite, Bool.not_true]
      exact ih
    · simp only [hfinite, Bool.not_false]
      intro h
      cases h

theorem mapError_uncertain {β : Type} {r : Except TeslatlasError β}
    (h : r.mapError Thrown.teslatlas = .error uncertain) : r = .error .commandUncertain := by
  cases r with
  | ok value => cases h
  | error e => exact congrArg Except.error (Thrown.teslatlas.inj (Except.error.inj h))

theorem snapshotCommandRequest_uncertain {n : Nat} (session : ClientSession) (heap : Heap n)
    (body : HeapValue n) : NotUncertain (snapshotCommandRequest session heap body) := by
  intro h
  unfold snapshotCommandRequest at h
  split at h
  · cases h
  · have hresult := mapError_uncertain h
    by_cases hlossless : Lossless heap body
    · obtain ⟨snapshot, -, -, hsnapshot⟩ := snapshotJsonRequest_of_lossless hlossless
      rw [hsnapshot] at hresult
      split at hresult
      · cases hresult
      · cases hresult
    · rw [snapshotJsonRequest_of_not_lossless hlossless] at hresult
      cases hresult

theorem findCommand_uncertain {n : Nat} {ν : Type} (capabilities : List (Commands.Capability n))
    (command : Commands.CommandRequest ν) :
    Commands.findCommand capabilities command ≠ .error .commandUncertain := by
  rw [Commands.findCommand]
  split
  · simp
  · split
    · simp
    · split
      · simp
      · simp

-- No check of a descriptor says that a command is uncertain.
theorem validateAdvertisedCommand_uncertain (session : ClientSession) (value : Value) :
    session.validateAdvertisedCommand value ≠ .error .commandUncertain := by
  rw [ClientSession.validateAdvertisedCommand, Commands.validateAdvertisedCommand]
  split
  · next e he =>
    rintro ⟨⟩
    exact findCommand_uncertain _ _ he
  · dsimp only
    split
    · simp
    · split
      · simp
      · simp

theorem createCommand_uncertain {n : Nat} {heap : Heap n} {body : HeapValue n}
    {idempotencyKey : JsString} {signal : Option Nat} {i : Nat} {config : ClientConfig}
    {s : ClientState}
    (h : Client.createCommand config.session.toClientSession config.bodyValidators heap heap body
      idempotencyKey (callSignal signal s) i = .error uncertain) :
    s.signal signal = some uncertain := by
  unfold Client.createCommand at h
  rcases bind_eq_error.mp h with h | ⟨_, -, h⟩
  · unfold requireCapability at h
    split at h
    · cases h
    · cases h
  rcases bind_eq_error.mp h with h | ⟨key, -, h⟩
  · unfold asIdempotencyKey at h
    simp only at h
    split at h
    · cases h
    · cases h
  rcases bind_eq_error.mp h with h | ⟨_, -, h⟩
  · unfold Client.throwIfAlreadyAborted at h
    cases signal with
    | none => cases h
    | some identity =>
      cases hreason : s.callers identity with
      | none =>
        simp only [callSignal, Option.map_some, Option.bind_some, hreason] at h
        cases h
      | some reason =>
        simp only [callSignal, Option.map_some, Option.bind_some, hreason] at h
        rw [ClientState.signal, Option.bind_some, hreason, Except.error.inj h]
  rcases bind_eq_error.mp h with h | ⟨snapshot, -, h⟩
  · exact absurd h (snapshotCommandRequest_uncertain _ heap body)
  rcases bind_eq_error.mp h with h | ⟨value, -, h⟩
  · unfold decodeProtocolValue at h
    split at h
    · next e he =>
      obtain rfl : e = .commandUncertain := Thrown.teslatlas.inj (Except.error.inj h)
      exact absurd he (assertFiniteNumbers_uncertain _ _)
    · split at h
      · cases h
      · cases h
  rcases bind_eq_error.mp h with h | ⟨_, -, h⟩
  · exact absurd (mapError_uncertain h) (validateAdvertisedCommand_uncertain _ value)
  · exact absurd h (buildWriteRequest_uncertain heap _ _ _ rfl)

/-- What a command settles with. -/
def CommandSettles (config : ClientConfig) (answers : Answers) (cancellations : List Thrown)
    (i : Nat) (s : ClientState) {n : Nat} (heap : Heap n) (body : HeapValue n)
    (idempotencyKey : JsString) (signal : Option Nat) (result : Except Thrown ClientResult) :
    Prop :=
  let x := s.exchanges i
  let call := ClientCall.createCommand heap body idempotencyKey signal
  match x.request, result with
  | none, .ok _ => False
  | none, .error e =>
      Unsent config answers i call s e ∧ (e = uncertain → ByCaller answers i s signal)
  | some request, .ok found =>
      (∃ base, Prepared config i call base request s) ∧ ∃ response written,
        x.response = some response ∧ response.status = 202 ∧ found = .written written ∧
        call.Admits config response x.body written.value ∧
        call.Matches config written.value response.location
  | some request, .error e =>
      (∃ base, Prepared config i call base request s) ∧
        (e = uncertain ∨ ∃ response, x.response = some response ∧
          Problematic config answers cancellations i s signal response x.body e)

/-- The monitor of commands. -/
def submissions (config : ClientConfig) (answers : Answers) (cancellations : List Thrown) :
    Monitor ClientState ClientEvent where
  initial := {}
  record := ClientState.record
  permits s event :=
    match event.action with
    | .dispatched _ _ _ => (s.exchanges event.thread).request = none
    | .settled (.createCommand heap body idempotencyKey signal) result =>
        CommandSettles config answers cancellations event.thread s heap body idempotencyKey signal
          result
    | _ => True

-- The handler makes this error of itself, or of a signal that is aborted with it.
theorem requestError_uncertain {aborted : AbortState} {error : Thrown}
    (h : requestError aborted error = uncertain) :
    error = uncertain ∨ aborted = some uncertain := by
  by_cases htyped : error.isTeslatlasError = true
  · exact .inl (requestError_typed htyped aborted ▸ h)
  · have hother : error ≠ uncertain := fun heq => htyped (heq ▸ rfl)
    cases aborted with
    | none =>
      rw [requestError_none htyped] at h
      split at h
      · exact absurd h hother
      · cases h
    | some reason =>
      rw [requestError_some htyped] at h
      cases reason with
      | undefined | null => exact absurd h hother
      | teslatlas | sseStreamRead | abortError | other => exact .inr (congrArg some h)

theorem unsent_uncertain {config : ClientConfig} {answers : Answers} {i : Nat}
    {s : ClientState} {n : Nat} {heap : Heap n} {body : HeapValue n} {idempotencyKey : JsString}
    {signal : Option Nat}
    (h : Unsent config answers i (.createCommand heap body idempotencyKey signal) s uncertain) :
    ByCaller answers i s signal := by
  generalize he : uncertain = e at h
  cases h with
  | @invalid s₀ _ hs h =>
    obtain rfl := he
    have hcreate : Client.createCommand config.session.toClientSession config.bodyValidators heap
        heap body idempotencyKey (callSignal signal s₀) i = .error uncertain := by
      rw [ClientCall.prepare] at h
      cases hcreate : Client.createCommand config.session.toClientSession config.bodyValidators heap
        heap body idempotencyKey (callSignal signal s₀) i with
      | ok request =>
        rw [hcreate] at h
        cases h
      | error e =>
        rw [hcreate] at h
        exact congrArg Except.error (Except.error.inj h)
    exact .inr (hs.signal (createCommand_uncertain hcreate))
  | target hrequest h =>
    obtain rfl := he
    unfold resolveRequestUrl at h
    split at h
    · cases h
    · split at h
      · cases h
      · split at h
        · cases h
        · cases h
  | condition => cases he
  | unauthorized hs h =>
    rcases requestError_uncertain he.symm with rfl | hsignal
    · exact .inl h
    · exact .inr (hs.signal hsignal)
  | lost hs | header hs =>
    rcases requestError_uncertain he.symm with herror | hsignal
    · cases herror
    · exact .inr (hs.signal hsignal)
  | authorization => cases he
  | @aborted reason h =>
    have hreason : reason = uncertain := by
      cases reason with
      | undefined | null => cases he
      | teslatlas | sseStreamRead | abortError | other => exact he.symm
    exact .inr (hreason ▸ h)

-- Where nothing has been sent, a command fails for a reason; where it has been, it is the caller's.
theorem settles_of_accounted {config : ClientConfig} {answers : Answers}
    {cancellations : List Thrown} {i : Nat} {s : ClientState} {n : Nat} {heap : Heap n}
    {body : HeapValue n} {idempotencyKey : JsString} {signal : Option Nat}
    {result : Except Thrown ClientResult}
    (h : Accounted config answers cancellations i s
      (.createCommand heap body idempotencyKey signal) result)
    (hrests : Settles config (.createCommand heap body idempotencyKey signal) result
      (s.exchanges i)) :
    CommandSettles config answers cancellations i s heap body idempotencyKey signal result := by
  cases result with
  | ok found =>
    rcases h.delivers found rfl with hsetting | ⟨request, response, hrequest, hresponse, hdelivers⟩
    · cases hsetting
    have hfound : ∃ written, found = .written written ∧ response.status = 202 ∧
        (ClientCall.createCommand heap body idempotencyKey signal).Admits config response
          (s.exchanges i).body written.value := by
      match found, hdelivers with
      | .written written, hdelivers =>
        exact ⟨written, rfl, List.mem_singleton.mp hdelivers.1, hdelivers.2⟩
      | .read (.notModified metadata), ⟨_, read, hcall⟩ => cases hcall
      | .read (.modified written), ⟨_, _, read, hcall⟩ => cases hcall
      | .session descriptor version, ⟨_, _, _, _, _, hcall, _⟩ => cases hcall
    obtain ⟨written, rfl, hstatus, hadmits⟩ := hfound
    obtain ⟨given, hgiven, -, -, hmatches⟩ := hrests.rests _ rfl
    rw [hresponse] at hgiven
    obtain rfl := Option.some.inj hgiven
    simp only [CommandSettles, hrequest]
    exact ⟨h.prepared request hrequest, response, written, hresponse, hstatus, rfl, hadmits,
      hmatches⟩
  | error e =>
    have hfails := h.fails e rfl
    rw [Fails] at hfails
    cases hrequest : (s.exchanges i).request with
    | none =>
      rw [hrequest] at hfails
      simp only [CommandSettles, hrequest]
      refine ⟨hfails, ?_⟩
      rintro rfl
      exact unsent_uncertain hfails
    | some request =>
      rw [hrequest] at hfails
      simp only [CommandSettles, hrequest]
      exact ⟨h.prepared request hrequest, hfails⟩

-- Every command of a run is submitted at most once, and its caller is told what is known of it.
theorem commands_submitted (config : ClientConfig)
    (inputs : List (SystemInput (Answer Empty) ClientCall)) :
    (submissions config (answersOf inputs) (cancellationsOf inputs)).Permitted {}
      ((clientSystem config).machine.run inputs).2 := by
  refine (outcomes_permitted config inputs).combine (results_permitted config inputs) rfl rfl ?_
  rintro s ⟨i, action⟩ houtcome hresult
  cases action with
  | settled call result =>
    cases call with
    | createCommand heap body idempotencyKey signal => exact settles_of_accounted houtcome hresult
    | connect | read | write | abort | setCancellation => trivial
  | dispatched => exact houtcome
  | responded | body | decoded | aborted | cancellationSet => trivial

end TeslatlasClient
