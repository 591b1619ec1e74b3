import TeslatlasSdk.Events.SseResume
import TeslatlasSdk.Events.ProtocolDecoder

/-!
# What the typed event stream delivers

A monitor of its log follows the event that the mapper was asked about.  One that fails a check ends
the stream with an error, and one with an unknown name is passed over.  A block without data is no
event: as everywhere in this SDK it is a checkpoint, whatever its name.
-/

open Text Core Json Http

namespace Events

/-! ## Steps of the subscription -/

namespace Subscription

/-- Actions that have nothing to do with the mapper. -/
def isQuietAction : SubscriptionAction Value → Bool
  | .map _ => false
  | .skipped _ => false
  | .yielded _ _ => false
  | _ => true

/-- The step does not concern the mapper and does not wait for it. -/
def Quiet (step : Step Value) : Prop :=
  (∀ a ∈ step.2, isQuietAction a = true) ∧ ∀ event stream, step.1.suspension ≠ .mapping event stream

variable {o : SseSubscriptionOptions Value} {s : Subscription}

theorem quiet_of {s' : Subscription} {actions : List (SubscriptionAction Value)}
    (hactions : actions.all isQuietAction = true)
    (h : ∀ event stream, s'.suspension ≠ .mapping event stream) : Quiet (s', actions) :=
  ⟨List.all_eq_true.mp hactions, h⟩

theorem Quiet.after {step : Step Value} (h : Quiet step) {a : SubscriptionAction Value}
    (ha : isQuietAction a = true) : Quiet (Step.after [a] step) := by
  refine ⟨fun b hb => ?_, h.2⟩
  rcases List.mem_cons.mp hb with rfl | hb
  · exact ha
  · exact h.1 b hb

theorem finish_quiet (completion : Completion) : Quiet (s.finish completion) :=
  quiet_of rfl fun _ _ h => by simp at h

theorem decideReconnect_quiet (reason : ReconnectReason) : Quiet (s.decideReconnect o reason) := by
  apply quiet_of
  · split <;> rfl
  · simp

theorem catchError_quiet (error : Thrown) : Quiet (s.catchError o error) := by
  unfold catchError
  split
  · exact finish_quiet _
  · split
    · exact finish_quiet _
    · exact finish_quiet _
    · exact decideReconnect_quiet _
    · exact decideReconnect_quiet _

theorem cancel_quiet (response : SseResponse) (completion : Completion) :
    Quiet (s.cancel response completion) := by
  apply quiet_of
  · split <;> rfl
  · simp

theorem close_quiet (completion : Completion) : Quiet (s.close completion) :=
  quiet_of rfl fun _ _ h => by simp at h

theorem connect_quiet : Quiet s.connect := by
  unfold connect
  split
  · exact finish_quiet _
  · exact quiet_of rfl fun _ _ h => by simp at h

theorem pulled_quiet (pull : SsePull) : Quiet (s.pulled pull) := by
  unfold pulled
  split
  · exact quiet_of rfl fun _ _ h => by simp at h
  · exact quiet_of rfl fun _ _ h => by simp at h

theorem commit_quiet (item : SseStreamItem) (stream : SseStream) : Quiet (s.commit o item stream) := by
  unfold commit
  split
  · apply quiet_of
    · split <;> rfl
    · simp
  · exact close_quiet _

theorem useResponse_quiet (response : SseResponse) (action : SseResponseAction) :
    Quiet (s.useResponse response action) := by
  unfold useResponse
  split
  · exact cancel_quiet _ _
  · exact cancel_quiet _ _
  · exact cancel_quiet _ _
  · split
    · exact cancel_quiet _ _
    split
    · exact cancel_quiet _ _
    split
    · exact cancel_quiet _ _
    · exact pulled_quiet _
    · exact pulled_quiet _

theorem begin_quiet : Quiet (s.begin o) := by
  unfold begin
  split
  · exact finish_quiet _
  split
  · exact finish_quiet _
  split
  · exact finish_quiet _
  · apply quiet_of
    · split <;> rfl
    · simp

theorem resumeLoading_quiet (stored : Except Thrown StoredCheckpoint) :
    Quiet (s.resumeLoading stored) := by
  unfold resumeLoading
  split
  · exact finish_quiet _
  · exact finish_quiet _
  · exact connect_quiet.after rfl
  · split
    · exact connect_quiet.after rfl
    · exact finish_quiet _
  · exact finish_quiet _

theorem resumeRequesting_quiet (result : Except Thrown SseResponse) :
    Quiet (s.resumeRequesting o result) := by
  unfold resumeRequesting
  split
  · exact catchError_quiet _
  · exact cancel_quiet _ _
  · split
    · exact quiet_of rfl fun _ _ h => by simp at h
    split
    · exact useResponse_quiet _ _
    · exact useResponse_quiet _ _

theorem resumeReading_quiet (stream : SseStream) (result : Except Thrown (Option (List UInt8))) :
    Quiet (s.resumeReading stream result) := by
  unfold resumeReading
  split
  · exact pulled_quiet _
  · exact pulled_quiet _
  · exact (pulled_quiet _).after rfl
  · exact pulled_quiet _

theorem resumeSaving_quiet (stream : SseStream) (result : Except Thrown Unit) :
    Quiet (s.resumeSaving o stream result) := by
  unfold resumeSaving
  split
  · split
    · exact close_quiet _
    · exact (pulled_quiet _).after rfl
  · exact pulled_quiet _

theorem resumeYielding_quiet (event : SseEvent) (stream : SseStream) (request : IteratorRequest) :
    Quiet (s.resumeYielding o event stream request) := by
  cases request with
  | next =>
    simp only [resumeYielding]
    split
    · exact (close_quiet _).after rfl
    · exact (commit_quiet _ _).after rfl
  | «return» => exact close_quiet _
  | throw error => exact close_quiet _

theorem resumeCompletion_quiet (completion : Completion) : Quiet (s.resumeCompletion o completion) := by
  cases completion with
  | returned => exact finish_quiet _
  | threw error => exact catchError_quiet _

theorem resumeDeciding_quiet (reason : ReconnectReason) (result : Except Thrown (Option JsNumber)) :
    Quiet (s.resumeDeciding o reason result) := by
  unfold resumeDeciding
  split
  · exact finish_quiet _
  · split
    · exact finish_quiet _
    · exact finish_quiet _
  · exact finish_quiet _
  · split
    · exact finish_quiet _
    · exact finish_quiet _
    · exact quiet_of rfl fun _ _ h => by simp at h
    · exact quiet_of rfl fun _ _ h => by simp at h

theorem resumeSleeping_quiet (result : Except Thrown Unit) : Quiet (s.resumeSleeping result) := by
  unfold resumeSleeping
  split
  · exact finish_quiet _
  · exact finish_quiet _
  · exact connect_quiet

/-- The step waits on: only requests and the signal may have changed. -/
structure Waits (s : Subscription) (step : Step Value) : Prop where
  silent : step.2 = []
  suspension : step.1.suspension = s.suspension
  signal : ∀ reason, s.signal = some reason → step.1.signal = some reason

theorem waits_self : Waits s (s, []) := ⟨rfl, rfl, fun _ h => h⟩

/-- What a step can be, as far as the mapper is concerned. -/
inductive StepCases (o : SseSubscriptionOptions Value) (s : Subscription)
    (input : SubscriptionInput Value) : Prop where
  | waits (h : Waits s (s.step o input))
  | quiet (h : Quiet (s.step o input))
  | maps (event : SseEvent) (stream : SseStream)
      (h : s.step o input = ({ s with suspension := .mapping event stream },
        [.delivered (.event event), .map event]))
  | mapped (event : SseEvent) (stream : SseStream) (result : Except Thrown (Option Value))
      (hs : s.suspension = .mapping event stream) (hi : input = .mapped result)
      (h : s.step o input = s.resumeMapping o event stream result)

theorem resumeIterating_cases (hraw : o.rawEvent = none) (pull : SsePull) :
    Quiet (s.resumeIterating o pull) ∨ ∃ event stream, s.resumeIterating o pull =
      ({ s with suspension := .mapping event stream }, [.delivered (.event event), .map event]) := by
  cases pull with
  | read stream => exact .inl (quiet_of rfl fun _ _ h => by simp at h)
  | done => exact .inl (decideReconnect_quiet _)
  | failed error => exact .inl (catchError_quiet _)
  | item item stream =>
    simp only [resumeIterating]
    unfold handleItem
    split
    · exact .inl (close_quiet _)
    · cases item with
      | retry milliseconds => exact .inl ((pulled_quiet _).after rfl)
      | checkpoint id => exact .inl ((commit_quiet _ _).after rfl)
      | event event =>
        right
        simp only [hraw]
        exact ⟨event, stream, rfl⟩

theorem resume_cases (request : IteratorRequest) :
    Waits s (s.resume o request) ∨ Quiet (s.resume o request) := by
  unfold resume
  split
  · exact .inr begin_quiet
  · exact .inr (finish_quiet _)
  · exact .inr (finish_quiet _)
  · exact .inr (resumeYielding_quiet _ _ _)
  · exact .inr (finish_quiet _)
  · exact .inr (finish_quiet _)
  · exact .inl waits_self

theorem step_cases (hraw : o.rawEvent = none) (input : SubscriptionInput Value) :
    StepCases o s input := by
  by_cases hm : ∃ event stream result, s.suspension = .mapping event stream ∧ input = .mapped result
  · obtain ⟨event, stream, result, hs, rfl⟩ := hm
    exact .mapped event stream result hs rfl (by simp [step, hs])
  suffices h : Waits s (s.step o input) ∨ Quiet (s.step o input) ∨
      ∃ event stream, s.step o input = ({ s with suspension := .mapping event stream },
        [.delivered (.event event), .map event]) by
    rcases h with h | h | ⟨event, stream, h⟩
    · exact .waits h
    · exact .quiet h
    · exact .maps event stream h
  unfold step
  split
  · exact .inl ⟨rfl, rfl, fun _ h => h⟩
  · exact .inl ⟨rfl, rfl, fun reason h => by simp [h]⟩
  · split
    · exact .inl waits_self
    · rcases resume_cases (o := o) (s := s) _ with h | h
      · exact .inl h
      · exact .inr (.inl h)
  · exact .inr (.inl (resumeLoading_quiet _))
  · exact .inr (.inl (resumeRequesting_quiet _))
  · exact .inr (.inl (cancel_quiet _ _))
  · exact .inr (.inl (useResponse_quiet _ _))
  · exact .inr (.inl (resumeCompletion_quiet _))
  · exact .inr (.inl (resumeReading_quiet _ _))
  · exact .inr (resumeIterating_cases hraw _)
  · next hs => exact absurd ⟨_, _, _, hs, rfl⟩ hm
  · exact .inr (.inl (resumeSaving_quiet _ _))
  · exact .inr (.inl (resumeCompletion_quiet _))
  · exact .inr (.inl (resumeDeciding_quiet _ _))
  · exact .inr (.inl (resumeSleeping_quiet _))
  · exact .inl waits_self

end Subscription

/-! ## The verdict on the event that is out -/

/-- What is to happen after the mapper was asked about an event. -/
inductive Verdict where
  | idle
  /-- The event has a known name and failed a check. -/
  | refusing
  /-- The event has a name that the catalogue does not know. -/
  | ignoring (event : SseEvent)
  | skipped (event : SseEvent)
  /-- The iterator ended at the event. -/
  | ended

namespace Verdict

variable (o : StreamEventsOptions)

def ofDecoded (event : SseEvent) : Except Thrown (Option Value) → Verdict
  | .error _ => .refusing
  | .ok none => .ignoring event
  | .ok (some _) => .idle

def record : Verdict → SubscriptionAction Value → Verdict
  | .idle, .map event =>
      ofDecoded event (decodeProtocolEvent o.validateEvent event o.protocolVersion)
  | .ignoring event, .skipped _ => .skipped event
  | .skipped _, .commit _ => .idle
  | .idle, _ => .idle
  | _, .settled _ => .ended
  | verdict, _ => verdict

/-- What may happen next. -/
def Permits : Verdict → SubscriptionAction Value → Prop
  | .idle, .yielded event value => Delivers o event value
  | .idle, .skipped _ => False
  | .idle, _ => True
  | .refusing, .decide _ => True
  | .refusing, .settled completion => ∃ error, completion = .threw error
  | .refusing, _ => False
  | .ignoring event, .skipped other => other = event
  | .ignoring _, .settled completion => ∃ error, completion = .threw error
  | .ignoring _, _ => False
  | .skipped event, .commit item => item = .event event ∧ isValidCheckpoint event.lastEventId
  | .skipped event, .settled completion =>
      ¬ isValidCheckpoint event.lastEventId ∧ ∃ error, completion = .threw error
  | .skipped _, _ => False
  | .ended, .settled _ => True
  | .ended, _ => False

def monitor : Monitor Verdict (SubscriptionAction Value) where
  initial := .idle
  record := record o
  permits := Permits o

/-- Where the body is suspended under a verdict. -/
def Place (s : Subscription) : Verdict → Prop
  | .idle => ∀ event stream, s.suspension = .mapping event stream → ∃ value,
      decodeProtocolEvent o.validateEvent event o.protocolVersion = .ok (some value)
  | .refusing =>
      (∃ event stream error, s.suspension = .mapping event stream ∧
        decodeProtocolEvent o.validateEvent event o.protocolVersion = .error error) ∨
      ∃ error, IsRejection error ∧
        (s.suspension = .closing (.threw error) ∨ s.suspension = .deciding (.error error))
  | .ignoring event =>
      decodeProtocolEvent o.validateEvent event o.protocolVersion = .ok none ∧
        ((∃ stream, s.suspension = .mapping event stream) ∨
          ∃ error reason, s.suspension = .closing (.threw error) ∧ s.signal = some reason)
  | .skipped event =>
      ¬ isValidCheckpoint event.lastEventId ∧
        s.suspension = .closing (.threw (.teslatlas .invalidSseCheckpoint))
  | .ended => s.suspension = .finished

/-- The step is permitted and its state fits the verdict after it. -/
abbrev Judged (verdict : Verdict) (step : Subscription.Step Value) : Prop :=
  (monitor o).Follows (Place o) verdict step

variable {o} {s : Subscription} {verdict : Verdict}

theorem permits_quiet {a : SubscriptionAction Value} (h : Subscription.isQuietAction a = true) :
    Permits o .idle a ∧ record o .idle a = .idle := by
  cases a <;> first | exact ⟨trivial, rfl⟩ | simp [Subscription.isQuietAction] at h

theorem judged_quiet {step : Subscription.Step Value} (h : Subscription.Quiet step) :
    Judged o .idle step := by
  obtain ⟨s', actions⟩ := step
  obtain ⟨hactions, hplace⟩ := h
  have hidle : (monitor o).Permitted .idle actions ∧ (monitor o).after .idle actions = .idle := by
    clear hplace
    induction actions with
    | nil => exact ⟨trivial, rfl⟩
    | cons a actions ih =>
      obtain ⟨hp, hr⟩ := permits_quiet (o := o) (hactions a List.mem_cons_self)
      obtain ⟨ihp, iha⟩ := ih fun b hb => hactions b (List.mem_cons_of_mem a hb)
      have hr' : (monitor o).record .idle a = .idle := hr
      refine ⟨⟨hp, hr'.symm ▸ ihp⟩, ?_⟩
      rw [Monitor.after_cons, hr', iha]
  refine ⟨hidle.1, ?_⟩
  show Place o s' ((monitor o).after .idle actions)
  rw [hidle.2]
  exact fun event stream h => absurd h (hplace event stream)

theorem judged_waits {step : Subscription.Step Value} (h : Subscription.Waits s step)
    (hplace : Place o s verdict) : Judged o verdict step := by
  obtain ⟨s', actions⟩ := step
  obtain ⟨rfl, hs, hsignal⟩ := h
  refine ⟨trivial, ?_⟩
  show Place o s' verdict
  simp only at hs hsignal
  cases verdict with
  | idle => simpa [Place, hs] using hplace
  | refusing => simpa [Place, hs] using hplace
  | ignoring event =>
    obtain ⟨hd, h | ⟨error, reason, h, hr⟩⟩ := hplace
    · exact ⟨hd, .inl (hs ▸ h)⟩
    · exact ⟨hd, .inr ⟨error, reason, hs ▸ h, hsignal reason hr⟩⟩
  | skipped event => simpa [Place, hs] using hplace
  | ended => simpa [Place, hs] using hplace

theorem judged_finish {completion : Completion} (h : Permits o verdict (.settled completion))
    (hended : record o verdict (.settled completion) = .ended) :
    Judged o verdict (s.finish completion) := by
  refine ⟨⟨h, trivial⟩, ?_⟩
  show Place o _ (record o verdict (.settled completion))
  rw [hended]
  exact rfl

end Verdict

/-! ## Steps while the event is out -/

namespace Subscription

variable {o : SseSubscriptionOptions Value} {s : Subscription}

theorem step_request_waits (request : IteratorRequest) : Waits s (s.step o (.request request)) :=
  ⟨rfl, rfl, fun _ h => h⟩

theorem step_abort_waits (reason : Thrown) : Waits s (s.step o (.abort reason)) :=
  ⟨rfl, rfl, fun _ h => by simp [step, h]⟩

theorem step_resume_waits (h : ∀ request, s.resume o request = (s, [])) :
    Waits s (s.step o .resume) := by
  simp only [step]
  split
  · exact waits_self
  · rw [h]
    exact waits_self

theorem step_mapping {event : SseEvent} {stream : SseStream}
    (hs : s.suspension = .mapping event stream) (input : SubscriptionInput Value) :
    (∃ result, input = .mapped result ∧ s.step o input = s.resumeMapping o event stream result) ∨
      Waits s (s.step o input) ∧ ∀ result, input ≠ .mapped result := by
  cases input with
  | mapped result => exact .inl ⟨result, rfl, by simp only [step, hs]⟩
  | request request => exact .inr ⟨step_request_waits _, by simp⟩
  | abort reason => exact .inr ⟨step_abort_waits _, by simp⟩
  | resume => exact .inr ⟨step_resume_waits fun _ => by simp only [resume, hs], by simp⟩
  | _ => exact .inr ⟨by simp only [step, hs]; exact waits_self, by simp⟩

theorem step_closing {completion : Completion} (hs : s.suspension = .closing completion)
    (input : SubscriptionInput Value) :
    (input = .tick ∧ s.step o input = s.resumeCompletion o completion) ∨
      Waits s (s.step o input) ∧ input ≠ .tick := by
  cases input with
  | tick => exact .inl ⟨rfl, by simp only [step, hs]⟩
  | request request => exact .inr ⟨step_request_waits _, by simp⟩
  | abort reason => exact .inr ⟨step_abort_waits _, by simp⟩
  | resume => exact .inr ⟨step_resume_waits fun _ => by simp only [resume, hs], by simp⟩
  | _ => exact .inr ⟨by simp only [step, hs]; exact waits_self, by simp⟩

theorem step_deciding {reason : ReconnectReason} (hs : s.suspension = .deciding reason)
    (input : SubscriptionInput Value) :
    (∃ result, input = .decided result ∧ s.step o input = s.resumeDeciding o reason result) ∨
      Waits s (s.step o input) ∧ ∀ result, input ≠ .decided result := by
  cases input with
  | decided result => exact .inl ⟨result, rfl, by simp only [step, hs]⟩
  | request request => exact .inr ⟨step_request_waits _, by simp⟩
  | abort reason => exact .inr ⟨step_abort_waits _, by simp⟩
  | resume => exact .inr ⟨step_resume_waits fun _ => by simp only [resume, hs], by simp⟩
  | _ => exact .inr ⟨by simp only [step, hs]; exact waits_self, by simp⟩

theorem step_finished (hs : s.suspension = .finished) (input : SubscriptionInput Value) :
    (∃ completion, s.step o input = s.finish completion) ∨ Waits s (s.step o input) := by
  cases input with
  | request request => exact .inr (step_request_waits _)
  | abort reason => exact .inr (step_abort_waits _)
  | resume =>
    simp only [step]
    split
    · exact .inr waits_self
    next request _ _ =>
    cases request with
    | next => exact .inl ⟨.returned, by simp only [resume, hs]⟩
    | «return» => exact .inl ⟨.returned, by simp only [resume, hs]⟩
    | throw error => exact .inl ⟨.threw error, by simp only [resume, hs]⟩
  | _ => right; simp only [step, hs]; exact waits_self

-- A rejection is no transport error, no limit and no checkpoint error.
theorem catchError_rejection {error : Thrown} (h : IsRejection error) :
    s.catchError o error =
      match s.signal with
      | some reason => s.finish (.threw (abortReason reason))
      | none => s.decideReconnect o (.error error) := by
  unfold catchError
  cases s.signal with
  | some reason => rfl
  | none =>
    rcases h with rfl | ⟨validator, rfl⟩
    · rfl
    · rfl

end Subscription

section Answers

variable {o : StreamEventsOptions} {s : Subscription} {i : StreamEventsInput}

theorem answer_mapped {event : SseEvent} {stream : SseStream}
    {result : Except Thrown (Option Value)} (hs : s.suspension = .mapping event stream)
    (h : o.answer s i = .mapped result) :
    result = decodeProtocolEvent o.validateEvent event o.protocolVersion := by
  cases i <;> simp_all [StreamEventsOptions.answer]

theorem answer_decided {reason : ReconnectReason} {result : Except Thrown (Option JsNumber)}
    (hs : s.suspension = .deciding reason) (h : o.answer s i = .decided result) :
    result = .ok (reconnectDelay reason) := by
  cases i <;> simp_all [StreamEventsOptions.answer]

-- The policy does not reconnect after a rejection.
theorem reconnectDelay_rejection {error : Thrown} (h : IsRejection error) :
    reconnectDelay (.error error) = none := by
  rcases h with rfl | ⟨validator, rfl⟩
  · rfl
  · rfl

-- So the subscription ends with it, or with the reason of an abort.
theorem resumeDeciding_rejection {error : Thrown} (h : IsRejection error) :
    ∃ thrown, s.resumeDeciding o.subscription (.error error)
      (.ok (reconnectDelay (.error error))) = s.finish (.threw thrown) := by
  rw [reconnectDelay_rejection h]
  unfold Subscription.resumeDeciding
  simp only [StreamEventsOptions.subscription, if_true]
  cases s.signal with
  | none => exact ⟨_, rfl⟩
  | some reason => exact ⟨_, rfl⟩

end Answers

namespace Verdict

variable {o : StreamEventsOptions} {s : Subscription}

theorem step_judged_idle (h : Place o s .idle) (i : StreamEventsInput) :
    Judged o .idle (s.step o.subscription (o.answer s i)) := by
  cases Subscription.step_cases (o := o.subscription) (s := s) rfl (o.answer s i) with
  | waits hw => exact judged_waits hw h
  | quiet hq => exact judged_quiet hq
  | maps event stream hm =>
    rw [hm]
    refine ⟨⟨trivial, trivial, trivial⟩, ?_⟩
    show Place o _
      (ofDecoded event (decodeProtocolEvent o.validateEvent event o.protocolVersion))
    cases hd : decodeProtocolEvent o.validateEvent event o.protocolVersion with
    | error error => exact .inl ⟨event, stream, error, rfl, hd⟩
    | ok value =>
      cases value with
      | none => exact ⟨hd, .inl ⟨stream, rfl⟩⟩
      | some value =>
        intro event' stream' h'
        simp only [Suspension.mapping.injEq] at h'
        exact ⟨value, h'.1 ▸ hd⟩
  | mapped event stream result hs hi hm =>
    obtain ⟨value, hd⟩ := h event stream hs
    rw [hm, answer_mapped hs hi, hd]
    unfold Subscription.resumeMapping
    cases s.signal with
    | some reason => exact judged_quiet (Subscription.close_quiet _)
    | none =>
      have hdelivers : Delivers o event value := decodeProtocolEvent_eq_some.mp hd
      refine ⟨⟨hdelivers, trivial⟩, ?_⟩
      exact fun event' stream' h' => by simp [Subscription.yieldValue] at h'

theorem step_judged_refusing (h : Place o s .refusing) (i : StreamEventsInput) :
    Judged o .refusing (s.step o.subscription (o.answer s i)) := by
  have hplace := h
  rcases h with ⟨event, stream, error, hs, hd⟩ | ⟨error, hr, hs | hs⟩
  · rcases Subscription.step_mapping hs (o.answer s i) with ⟨result, hi, hm⟩ | ⟨hw, -⟩
    · rw [hm, answer_mapped hs hi, hd]
      exact ⟨trivial, .inr ⟨error, decodeProtocolEvent_rejects _ _ _ error hd, .inl rfl⟩⟩
    · exact judged_waits hw hplace
  · rcases Subscription.step_closing hs (o.answer s i) with ⟨-, hm⟩ | ⟨hw, -⟩
    · rw [hm]
      simp only [Subscription.resumeCompletion, Subscription.catchError_rejection hr]
      cases s.signal with
      | some reason => exact judged_finish ⟨_, rfl⟩ rfl
      | none => exact ⟨⟨trivial, trivial⟩, .inr ⟨error, hr, .inr rfl⟩⟩
    · exact judged_waits hw hplace
  · rcases Subscription.step_deciding hs (o.answer s i) with ⟨result, hi, hm⟩ | ⟨hw, -⟩
    · obtain ⟨thrown, hfinish⟩ := resumeDeciding_rejection (o := o) (s := s) hr
      rw [hm, answer_decided hs hi, hfinish]
      exact judged_finish ⟨_, rfl⟩ rfl
    · exact judged_waits hw hplace

theorem step_judged_ignoring {event : SseEvent} (h : Place o s (.ignoring event))
    (i : StreamEventsInput) : Judged o (.ignoring event) (s.step o.subscription (o.answer s i)) := by
  have hplace := h
  obtain ⟨hd, ⟨stream, hs⟩ | ⟨error, reason, hs, hsignal⟩⟩ := h
  · rcases Subscription.step_mapping hs (o.answer s i) with ⟨result, hi, hm⟩ | ⟨hw, -⟩
    · rw [hm, answer_mapped hs hi, hd]
      unfold Subscription.resumeMapping
      cases hsignal : s.signal with
      | some reason => exact ⟨trivial, hd, .inr ⟨_, reason, rfl, hsignal⟩⟩
      | none =>
        simp only
        unfold Subscription.commit
        by_cases hvalid : isValidCheckpoint event.lastEventId = true
        · rw [if_pos (by exact hvalid)]
          obtain hstore | hstore := Bool.eq_false_or_eq_true o.subscription.checkpoint
          · rw [if_pos hstore]
            refine ⟨⟨rfl, ⟨rfl, hvalid⟩, trivial, trivial⟩, ?_⟩
            exact fun event' stream' h' => by cases h'
          · rw [if_neg (by simp [hstore])]
            refine ⟨⟨rfl, ⟨rfl, hvalid⟩, trivial⟩, ?_⟩
            exact fun event' stream' h' => by cases h'
        · rw [if_neg (by exact hvalid)]
          exact ⟨⟨rfl, trivial⟩, hvalid, rfl⟩
    · exact judged_waits hw hplace
  · rcases Subscription.step_closing hs (o.answer s i) with ⟨-, hm⟩ | ⟨hw, -⟩
    · rw [hm]
      simp only [Subscription.resumeCompletion, Subscription.catchError, hsignal]
      exact judged_finish ⟨_, rfl⟩ rfl
    · exact judged_waits hw hplace

theorem step_judged_skipped {event : SseEvent} (h : Place o s (.skipped event))
    (i : StreamEventsInput) : Judged o (.skipped event) (s.step o.subscription (o.answer s i)) := by
  have hplace := h
  obtain ⟨hvalid, hs⟩ := h
  rcases Subscription.step_closing hs (o.answer s i) with ⟨-, hm⟩ | ⟨hw, -⟩
  · rw [hm]
    simp only [Subscription.resumeCompletion, Subscription.catchError]
    cases s.signal with
    | some reason => exact judged_finish ⟨hvalid, _, rfl⟩ rfl
    | none => exact judged_finish ⟨hvalid, _, rfl⟩ rfl
  · exact judged_waits hw hplace

theorem step_judged_ended (h : Place o s .ended) (i : StreamEventsInput) :
    Judged o .ended (s.step o.subscription (o.answer s i)) := by
  rcases Subscription.step_finished h (o.answer s i) with ⟨completion, hm⟩ | hw
  · rw [hm]
    exact judged_finish trivial rfl
  · exact judged_waits hw h

theorem step_judged {verdict : Verdict} (h : Place o s verdict) (i : StreamEventsInput) :
    Judged o verdict (s.step o.subscription (o.answer s i)) := by
  cases verdict with
  | idle => exact step_judged_idle h i
  | refusing => exact step_judged_refusing h i
  | ignoring event => exact step_judged_ignoring h i
  | skipped event => exact step_judged_skipped h i
  | ended => exact step_judged_ended h i

end Verdict

/-! ## Runs -/

section Runs

variable (o : StreamEventsOptions) (signal : AbortState) (inputs : List StreamEventsInput)

theorem streamProtocolEvents_judged :
    Verdict.Judged o .idle ((streamProtocolEvents o signal).run inputs) :=
  have hinit : Verdict.Place o { signal } .idle := fun _ _ h => by cases h
  Monitor.follows_run (streamProtocolEvents o signal) (Verdict.monitor o) hinit
    (fun _ _ i h => Verdict.step_judged h i) inputs

theorem streamProtocolEvents_permitted :
    (Ledger.monitor o.checkpoint).Permitted {} ((streamProtocolEvents o signal).run inputs).2 :=
  have hinit : Subscription.Tracks o.subscription { signal } ({} : Ledger Value) :=
    ⟨rfl, rfl, Ledger.consistent_initial, fun _ => rfl⟩
  (Monitor.follows_run (streamProtocolEvents o signal) (Ledger.monitor o.checkpoint) hinit
    (fun _ _ i h => Subscription.step_keeps (o := o.subscription) h (o.answer _ i)) inputs).1

end Runs

/-- No connection is opened, nothing is yielded, committed or saved. -/
def Stops (log : List (SubscriptionAction Value)) : Prop :=
  ∀ a ∈ log, (∃ context, a = .decide context) ∨ ∃ completion, a = .settled completion

/-- The first call of the iterator that settles throws. -/
def EndsWithError (log : List (SubscriptionAction Value)) : Prop :=
  ∃ before error after, log = before ++ .settled (.threw error) :: after ∧
    ∀ completion, .settled completion ∉ before

namespace Verdict

variable {o : StreamEventsOptions}

theorem stops_ended {log : List (SubscriptionAction Value)}
    (h : (monitor o).Permitted .ended log) : Stops log := by
  induction log with
  | nil => exact fun a ha => by simp at ha
  | cons b log ih =>
    obtain ⟨hp, hlog⟩ := h
    cases b with
    | settled completion =>
      intro a ha
      rcases List.mem_cons.mp ha with rfl | ha
      · exact .inr ⟨completion, rfl⟩
      · exact ih hlog a ha
    | _ => exact absurd hp id

-- After a refusal nothing happens but the end of the iterator, which is an error.
theorem stops_refusing {log : List (SubscriptionAction Value)}
    (h : (monitor o).Permitted .refusing log) :
    Stops log ∧ ((monitor o).after .refusing log = .refusing ∧
      (∀ completion, .settled completion ∉ log) ∨
        (monitor o).after .refusing log = .ended ∧ EndsWithError log) := by
  induction log with
  | nil => exact ⟨fun a ha => by simp at ha, .inl ⟨rfl, by simp⟩⟩
  | cons b log ih =>
    obtain ⟨hp, hlog⟩ := h
    cases b with
    | settled completion =>
      obtain ⟨error, rfl⟩ : ∃ error, completion = .threw error := hp
      have hstops : Stops log := stops_ended hlog
      have hended : (monitor o).after .ended log = .ended := by
        refine Monitor.Permitted.preserves (P := (· = .ended)) hlog rfl fun k a hk ha => ?_
        subst hk
        cases a with
        | settled completion => rfl
        | _ => exact absurd ha id
      refine ⟨fun a ha => ?_, .inr ⟨hended, [], error, log, rfl, by simp⟩⟩
      rcases List.mem_cons.mp ha with rfl | ha
      · exact .inr ⟨_, rfl⟩
      · exact hstops a ha
    | decide context =>
      obtain ⟨hstops, hlast⟩ := ih hlog
      refine ⟨fun a ha => ?_, ?_⟩
      · rcases List.mem_cons.mp ha with rfl | ha
        · exact .inl ⟨context, rfl⟩
        · exact hstops a ha
      · rcases hlast with ⟨hk, hnone⟩ | ⟨hk, before, error, after, rfl, hbefore⟩
        · exact .inl ⟨hk, by simpa using hnone⟩
        · exact .inr ⟨hk, .decide context :: before, error, after, rfl, by simpa using hbefore⟩
    | _ => exact absurd hp id

end Verdict

/-! ## The end comes -/

/-- The answers that the iterator waits for on its way to the end, in order. -/
def answersToEnd : Suspension → List StreamEventsInput
  | .mapping _ _ => [.mapped, .tick, .decided]
  | .closing _ => [.tick, .decided]
  | .deciding _ => [.decided]
  | _ => []

theorem sublist_of_ne {i j : StreamEventsInput} {plan rest : List StreamEventsInput}
    (h : (j :: plan).Sublist (i :: rest)) (hne : i ≠ j) : (j :: plan).Sublist rest := by
  cases h with
  | cons _ h => exact h
  | cons_cons _ h => exact absurd rfl hne

theorem sublist_tail {i j : StreamEventsInput} {plan rest : List StreamEventsInput}
    (h : (j :: plan).Sublist (i :: rest)) : plan.Sublist rest := by
  cases h with
  | cons _ h => exact (List.sublist_cons_self j plan).trans h
  | cons_cons _ h => exact h

-- A step after a refusal waits, or takes the first of these answers.
theorem refusing_step {o : StreamEventsOptions} {s : Subscription}
    (h : Verdict.Place o s .refusing) (i : StreamEventsInput) {rest : List StreamEventsInput}
    (hrest : (answersToEnd s.suspension).Sublist (i :: rest)) :
    (s.step o.subscription (o.answer s i)).1.suspension = .finished ∨
      Verdict.Place o (s.step o.subscription (o.answer s i)).1 .refusing ∧
        (answersToEnd (s.step o.subscription (o.answer s i)).1.suspension).Sublist rest := by
  have hwaits : ∀ {j plan}, Subscription.Waits s (s.step o.subscription (o.answer s i)) → i ≠ j →
      answersToEnd s.suspension = j :: plan →
      Verdict.Place o (s.step o.subscription (o.answer s i)).1 .refusing ∧
        (answersToEnd (s.step o.subscription (o.answer s i)).1.suspension).Sublist rest := by
    intro j plan hw hne hplan
    refine ⟨?_, ?_⟩
    · simpa [Verdict.Place, hw.suspension] using h
    · rw [hw.suspension, hplan]
      exact sublist_of_ne (hplan ▸ hrest) hne
  rcases h with ⟨event, stream, error, hs, hd⟩ | ⟨error, hr, hs | hs⟩
  · rw [hs] at hrest
    rcases Subscription.step_mapping hs (o.answer s i) with ⟨result, hi, hm⟩ | ⟨hw, hne⟩
    · right
      rw [hm, answer_mapped hs hi, hd]
      exact ⟨.inr ⟨error, decodeProtocolEvent_rejects _ _ _ error hd, .inl rfl⟩,
        sublist_tail hrest⟩
    · refine .inr (hwaits hw ?_ (by rw [hs]; rfl))
      rintro rfl
      exact hne (decodeProtocolEvent o.validateEvent event o.protocolVersion)
        (by simp only [StreamEventsOptions.answer, hs])
  · rw [hs] at hrest
    rcases Subscription.step_closing hs (o.answer s i) with ⟨-, hm⟩ | ⟨hw, hne⟩
    · rw [hm]
      simp only [Subscription.resumeCompletion, Subscription.catchError_rejection hr]
      cases s.signal with
      | some reason => exact .inl rfl
      | none => exact .inr ⟨.inr ⟨error, hr, .inr rfl⟩, sublist_tail hrest⟩
    · refine .inr (hwaits hw ?_ (by rw [hs]; rfl))
      rintro rfl
      exact hne rfl
  · rw [hs] at hrest
    rcases Subscription.step_deciding hs (o.answer s i) with ⟨result, hi, hm⟩ | ⟨hw, hne⟩
    · obtain ⟨thrown, hfinish⟩ := resumeDeciding_rejection (o := o) (s := s) hr
      rw [hm, answer_decided hs hi, hfinish]
      exact .inl rfl
    · refine .inr (hwaits hw ?_ (by rw [hs]; rfl))
      rintro rfl
      exact hne (.ok (reconnectDelay (.error error))) (by simp only [StreamEventsOptions.answer, hs])

theorem finished_run {o : StreamEventsOptions} (signal : AbortState) {s : Subscription}
    (h : s.suspension = .finished) (rest : List StreamEventsInput) :
    ((streamProtocolEvents o signal).runFrom s rest).1.suspension = .finished := by
  induction rest generalizing s with
  | nil => exact h
  | cons i rest ih =>
    apply ih
    show (s.step o.subscription (o.answer s i)).1.suspension = .finished
    rcases Subscription.step_finished h (o.answer s i) with ⟨completion, hm⟩ | hw
    · rw [hm]
      rfl
    · rw [hw.suspension, h]

-- Once refused, the iterator needs no more than the answers on its way.
theorem refusing_finishes {o : StreamEventsOptions} (signal : AbortState) {s : Subscription}
    (h : Verdict.Place o s .refusing) (rest : List StreamEventsInput)
    (hrest : (answersToEnd s.suspension).Sublist rest) :
    ((streamProtocolEvents o signal).runFrom s rest).1.suspension = .finished := by
  induction rest generalizing s with
  | nil =>
    rw [List.sublist_nil] at hrest
    rcases h with ⟨event, stream, error, hs, -⟩ | ⟨error, -, hs | hs⟩
    all_goals
      rw [hs] at hrest
      simp [answersToEnd] at hrest
  | cons i rest ih =>
    rcases refusing_step h i hrest with hfinished | ⟨hplace, hrest'⟩
    · exact finished_run signal hfinished rest
    · exact ih hplace hrest'

/-! ## Deliveries -/

theorem decodeProtocolEvent_refuses {o : StreamEventsOptions} {event : SseEvent}
    (hknown : (eventIntroducedIn event.event).isSome = true)
    (h : ¬ ∃ value, Delivers o event value) :
    ∃ error, decodeProtocolEvent o.validateEvent event o.protocolVersion = .error error := by
  cases hd : decodeProtocolEvent o.validateEvent event o.protocolVersion with
  | error error => exact ⟨error, rfl⟩
  | ok value =>
    cases value with
    | none => simp [decodeProtocolEvent_eq_none.mp hd] at hknown
    | some value => exact absurd ⟨value, decodeProtocolEvent_eq_some.mp hd⟩ h

/-- What follows the mapping of an event with an unknown name: it is skipped and its id committed.
An abort, or an id that is no checkpoint, ends the iterator instead. -/
def PassesOver (event : SseEvent) (log : List (SubscriptionAction Value)) : Prop :=
  log = [] ∨ (∃ error later, log = .settled (.threw error) :: later) ∨
    (isValidCheckpoint event.lastEventId = true ∧
      ∃ later, log = .skipped event :: .commit (.event event) :: later) ∨
    isValidCheckpoint event.lastEventId = false ∧
      (log = [.skipped event] ∨ ∃ error later, log = .skipped event :: .settled (.threw error) :: later)

namespace Verdict

variable {o : StreamEventsOptions}

-- The mapper is asked only while nothing is out.
theorem follows_map (verdict : Verdict) {event : SseEvent} {after : List (SubscriptionAction Value)}
    {s : Subscription} (h : Judged o verdict (s, .map event :: after)) :
    Judged o (ofDecoded event (decodeProtocolEvent o.validateEvent event o.protocolVersion))
      (s, after) := by
  obtain ⟨⟨hmap, hafter⟩, hplace⟩ := h
  cases verdict with
  | idle => exact ⟨hafter, hplace⟩
  | refusing | ignoring | skipped | ended => exact absurd hmap id

theorem passesOver_of_ignoring {event : SseEvent} {log : List (SubscriptionAction Value)}
    {s : Subscription} (h : Judged o (.ignoring event) (s, log)) : PassesOver event log := by
  obtain ⟨hlog, hplace⟩ := h
  simp only at hlog
  cases log with
  | nil => exact .inl rfl
  | cons a later =>
    obtain ⟨ha, hlater⟩ := hlog
    cases a with
    | settled completion =>
      obtain ⟨error, rfl⟩ : ∃ error, completion = .threw error := ha
      exact .inr (.inl ⟨error, later, rfl⟩)
    | skipped other =>
      obtain rfl : other = event := ha
      cases later with
      | nil =>
        have hinvalid : ¬ isValidCheckpoint other.lastEventId = true := hplace.1
        exact .inr (.inr (.inr ⟨by simpa using hinvalid, .inl rfl⟩))
      | cons b later =>
        have hb : Permits o (.skipped other) b := hlater.1
        cases b with
        | commit item =>
          obtain ⟨rfl, hvalid⟩ : item = .event other ∧ _ := hb
          exact .inr (.inr (.inl ⟨hvalid, later, rfl⟩))
        | settled completion =>
          obtain ⟨hvalid, error, rfl⟩ : _ ∧ ∃ error, completion = .threw error := hb
          exact .inr (.inr (.inr ⟨by simpa using hvalid, .inr ⟨error, later, rfl⟩⟩))
        | _ => exact absurd hb id
    | _ => exact absurd ha id

end Verdict

section Deliveries

variable {o : StreamEventsOptions} {signal : AbortState} {inputs : List StreamEventsInput}

theorem judged_after_map {before after : List (SubscriptionAction Value)} {event : SseEvent}
    (h : ((streamProtocolEvents o signal).run inputs).2 = before ++ .map event :: after) :
    Verdict.Judged o
      (Verdict.ofDecoded event (decodeProtocolEvent o.validateEvent event o.protocolVersion))
      (((streamProtocolEvents o signal).run inputs).1, after) := by
  obtain ⟨hp, hplace⟩ := streamProtocolEvents_judged o signal inputs
  rw [h] at hp hplace
  rw [Monitor.permitted_append] at hp
  rw [Monitor.after_append] at hplace
  exact Verdict.follows_map ((Verdict.monitor o).after .idle before) ⟨hp.2, hplace⟩

theorem yielded_delivers {event : SseEvent} {value : Value}
    (h : .yielded event value ∈ ((streamProtocolEvents o signal).run inputs).2) :
    Delivers o event value := by
  obtain ⟨before, after, hlog⟩ := List.append_of_mem h
  obtain ⟨hp, -⟩ := streamProtocolEvents_judged o signal inputs
  rw [hlog, Monitor.permitted_append] at hp
  have hyield : Verdict.Permits o ((Verdict.monitor o).after .idle before) (.yielded event value) :=
    hp.2.1
  cases hverdict : (Verdict.monitor o).after .idle before with
  | idle => rw [hverdict] at hyield; exact hyield
  | refusing | ignoring | skipped | ended => rw [hverdict] at hyield; exact absurd hyield id

theorem streamProtocolEvents_transfers (o : StreamEventsOptions) (signal : AbortState)
    (inputs : List StreamEventsInput) :
    Transfer.monitor.Permitted {} ((streamProtocolEvents o signal).run inputs).2 :=
  have hinit : Subscription.Transfers { signal } {} := trivial
  (Monitor.follows_run (streamProtocolEvents o signal) Transfer.monitor hinit
    (fun _ _ i h => Subscription.step_transfers (o := o.subscription) h (o.answer _ i)) inputs).1

theorem permits_ledger {before : List (SubscriptionAction Value)} {a : SubscriptionAction Value}
    (h : before ++ [a] <+: ((streamProtocolEvents o signal).run inputs).2) :
    Ledger.Permits o.checkpoint (ledger before) a :=
  (streamProtocolEvents_permitted o signal inputs).permits_before h

-- An event is skipped right after the mapper did not know its name.
theorem skipped_unknown {event : SseEvent}
    (h : .skipped event ∈ ((streamProtocolEvents o signal).run inputs).2) :
    eventIntroducedIn event.event = none := by
  obtain ⟨before, after, hlog⟩ := List.append_of_mem h
  have hskip : before ++ [.skipped event] <+: ((streamProtocolEvents o signal).run inputs).2 :=
    ⟨after, by rw [hlog, List.append_assoc]; rfl⟩
  have hlast : (ledger before).last = some (.map event) := permits_ledger hskip
  rw [ledger_last] at hlast
  obtain ⟨first, rfl⟩ := List.getLast?_eq_some_iff.mp hlast
  have hmap : ((streamProtocolEvents o signal).run inputs).2 =
      first ++ .map event :: .skipped event :: after := by
    rw [hlog, List.append_assoc]
    rfl
  obtain ⟨hp, -⟩ := judged_after_map hmap
  cases hd : decodeProtocolEvent o.validateEvent event o.protocolVersion with
  | error error => rw [hd] at hp; exact absurd hp.1 id
  | ok value =>
    cases value with
    | none => exact decodeProtocolEvent_eq_none.mp hd
    | some value => rw [hd] at hp; exact absurd hp.1 id

-- The mapper sees the event that the stream has next, with all before it committed.
theorem map_next {before : List (SubscriptionAction Value)} {event : SseEvent}
    (h : before ++ [.map event] <+: ((streamProtocolEvents o signal).run inputs).2) :
    (ledger before).delivered = (ledger before).commits ++ [.event event] ∧
      .event event ∈
        (parseSseStream (transfer before).received (transfer before).resumedFrom).items := by
  have hinitial : before <+: ((streamProtocolEvents o signal).run inputs).2 :=
    (List.prefix_append _ _).trans h
  have hlast : (ledger before).last = some (.delivered (.event event)) := permits_ledger h
  have hconsistent : (ledger before).Consistent :=
    ((streamProtocolEvents_permitted o signal inputs).of_initial hinitial).preserves
      Ledger.consistent_initial fun _ _ hk hp => hk.record hp
  have hout := hconsistent.outstanding
  simp only [Ledger.Outstanding, hlast] at hout
  refine ⟨hout.2, ?_⟩
  rw [ledger_last] at hlast
  obtain ⟨first, rfl⟩ := List.getLast?_eq_some_iff.mp hlast
  have hitem := transfer_items_prefix (streamProtocolEvents_transfers o signal inputs) hinitial
  have htransfer : (transfer (first ++ [.delivered (.event event)])).received =
      (transfer first).received ∧
      (transfer (first ++ [.delivered (.event event)])).resumedFrom = (transfer first).resumedFrom := by
    simp [transfer, Transfer.record]
  rw [htransfer.1, htransfer.2]
  exact hitem.subset (by simp)

-- A commit is of a skipped event or of one that was yielded and asked past.
theorem commit_settled {before : List (SubscriptionAction Value)} {event : SseEvent}
    (h : before ++ [.commit (.event event)] <+: ((streamProtocolEvents o signal).run inputs).2) :
    before.getLast? = some (.skipped event) ∧ eventIntroducedIn event.event = none ∨
      ∃ value, Delivers o event value ∧
        ∃ first, before = first ++ [.yielded event value, .acknowledged event] := by
  have hinitial : before <+: ((streamProtocolEvents o signal).run inputs).2 :=
    (List.prefix_append _ _).trans h
  obtain ⟨⟨a, hlast, hsettles⟩, -⟩ := permits_ledger h
  rw [ledger_last] at hlast
  obtain ⟨first, rfl⟩ := List.getLast?_eq_some_iff.mp hlast
  cases a with
  | skipped other =>
    obtain rfl : other = event := hsettles
    exact .inl ⟨hlast, skipped_unknown (hinitial.subset (by simp))⟩
  | acknowledged other =>
    obtain rfl : other = event := hsettles
    obtain ⟨value, hyielded⟩ := permits_ledger hinitial
    rw [ledger_last] at hyielded
    obtain ⟨before, rfl⟩ := List.getLast?_eq_some_iff.mp hyielded
    exact .inr ⟨value, yielded_delivers (hinitial.subset (by simp)), before, by simp⟩
  | delivered item => cases item <;> exact absurd hsettles id
  | _ => exact absurd hsettles id

theorem unknown_passesOver {before after : List (SubscriptionAction Value)} {event : SseEvent}
    (h : ((streamProtocolEvents o signal).run inputs).2 = before ++ .map event :: after)
    (hunknown : eventIntroducedIn event.event = none) : PassesOver event after := by
  have hjudged := judged_after_map h
  rw [decodeProtocolEvent_eq_none.mpr hunknown] at hjudged
  exact Verdict.passesOver_of_ignoring hjudged

theorem refused_stops {before after : List (SubscriptionAction Value)} {event : SseEvent}
    (h : ((streamProtocolEvents o signal).run inputs).2 = before ++ .map event :: after)
    (hknown : (eventIntroducedIn event.event).isSome = true)
    (hfails : ¬ ∃ value, Delivers o event value) :
    Stops after ∧ ((∀ completion, .settled completion ∉ after) ∨ EndsWithError after) := by
  have hjudged := judged_after_map h
  obtain ⟨error, hd⟩ := decodeProtocolEvent_refuses hknown hfails
  rw [hd] at hjudged
  obtain ⟨hstops, hends⟩ := Verdict.stops_refusing hjudged.1
  exact ⟨hstops, hends.imp And.right And.right⟩

-- The moment an unknown name is answered.
theorem unknown_step {event : SseEvent} {stream : SseStream} {s : Subscription}
    (hs : s.suspension = .mapping event stream) (hunknown : eventIntroducedIn event.event = none)
    (hsignal : s.signal = none) (hvalid : isValidCheckpoint event.lastEventId = true) :
    ((streamProtocolEvents o signal).step s .mapped).2 =
      .skipped event :: .commit (.event event) ::
        if o.checkpoint then [.save (normalizeCheckpoint event.lastEventId)] else [] := by
  have hd : decodeProtocolEvent o.validateEvent event o.protocolVersion = .ok none :=
    decodeProtocolEvent_eq_none.mpr hunknown
  have hcommit : isValidCheckpoint (SseStreamItem.event event).lastEventId = true := hvalid
  simp only [streamProtocolEvents, StreamEventsOptions.answer, hs, Subscription.step, hd,
    Subscription.resumeMapping, hsignal, Subscription.commit, hcommit, if_true]
  rfl

theorem refused_ends {event : SseEvent} {stream : SseStream}
    (hs : ((streamProtocolEvents o signal).run inputs).1.suspension = .mapping event stream)
    (hknown : (eventIntroducedIn event.event).isSome = true)
    (hfails : ¬ ∃ value, Delivers o event value) {rest : List StreamEventsInput}
    (hrest : [.mapped, .tick, .decided].Sublist rest) :
    EndsWithError ((streamProtocolEvents o signal).runFrom
      ((streamProtocolEvents o signal).run inputs).1 rest).2 := by
  obtain ⟨error, hd⟩ := decodeProtocolEvent_refuses hknown hfails
  have hplace : Verdict.Place o ((streamProtocolEvents o signal).run inputs).1 .refusing :=
    .inl ⟨event, stream, error, hs, hd⟩
  have hfinished := refusing_finishes signal hplace rest (by rw [hs]; exact hrest)
  have hjudged : Verdict.Judged o .refusing ((streamProtocolEvents o signal).runFrom
      ((streamProtocolEvents o signal).run inputs).1 rest) :=
    (Verdict.monitor o).follows_runFrom (streamProtocolEvents o signal)
      (fun _ _ i h => Verdict.step_judged h i) hplace rest
  obtain ⟨-, ⟨hrefusing, -⟩ | ⟨-, hends⟩⟩ := Verdict.stops_refusing hjudged.1
  · have hlater := hjudged.2
    rw [hrefusing] at hlater
    rcases hlater with ⟨_, _, _, hs', -⟩ | ⟨_, -, hs' | hs'⟩
    all_goals
      rw [hfinished] at hs'
      cases hs'
  · exact hends

end Deliveries

-- Whatever the server, the store, the consumer and the caller's signal do:
-- every event yielded has passed all checks;
-- an event reaches the mapper only out of the stream, and only when all before it is committed;
-- an event is committed only after its value was yielded and asked past, or when its name is
-- unknown; an event with an unknown name is skipped and committed;
-- and after the mapper was asked about an event with a known name that fails a check, nothing
-- happens but the end of the iterator, which comes with the answers on its way and is an error.
theorem streamProtocolEvents_delivers (o : StreamEventsOptions) (signal : AbortState)
    (inputs : List StreamEventsInput) :
    let run := (streamProtocolEvents o signal).run inputs
    (∀ event value, .yielded event value ∈ run.2 → Delivers o event value) ∧
    (∀ before event, before ++ [.map event] <+: run.2 →
      (ledger before).delivered = (ledger before).commits ++ [.event event] ∧
        .event event ∈ (parseSseStream (transfer before).received (transfer before).resumedFrom).items) ∧
    (∀ before event, before ++ [.commit (.event event)] <+: run.2 →
      before.getLast? = some (.skipped event) ∧ eventIntroducedIn event.event = none ∨
        ∃ value, Delivers o event value ∧ ∃ first, before = first ++ [.yielded event value, .acknowledged event]) ∧
    (∀ before event after, run.2 = before ++ .map event :: after →
      eventIntroducedIn event.event = none → PassesOver event after) ∧
    (∀ event stream, run.1.suspension = .mapping event stream →
      eventIntroducedIn event.event = none → run.1.signal = none →
      isValidCheckpoint event.lastEventId = true →
        ((streamProtocolEvents o signal).step run.1 .mapped).2 =
          .skipped event :: .commit (.event event) ::
            if o.checkpoint then [.save (normalizeCheckpoint event.lastEventId)] else []) ∧
    (∀ before event after, run.2 = before ++ .map event :: after →
      (eventIntroducedIn event.event).isSome = true → (¬ ∃ value, Delivers o event value) →
      Stops after ∧ ((∀ completion, .settled completion ∉ after) ∨ EndsWithError after)) ∧
    (∀ event stream rest, run.1.suspension = .mapping event stream →
      (eventIntroducedIn event.event).isSome = true → (¬ ∃ value, Delivers o event value) →
      [.mapped, .tick, .decided].Sublist rest →
      EndsWithError ((streamProtocolEvents o signal).runFrom run.1 rest).2) :=
  ⟨fun _ _ => yielded_delivers, fun _ _ => map_next, fun _ _ => commit_settled,
    fun _ _ _ => unknown_passesOver, fun _ _ => unknown_step, fun _ _ _ => refused_stops,
    fun _ _ _ hs hknown hfails => refused_ends hs hknown hfails⟩

/-! ## An id that is no checkpoint, and a block without data -/

/-- The events that the mapper was asked about. -/
def mappedEvents (log : List (SubscriptionAction Value)) : List SseEvent :=
  log.filterMap fun | .map event => some event | _ => none

def committedItems (log : List (SubscriptionAction Value)) : List SseStreamItem :=
  log.filterMap fun | .commit item => some item | _ => none

def completions (log : List (SubscriptionAction Value)) : List Completion :=
  log.filterMap fun | .settled completion => some completion | _ => none

/-- The ids that connections were opened with. -/
def connections (log : List (SubscriptionAction Value)) : List (Option JsString) :=
  log.filterMap fun | .connect lastEventId => some lastEventId | _ => none

/-- A consumer's first request, and one connection's body up to the mapper or its end. -/
def oneConnection (body : List UInt8) : List StreamEventsInput :=
  [.request .next, .resume, .loaded (.ok .undefined),
    .responded (.ok { status := 200, contentType := some (js "text/event-stream"), body := some false }),
    .classified .undefined, .read (.ok (some body)), .tick]

/-- Version 1.2.0, without a checkpoint store. -/
def latestProfile (validateEvent : ProtocolValidator) : StreamEventsOptions where
  checkpoint := false
  protocolVersion := .v1_2_0
  validateEvent := validateEvent

/-- `id:` U+0001, `event:a`, `data:b`. -/
def controlCharacterBlock : List UInt8 :=
  [0x69, 0x64, 0x3A, 0x01, 0x0A, 0x65, 0x76, 0x65, 0x6E, 0x74, 0x3A, 0x61, 0x0A, 0x64, 0x61, 0x74,
    0x61, 0x3A, 0x62, 0x0A, 0x0A]

/-- `id:7`, `event:drive.started`, and no data. -/
def datalessBlock : List UInt8 :=
  [0x69, 0x64, 0x3A, 0x37, 0x0A, 0x65, 0x76, 0x65, 0x6E, 0x74, 0x3A, 0x64, 0x72, 0x69, 0x76, 0x65,
    0x2E, 0x73, 0x74, 0x61, 0x72, 0x74, 0x65, 0x64, 0x0A, 0x0A]

/-- The log of a run without a signal. -/
def latestProfileLog (inputs : List StreamEventsInput) : List (SubscriptionAction Value) :=
  ((streamProtocolEvents (latestProfile fun _ _ => false) none).run inputs).2

/-- The mapper answers about the event, and the loop over the body is left. -/
def controlCharacterLog : List (SubscriptionAction Value) :=
  latestProfileLog (oneConnection controlCharacterBlock ++ [.mapped, .tick])

/-- The body ends after the block, and a second connection is opened. -/
def datalessLog : List (SubscriptionAction Value) :=
  latestProfileLog (oneConnection datalessBlock ++
    [.saved (.ok ()), .read (.ok none), .tick, .decided, .slept (.ok ())])

-- The stream ends at an event with an unknown name whose id is no checkpoint, and it commits and
-- sends the id of a block with a known name and without data.
theorem streamProtocolEvents_exceptions :
    ((∃ event ∈ mappedEvents controlCharacterLog, eventIntroducedIn event.event = none) ∧
      committedItems controlCharacterLog = [] ∧
      completions controlCharacterLog = [.threw (.teslatlas .invalidSseCheckpoint)]) ∧
    (eventIntroducedIn (js "drive.started")).isSome = true ∧ mappedEvents datalessLog = [] ∧
      committedItems datalessLog = [.checkpoint (js "7")] ∧ completions datalessLog = [] ∧
      connections datalessLog = [none, some (js "7")] := by
  decide +kernel

end Events
