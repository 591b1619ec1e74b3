import TeslatlasSdk.Events.DefaultSleep
import TeslatlasSdk.Events.SseSubscription

/-!
# Reconnecting

A third monitor of subscriptions follows the course of the connections.  Besides the actions it is
told what the body meets between them: how a connection ends, what the policy answers, that a wait
is over, that the signal is aborted.
-/

open Text Core

namespace Events

inductive Occurrence where
  | aborted (reason : Thrown)
  /-- An error reaches the `catch` around the connection. -/
  | failed (error : Thrown)
  /-- The body has been read to its end. -/
  | ended
  /-- The delay that the policy gives, or what it throws; without a policy it refuses. -/
  | answered (answer : Except Thrown (Option JsNumber))
  | slept (result : Except Thrown Unit)

namespace Subscription

variable {Event : Type}

/-- What a step meets, by the place where the body is suspended. -/
def occurrences (o : SseSubscriptionOptions Event) (s : Subscription)
    (input : SubscriptionInput Event) : List Occurrence :=
  match input, s.suspension with
  | .abort reason, _ => [.aborted reason]
  | .responded (.error error), .requesting => [.failed error]
  | .tick, .iterating (.failed error) => [.failed error]
  | .tick, .iterating .done => [.ended]
  | .tick, .cancelling (.threw error) => [.failed error]
  | .tick, .closing (.threw error) => [.failed error]
  | .decided answer, .deciding _ => [.answered (if o.reconnect then answer else .ok none)]
  | .slept result, .sleeping => [.slept result]
  | _, _ => []

end Subscription

/-! ## The course of a subscription -/

/-- The errors that end the stream without a look at the policy. -/
def EndsStream (error : Thrown) : Prop :=
  error = .teslatlas .invalidSseCheckpoint ∨ ∃ validator, error = .teslatlas (.sseLimit validator)

/-- What the policy is told of an error, and the caller if it refuses. -/
def reportedError : Thrown → Thrown
  | .sseStreamRead => .teslatlas .transport
  | error => error

inductive CourseStage where
  | unconnected
  | connected
  | failed (error : Thrown)
  | ended
  | consulted
  | answered (answer : Except Thrown (Option JsNumber))
  | waiting
  | woken (result : Except Thrown Unit)
  | closed

structure Course where
  signal : AbortState
  stage : CourseStage := .unconnected
  /-- The number of connections so far. -/
  connections : Nat := 0
  /-- The last retry hint of the last connection. -/
  hint : Option Nat := none
  /-- Why the last connection is over. -/
  reason : ReconnectReason := .eof

namespace Course

variable {Event : Type}

def record (c : Course) : Occurrence ⊕ SubscriptionAction Event → Course
  | .inl (.aborted reason) => { c with signal := c.signal.or (some reason) }
  | .inl (.failed error) =>
      { c with stage := .failed error, reason := .error (reportedError error) }
  | .inl .ended => { c with stage := .ended, reason := .eof }
  | .inl (.answered answer) => { c with stage := .answered answer }
  | .inl (.slept result) => { c with stage := .woken result }
  | .inr (.connect _) =>
      { c with stage := .connected, connections := c.connections + 1, hint := none }
  | .inr (.delivered (.retry milliseconds)) => { c with hint := some milliseconds }
  | .inr (.decide _) => { c with stage := .consulted }
  | .inr (.sleep _) => { c with stage := .waiting }
  | .inr (.settled _) => { c with stage := .closed }
  | .inr _ => c

/-- Whether the reconnect policy is asked about a connection that is over. -/
def Undecided (c : Course) : Prop :=
  c.stage = .ended ∨ ∃ error, c.stage = .failed error ∧ ¬ EndsStream error

/-- The wait for which the policy has given a delay. -/
def Waits (o : SseSubscriptionOptions Event) (c : Course) (milliseconds : Nat) : Prop :=
  ∃ number policyDelay minimum maximum, c.stage = .answered (.ok (some number)) ∧
    number.nonNegativeSafeInteger? = some policyDelay ∧ o.retryBounds = some (minimum, maximum) ∧
    milliseconds =
      match c.hint with
      | none => policyDelay
      | some hint => clamp hint minimum maximum

/-- How the stream ends at a stage, if it does. -/
def Ends (c : Course) (completion : Completion) : Prop :=
  match c.stage, c.signal with
  | .unconnected, _ => True
  | .closed, _ => True
  | .connected, _ => completion = .returned
  | .failed _, some reason => completion = .threw (abortReason reason)
  | .failed error, none => EndsStream error ∧ completion = .threw error
  | .answered (.error error), _ => completion = .threw error
  | .answered (.ok (some number)), signal =>
      match number.nonNegativeSafeInteger?, signal with
      | none, _ => completion = .threw (.teslatlas .invalidSseRetryConfiguration)
      | some _, some reason => completion = .threw (abortReason reason)
      | some _, none => False
  | .answered (.ok none), some reason => completion = .threw (abortReason reason)
  | .answered (.ok none), none =>
      match c.reason with
      | .error error => completion = .threw error
      | .eof => completion = .returned
  | .woken (.error error), _ => completion = .threw error
  | .woken (.ok ()), some reason => completion = .threw (abortReason reason)
  | _, _ => False

def Permits (o : SseSubscriptionOptions Event) (c : Course) :
    Occurrence ⊕ SubscriptionAction Event → Prop
  | .inl (.aborted _) => True
  | .inl (.failed _) => c.stage = .connected
  | .inl .ended => c.stage = .connected
  | .inl (.answered answer) =>
      c.stage = .consulted ∨ (o.reconnect = false ∧ c.Undecided ∧ answer = .ok none)
  | .inl (.slept _) => c.stage = .waiting
  | .inr (.connect _) =>
      c.signal = none ∧ (c.stage = .unconnected ∨ c.stage = .woken (.ok ()))
  | .inr (.decide context) =>
      o.reconnect = true ∧ c.Undecided ∧ context = ⟨c.connections, c.reason, c.hint⟩
  | .inr (.sleep milliseconds) => c.signal = none ∧ c.Waits o milliseconds
  | .inr (.settled completion) => c.Ends completion
  | .inr .load => c.stage = .unconnected
  | .inr (.loaded _) => c.stage = .unconnected
  | .inr _ => c.stage = .connected

def monitor (o : SseSubscriptionOptions Event) (signal : AbortState) :
    Monitor Course (Occurrence ⊕ SubscriptionAction Event) where
  initial := { signal }
  record := record
  permits := Permits o

/-- The stages at which the body may be left suspended. -/
def Rests (o : SseSubscriptionOptions Event) (c : Course) : Prop :=
  match c.stage with
  | .failed _ => o.reconnect = false ∧ c.Undecided
  | .ended => o.reconnect = false
  | .answered _ => False
  | .woken _ => False
  | _ => True

end Course

/-! ## Subscriptions keep to the course -/

namespace Subscription

variable {Event : Type}

/-- A connection is open, and the state agrees with the course. -/
structure Open (o : SseSubscriptionOptions Event) (s : Subscription) (c : Course) : Prop where
  stage : c.stage = .connected
  attempt : s.reconnectAttempt = c.connections
  hint : s.serverRetryMilliseconds = c.hint
  bounds : o.retryBounds.isSome

/-- Where the body is suspended, and at what stage the course is. -/
def CoursePlace (o : SseSubscriptionOptions Event) (s : Subscription) (c : Course) : Prop :=
  match s.suspension with
  | .start => c.stage = .unconnected ∧ s.reconnectAttempt = c.connections + 1
  | .loading =>
      c.stage = .unconnected ∧ s.reconnectAttempt = c.connections + 1 ∧ o.retryBounds.isSome
  | .deciding reason =>
      (if o.reconnect then c.stage = .consulted else c.Undecided) ∧ reason = c.reason ∧
        s.reconnectAttempt = c.connections ∧ s.serverRetryMilliseconds = c.hint ∧
        o.retryBounds.isSome
  | .sleeping =>
      c.stage = .waiting ∧ s.reconnectAttempt = c.connections ∧ o.retryBounds.isSome
  | .finished => c.stage = .closed
  | _ => Open o s c

structure OnCourse (o : SseSubscriptionOptions Event) (s : Subscription) (c : Course) : Prop where
  signal : s.signal = c.signal
  place : CoursePlace o s c

/-- The step's actions are permitted, and its state is on the course after them. -/
abbrev KeepsCourse (o : SseSubscriptionOptions Event) (signal : AbortState) (c : Course)
    (step : Step Event) : Prop :=
  (Course.monitor o signal).Follows (OnCourse o) c (step.1, step.2.map .inr)

variable {o : SseSubscriptionOptions Event} {signal : AbortState} {s : Subscription} {c : Course}

theorem OnCourse.rests (h : OnCourse o s c) : c.Rests o := by
  have hplace := h.place
  unfold CoursePlace at hplace
  unfold Course.Rests
  split at hplace
  · rw [hplace.1]
    trivial
  · rw [hplace.1]
    trivial
  · have hstage := hplace.1
    split at hstage
    · rw [hstage]
      trivial
    · next hreconnect =>
      have hnone : o.reconnect = false := by simpa using hreconnect
      have hundecided := hstage
      obtain hended | ⟨error, hfailed, -⟩ := hstage
      · rw [hended]
        exact hnone
      · rw [hfailed]
        exact ⟨hnone, hundecided⟩
  · rw [hplace.1]
    trivial
  · rw [hplace]
    trivial
  · rw [hplace.stage]
    trivial

theorem quiet_course (hsignal : s.signal = c.signal) (hplace : CoursePlace o s c) :
    KeepsCourse o signal c (s, []) :=
  ⟨trivial, hsignal, hplace⟩

theorem after_course {a : SubscriptionAction Event} {step : Step Event}
    (ha : Course.Permits o c (.inr a)) (h : KeepsCourse o signal (c.record (.inr a)) step) :
    KeepsCourse o signal c (Step.after [a] step) :=
  ⟨⟨ha, h.1⟩, h.2⟩

theorem finish_course (hsignal : s.signal = c.signal) {completion : Completion}
    (h : c.Ends completion) : KeepsCourse o signal c (s.finish completion) :=
  ⟨⟨h, trivial⟩, hsignal, rfl⟩

theorem decideReconnect_course (hsignal : s.signal = c.signal) (hundecided : c.Undecided)
    (hattempt : s.reconnectAttempt = c.connections) (hhint : s.serverRetryMilliseconds = c.hint)
    (hbounds : o.retryBounds.isSome) : KeepsCourse o signal c (s.decideReconnect o c.reason) := by
  unfold decideReconnect
  split
  · next hreconnect =>
    refine ⟨⟨⟨hreconnect, hundecided, ?_⟩, trivial⟩, hsignal, ?_, rfl, hattempt, hhint, hbounds⟩
    · rw [hattempt, hhint]
    · rw [if_pos hreconnect]
      rfl
  · next hreconnect =>
    refine quiet_course hsignal ⟨?_, rfl, hattempt, hhint, hbounds⟩
    rw [if_neg hreconnect]
    exact hundecided

-- An error is thrown, or the policy is asked.
theorem catchError_course (hsignal : s.signal = c.signal) {error : Thrown}
    (hstage : c.stage = .failed error) (hreason : c.reason = .error (reportedError error))
    (hattempt : s.reconnectAttempt = c.connections) (hhint : s.serverRetryMilliseconds = c.hint)
    (hbounds : o.retryBounds.isSome) : KeepsCourse o signal c (s.catchError o error) := by
  have hends : EndsStream error → s.signal = none →
      KeepsCourse o signal c (s.finish (.threw error)) := by
    intro hfinal hnone
    refine finish_course hsignal ?_
    rw [hsignal] at hnone
    simp only [Course.Ends, hstage, hnone]
    exact ⟨hfinal, trivial⟩
  have hdecides : ¬ EndsStream error →
      KeepsCourse o signal c (s.decideReconnect o (.error (reportedError error))) := by
    intro hnot
    rw [← hreason]
    exact decideReconnect_course hsignal (.inr ⟨error, hstage, hnot⟩) hattempt hhint hbounds
  unfold catchError
  split
  · next reason haborted =>
    refine finish_course hsignal ?_
    rw [hsignal] at haborted
    simp only [Course.Ends, hstage, haborted]
  · next hnone =>
    split
    · exact hends (.inl rfl) hnone
    · next validator => exact hends (.inr ⟨validator, rfl⟩) hnone
    · refine hdecides ?_
      rintro (h | ⟨validator, h⟩) <;> cases h
    · next hcheckpoint hlimit hread =>
      have hreported : reportedError error = error := by
        unfold reportedError
        split
        · exact absurd rfl hread
        · rfl
      rw [hreported] at hdecides
      refine hdecides ?_
      rintro (h | ⟨validator, h⟩)
      · exact hcheckpoint h
      · exact hlimit validator h

/-! ### While a connection is open -/

theorem cancel_course (hsignal : s.signal = c.signal) (h : Open o s c) (response : SseResponse)
    (completion : Completion) : KeepsCourse o signal c (s.cancel response completion) := by
  unfold cancel
  split
  · exact ⟨⟨h.stage, trivial⟩, hsignal, ⟨h.stage, h.attempt, h.hint, h.bounds⟩⟩
  · exact quiet_course hsignal ⟨h.stage, h.attempt, h.hint, h.bounds⟩

theorem close_course (hsignal : s.signal = c.signal) (h : Open o s c) (completion : Completion) :
    KeepsCourse o signal c (s.close completion) :=
  quiet_course hsignal ⟨h.stage, h.attempt, h.hint, h.bounds⟩

theorem pulled_course (hsignal : s.signal = c.signal) (h : Open o s c) (pull : SsePull) :
    KeepsCourse o signal c (s.pulled pull) := by
  unfold pulled
  split
  · exact quiet_course hsignal ⟨h.stage, h.attempt, h.hint, h.bounds⟩
  · exact quiet_course hsignal ⟨h.stage, h.attempt, h.hint, h.bounds⟩

theorem commit_course (hsignal : s.signal = c.signal) (h : Open o s c) (item : SseStreamItem)
    (stream : SseStream) : KeepsCourse o signal c (s.commit o item stream) := by
  unfold commit
  split
  · split
    · exact ⟨⟨h.stage, h.stage, trivial⟩, hsignal, ⟨h.stage, h.attempt, h.hint, h.bounds⟩⟩
    · exact ⟨⟨h.stage, trivial⟩, hsignal, ⟨h.stage, h.attempt, h.hint, h.bounds⟩⟩
  · exact close_course hsignal h _

theorem yieldValue_course (hsignal : s.signal = c.signal) (h : Open o s c) (event : SseEvent)
    (value : Event) (stream : SseStream) :
    KeepsCourse o signal c (s.yieldValue event value stream) :=
  ⟨⟨h.stage, trivial⟩, hsignal, ⟨h.stage, h.attempt, h.hint, h.bounds⟩⟩

-- A retry item is the new hint.
theorem handleItem_course (hsignal : s.signal = c.signal) (h : Open o s c) (item : SseStreamItem)
    (stream : SseStream) : KeepsCourse o signal c (s.handleItem o item stream) := by
  unfold handleItem
  split
  · exact close_course hsignal h _
  · cases item with
    | retry milliseconds =>
      refine after_course h.stage ?_
      exact pulled_course (s := { s with serverRetryMilliseconds := some milliseconds })
        (c := { c with hint := some milliseconds }) hsignal ⟨h.stage, h.attempt, rfl, h.bounds⟩ _
    | checkpoint id => exact after_course h.stage (commit_course hsignal h _ stream)
    | event event =>
      refine after_course h.stage ?_
      simp only
      split
      · exact yieldValue_course hsignal h event _ stream
      · exact ⟨⟨h.stage, trivial⟩, hsignal, ⟨h.stage, h.attempt, h.hint, h.bounds⟩⟩

theorem useResponse_course (hsignal : s.signal = c.signal) (h : Open o s c)
    (response : SseResponse) (action : SseResponseAction) :
    KeepsCourse o signal c (s.useResponse response action) := by
  unfold useResponse
  split
  · exact cancel_course hsignal h _ _
  · exact cancel_course hsignal h _ _
  · exact cancel_course hsignal h _ _
  · split
    · exact cancel_course hsignal h _ _
    split
    · exact cancel_course hsignal h _ _
    split
    · exact cancel_course hsignal h _ _
    · exact pulled_course hsignal h _
    · exact pulled_course hsignal h _

theorem resumeReading_course (hsignal : s.signal = c.signal) (h : Open o s c) (stream : SseStream)
    (result : Except Thrown (Option (List UInt8))) :
    KeepsCourse o signal c (s.resumeReading stream result) := by
  unfold resumeReading
  split
  · exact pulled_course hsignal h _
  · exact pulled_course hsignal h _
  · exact after_course h.stage (pulled_course hsignal h _)
  · exact pulled_course hsignal h _

theorem resumeMapping_course (hsignal : s.signal = c.signal) (h : Open o s c) (event : SseEvent)
    (stream : SseStream) (result : Except Thrown (Option Event)) :
    KeepsCourse o signal c (s.resumeMapping o event stream result) := by
  unfold resumeMapping
  split
  · exact close_course hsignal h _
  · exact close_course hsignal h _
  · exact after_course h.stage (commit_course hsignal h _ stream)
  · exact yieldValue_course hsignal h event _ stream

theorem resumeSaving_course (hsignal : s.signal = c.signal) (h : Open o s c) (stream : SseStream)
    (result : Except Thrown Unit) : KeepsCourse o signal c (s.resumeSaving o stream result) := by
  unfold resumeSaving
  split
  · split
    · exact close_course hsignal h _
    · exact after_course h.stage (pulled_course hsignal h _)
  · exact pulled_course hsignal h _

theorem resumeYielding_course (hsignal : s.signal = c.signal) (h : Open o s c) (event : SseEvent)
    (stream : SseStream) (request : IteratorRequest) :
    KeepsCourse o signal c (s.resumeYielding o event stream request) := by
  cases request with
  | next =>
    simp only [resumeYielding]
    split
    · exact after_course h.stage (close_course hsignal h _)
    · exact after_course h.stage (commit_course hsignal h _ stream)
  | «return» => exact close_course hsignal h _
  | throw error => exact close_course hsignal h _

/-! ### Between connections -/

-- The next connection, or the first.
theorem connect_course (hsignal : s.signal = c.signal)
    (hstage : c.stage = .unconnected ∨ c.stage = .woken (.ok ()))
    (hattempt : s.reconnectAttempt = c.connections + 1) (hbounds : o.retryBounds.isSome) :
    KeepsCourse o signal c s.connect := by
  unfold connect
  split
  · next reason haborted =>
    refine finish_course hsignal ?_
    rw [hsignal] at haborted
    obtain hstage | hstage := hstage
    · simp only [Course.Ends, hstage]
    · simp only [Course.Ends, hstage, haborted]
  · next hnone => exact ⟨⟨⟨hsignal ▸ hnone, hstage⟩, trivial⟩, hsignal, ⟨rfl, hattempt, rfl, hbounds⟩⟩

theorem begin_course (hsignal : s.signal = c.signal) (hstage : c.stage = .unconnected)
    (hattempt : s.reconnectAttempt = c.connections + 1) :
    KeepsCourse o signal c (s.begin o) := by
  have hends : ∀ completion, c.Ends completion := by
    intro completion
    simp only [Course.Ends, hstage]
  unfold begin
  split
  · exact finish_course hsignal (hends _)
  · next hbounds =>
    have hsome : o.retryBounds.isSome := Option.isSome_iff_ne_none.mpr hbounds
    split
    · exact finish_course hsignal (hends _)
    split
    · exact finish_course hsignal (hends _)
    split
    · exact ⟨⟨hstage, trivial⟩, hsignal, hstage, hattempt, hsome⟩
    · exact quiet_course hsignal ⟨hstage, hattempt, hsome⟩

theorem resumeLoading_course (hsignal : s.signal = c.signal) (hstage : c.stage = .unconnected)
    (hattempt : s.reconnectAttempt = c.connections + 1) (hbounds : o.retryBounds.isSome)
    (stored : Except Thrown StoredCheckpoint) :
    KeepsCourse o signal c (s.resumeLoading stored) := by
  have hends : ∀ completion, c.Ends completion := by
    intro completion
    simp only [Course.Ends, hstage]
  unfold resumeLoading
  split
  · exact finish_course hsignal (hends _)
  · exact finish_course hsignal (hends _)
  · exact after_course hstage
      (connect_course (s := { s with committedLastEventId := none }) hsignal (.inl hstage) hattempt
        hbounds)
  · next id _ =>
    split
    · exact after_course hstage
        (connect_course (s := { s with committedLastEventId := some id }) hsignal (.inl hstage)
          hattempt hbounds)
    · exact finish_course hsignal (hends _)
  · exact finish_course hsignal (hends _)

/-! ### After what a step meets -/

/-- The note of a step, and then its actions. -/
abbrev KeepsNoted (o : SseSubscriptionOptions Event) (signal : AbortState) (c : Course)
    (noted : List Occurrence) (step : Step Event) : Prop :=
  (Course.monitor o signal).Follows (OnCourse o) c (step.1, noted.map .inl ++ step.2.map .inr)

theorem noted_course {occurrence : Occurrence} {step : Step Event}
    (hp : Course.Permits o c (.inl occurrence))
    (h : KeepsCourse o signal ((Course.monitor o signal).record c (.inl occurrence)) step) :
    KeepsNoted o signal c [occurrence] step :=
  ⟨⟨hp, h.1⟩, h.2⟩

theorem failed_course (hsignal : s.signal = c.signal) (h : Open o s c) (error : Thrown) :
    KeepsNoted o signal c [.failed error] (s.catchError o error) :=
  noted_course h.stage
    (catchError_course (c := { c with stage := .failed error,
                                      reason := .error (reportedError error) })
      hsignal rfl rfl h.attempt h.hint h.bounds)

theorem resumeRequesting_course (hsignal : s.signal = c.signal) (h : Open o s c)
    (response : SseResponse) : KeepsCourse o signal c (s.resumeRequesting o (.ok response)) := by
  unfold resumeRequesting
  split
  · next herror => cases herror
  · exact cancel_course hsignal h _ _
  · split
    · exact quiet_course hsignal ⟨h.stage, h.attempt, h.hint, h.bounds⟩
    split
    · exact useResponse_course hsignal h _ _
    · exact useResponse_course hsignal h _ _

-- The stream comes to its end as an error, or at a request of the consumer or the classifier.
theorem resumeCompletion_course (hsignal : s.signal = c.signal) (h : Open o s c)
    (completion : Completion) :
    KeepsNoted o signal c
      (match completion with
        | .threw error => [.failed error]
        | .returned => [])
      (s.resumeCompletion o completion) := by
  cases completion with
  | returned =>
    refine finish_course hsignal ?_
    simp only [Course.Ends, h.stage]
  | threw error => exact failed_course hsignal h error

theorem resumeIterating_course (hsignal : s.signal = c.signal) (h : Open o s c) (pull : SsePull) :
    KeepsNoted o signal c
      (match pull with
        | .failed error => [.failed error]
        | .done => [.ended]
        | _ => [])
      (s.resumeIterating o pull) := by
  cases pull with
  | read stream => exact quiet_course hsignal ⟨h.stage, h.attempt, h.hint, h.bounds⟩
  | item item stream => exact handleItem_course hsignal h item stream
  | done =>
    refine noted_course h.stage ?_
    exact decideReconnect_course (c := { c with stage := .ended, reason := .eof }) hsignal
      (.inl rfl) h.attempt h.hint h.bounds
  | failed error => exact failed_course hsignal h error

-- A wait is exactly as long as the policy and the hint say.
theorem answered_course (hsignal : s.signal = c.signal)
    {result answer : Except Thrown (Option JsNumber)} (hstage : c.stage = .answered answer)
    (hanswer : (if o.reconnect then result else .ok none) = answer)
    (hattempt : s.reconnectAttempt = c.connections) (hhint : s.serverRetryMilliseconds = c.hint)
    (hbounds : o.retryBounds.isSome) :
    KeepsCourse o signal c (s.resumeDeciding o c.reason result) := by
  obtain ⟨⟨minimum, maximum⟩, hsome⟩ := Option.isSome_iff_exists.mp hbounds
  have hsleeps : ∀ milliseconds, s.signal = none → c.Waits o milliseconds →
      KeepsCourse o signal c ({ s with suspension := .sleeping }, [.sleep milliseconds]) :=
    fun milliseconds hnone hwaits =>
      ⟨⟨⟨hsignal ▸ hnone, hwaits⟩, trivial⟩, hsignal, rfl, hattempt, hbounds⟩
  unfold resumeDeciding
  rw [hanswer]
  split
  · refine finish_course hsignal ?_
    simp only [Course.Ends, hstage]
  · next hnone =>
    split
    · next hreason =>
      refine finish_course hsignal ?_
      simp only [Course.Ends, hstage, ← hsignal, hnone, hreason]
    · next hreason =>
      refine finish_course hsignal ?_
      simp only [Course.Ends, hstage, ← hsignal, hnone, hreason]
  · next habort =>
    refine finish_course hsignal ?_
    simp only [Course.Ends, hstage, ← hsignal, habort]
  · next number =>
    split
    · next hnumber =>
      refine finish_course hsignal ?_
      simp only [Course.Ends, hstage, hnumber]
    · next hnumber habort =>
      refine finish_course hsignal ?_
      simp only [Course.Ends, hstage, ← hsignal, habort, hnumber]
    · next policyDelay hnumber hnone hunhinted =>
      refine hsleeps _ hnone ⟨number, policyDelay, minimum, maximum, hstage, hnumber, hsome, ?_⟩
      rw [← hhint, hunhinted]
    · next policyDelay milliseconds hnumber hnone hhinted =>
      rw [hsome]
      refine hsleeps _ hnone ⟨number, policyDelay, minimum, maximum, hstage, hnumber, hsome, ?_⟩
      rw [← hhint, hhinted]

theorem resumeDeciding_course (hsignal : s.signal = c.signal)
    (hstage : if o.reconnect then c.stage = .consulted else c.Undecided)
    (hattempt : s.reconnectAttempt = c.connections) (hhint : s.serverRetryMilliseconds = c.hint)
    (hbounds : o.retryBounds.isSome) (result : Except Thrown (Option JsNumber)) :
    KeepsNoted o signal c [.answered (if o.reconnect then result else .ok none)]
      (s.resumeDeciding o c.reason result) := by
  refine noted_course ?_ ?_
  · cases hreconnect : o.reconnect with
    | true =>
      rw [hreconnect, if_pos rfl] at hstage
      exact .inl hstage
    | false =>
      rw [hreconnect, if_neg Bool.false_ne_true] at hstage
      exact .inr ⟨hreconnect, hstage, rfl⟩
  · exact answered_course (c := { c with stage := .answered _ }) hsignal rfl rfl hattempt hhint
      hbounds

theorem resumeSleeping_course (hsignal : s.signal = c.signal) (hstage : c.stage = .waiting)
    (hattempt : s.reconnectAttempt = c.connections) (hbounds : o.retryBounds.isSome)
    (result : Except Thrown Unit) :
    KeepsNoted o signal c [.slept result] (s.resumeSleeping result) := by
  refine noted_course hstage ?_
  change KeepsCourse o signal { c with stage := .woken result } _
  unfold resumeSleeping
  split
  · exact finish_course (c := { c with stage := .woken _ }) hsignal rfl
  · next abort habort =>
    refine finish_course (c := { c with stage := .woken _ }) hsignal ?_
    simp only [Course.Ends, ← hsignal, habort]
  · exact connect_course (s := { s with reconnectAttempt := s.reconnectAttempt + 1 })
      (c := { c with stage := .woken _ }) hsignal (.inr rfl) (congrArg (· + 1) hattempt) hbounds

/-! ### Steps -/

theorem resume_course (h : OnCourse o s c) (request : IteratorRequest) :
    KeepsCourse o signal c (s.resume o request) := by
  have hplace := h.place
  unfold CoursePlace at hplace
  unfold resume
  split
  · next hs => rw [hs] at hplace; exact begin_course h.signal hplace.1 hplace.2
  · next hs =>
    rw [hs] at hplace
    refine finish_course h.signal ?_
    simp only [Course.Ends, hplace.1]
  · next hs =>
    rw [hs] at hplace
    refine finish_course h.signal ?_
    simp only [Course.Ends, hplace.1]
  · next hs => rw [hs] at hplace; exact resumeYielding_course h.signal hplace _ _ _
  · next hs =>
    rw [hs] at hplace
    refine finish_course h.signal ?_
    simp only [Course.Ends, hplace]
  · next hs _ =>
    rw [hs] at hplace
    refine finish_course h.signal ?_
    simp only [Course.Ends, hplace]
  · exact quiet_course h.signal h.place

-- Requests and the signal have no part in the place.
theorem CoursePlace.unmoved (h : CoursePlace o s c) (requests : List IteratorRequest)
    (abort abort' : AbortState) :
    CoursePlace o { s with requests, signal := abort } { c with signal := abort' } := by
  obtain ⟨suspension, _, _, _, _, _⟩ := s
  cases suspension with
  | start => exact h
  | loading => exact h
  | deciding reason => exact h
  | sleeping => exact h
  | finished => exact h
  | _ => exact ⟨h.stage, h.attempt, h.hint, h.bounds⟩

theorem step_course (h : OnCourse o s c) (input : SubscriptionInput Event) :
    KeepsNoted o signal c (s.occurrences o input) (s.step o input) := by
  have hplace := h.place
  have hsame : KeepsNoted o signal c [] (s, []) := quiet_course h.signal h.place
  unfold CoursePlace at hplace
  cases input with
  | request request => exact quiet_course h.signal (h.place.unmoved _ _ _)
  | abort reason =>
    refine noted_course trivial (quiet_course ?_ (h.place.unmoved _ _ _))
    exact congrArg (Option.or · (some reason)) h.signal
  | resume =>
    unfold step
    simp only
    split
    · exact hsame
    · exact resume_course h _
  | loaded stored =>
    cases hs : s.suspension with
    | loading =>
      rw [hs] at hplace
      unfold step occurrences
      rw [hs]
      exact resumeLoading_course h.signal hplace.1 hplace.2.1 hplace.2.2 _
    | _ =>
      unfold step occurrences
      rw [hs]
      exact hsame
  | responded result =>
    cases hs : s.suspension with
    | requesting =>
      rw [hs] at hplace
      unfold step occurrences
      rw [hs]
      cases result with
      | error error => exact failed_course h.signal hplace error
      | ok response => exact resumeRequesting_course h.signal hplace response
    | _ =>
      unfold step occurrences
      rw [hs]
      cases result <;> exact hsame
  | classified result =>
    cases hs : s.suspension with
    | classifying response =>
      rw [hs] at hplace
      unfold step occurrences
      rw [hs]
      cases result with
      | error error => exact cancel_course h.signal hplace response _
      | ok action => exact useResponse_course h.signal hplace response action
    | _ =>
      unfold step occurrences
      rw [hs]
      cases result <;> exact hsame
  | tick =>
    cases hs : s.suspension with
    | cancelling completion =>
      rw [hs] at hplace
      unfold step occurrences
      rw [hs]
      cases completion with
      | returned => exact resumeCompletion_course h.signal hplace .returned
      | threw error => exact resumeCompletion_course h.signal hplace (.threw error)
    | closing completion =>
      rw [hs] at hplace
      unfold step occurrences
      rw [hs]
      cases completion with
      | returned => exact resumeCompletion_course h.signal hplace .returned
      | threw error => exact resumeCompletion_course h.signal hplace (.threw error)
    | iterating pull =>
      rw [hs] at hplace
      unfold step occurrences
      rw [hs]
      cases pull with
      | read stream => exact resumeIterating_course h.signal hplace (.read stream)
      | item item stream => exact resumeIterating_course h.signal hplace (.item item stream)
      | done => exact resumeIterating_course h.signal hplace .done
      | failed error => exact resumeIterating_course h.signal hplace (.failed error)
    | _ =>
      unfold step occurrences
      rw [hs]
      exact hsame
  | read result =>
    cases hs : s.suspension with
    | reading stream =>
      rw [hs] at hplace
      unfold step occurrences
      rw [hs]
      exact resumeReading_course h.signal hplace stream result
    | _ =>
      unfold step occurrences
      rw [hs]
      exact hsame
  | mapped result =>
    cases hs : s.suspension with
    | mapping event stream =>
      rw [hs] at hplace
      unfold step occurrences
      rw [hs]
      exact resumeMapping_course h.signal hplace event stream result
    | _ =>
      unfold step occurrences
      rw [hs]
      exact hsame
  | saved result =>
    cases hs : s.suspension with
    | saving stream =>
      rw [hs] at hplace
      unfold step occurrences
      rw [hs]
      exact resumeSaving_course h.signal hplace stream result
    | _ =>
      unfold step occurrences
      rw [hs]
      exact hsame
  | decided result =>
    cases hs : s.suspension with
    | deciding reason =>
      rw [hs] at hplace
      obtain ⟨hstage, rfl, hattempt, hhint, hbounds⟩ := hplace
      unfold step occurrences
      rw [hs]
      exact resumeDeciding_course h.signal hstage hattempt hhint hbounds result
    | _ =>
      unfold step occurrences
      rw [hs]
      exact hsame
  | slept result =>
    cases hs : s.suspension with
    | sleeping =>
      rw [hs] at hplace
      unfold step occurrences
      rw [hs]
      exact resumeSleeping_course h.signal hplace.1 hplace.2.1 hplace.2.2 result
    | _ =>
      unfold step occurrences
      rw [hs]
      exact hsame

end Subscription

/-! ## Exact waits -/

theorem subscribeToSse_course {Event : Type} (o : SseSubscriptionOptions Event)
    (signal : AbortState) (inputs : List (SubscriptionInput Event)) :
    (Course.monitor o signal).Follows (Subscription.OnCourse o) { signal }
      (((subscribeToSse o signal).annotated (Subscription.occurrences o)).run inputs) :=
  have hinit : Subscription.OnCourse o { signal } { signal } := ⟨rfl, rfl, rfl⟩
  Monitor.follows_run ((subscribeToSse o signal).annotated (Subscription.occurrences o))
    (Course.monitor o signal) hinit (fun _ _ input h => Subscription.step_course h input) inputs

/-- What `defaultSleep` does with a delay: its timers are in range, and take as long as the delay
in a sleep that is not rejected; without an abort it comes back when they have fired; and an abort
clears the timer and rejects. -/
structure SleepsExactly (milliseconds : Nat) : Prop where
  timers : ∀ signal inputs,
    (Slept.monitor milliseconds).Permitted {} ((defaultSleep milliseconds signal).run inputs).2
  sleeps : ∃ delays, (∀ delay ∈ delays, IsTimeout delay) ∧ delays.sum = milliseconds ∧
    ((defaultSleep milliseconds none).run (.resume :: timersFire delays)).2 =
      delays.map .setTimeout ++ [.settled (.ok ())]
  rejects : ∀ signal inputs reason remaining delay, let m := defaultSleep milliseconds signal
    (m.run inputs).1.place = .waiting remaining delay →
      (m.runFrom (m.run inputs).1 [.abort reason, .resume]).2 =
        [.clearTimeout, .settled (.error (abortReason reason))]

-- Whatever the server, the policy, the consumer and the caller's signal do, every run keeps to the
-- course, and no step leaves the body at a stage that the course has still to act on.
theorem subscribeToSse_reconnects {Event : Type} (o : SseSubscriptionOptions Event)
    (signal : AbortState) (inputs : List (SubscriptionInput Event)) :
    let course := (((subscribeToSse o signal).annotated (Subscription.occurrences o)).run inputs).2
    (Course.monitor o signal).Permitted { signal } course ∧
      ((Course.monitor o signal).after { signal } course).Rests o ∧
      ∀ milliseconds, SleepsExactly milliseconds := by
  intro course
  obtain ⟨hpermitted, hcourse⟩ := subscribeToSse_course o signal inputs
  exact ⟨hpermitted, hcourse.rests, fun milliseconds => ⟨defaultSleep_permitted milliseconds,
    defaultSleep_sleeps milliseconds, defaultSleep_aborted milliseconds⟩⟩

end Events
