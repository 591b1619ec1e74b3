import TeslatlasSdk.Client.Results

/-!
# Results and responses

A response that says that nothing is modified becomes nothing else, and nothing else becomes such a
result.  No call leaves the body of its response behind.
-/

open Text Core Json Http Events Client

namespace TeslatlasClient

/-- A result that is not modified is confirmed by its response, and a response of status 304 has no
other result. -/
def ReadsConditionally (config : ClientConfig) (call : ClientCall) (x : Exchange)
    (found : ClientResult) : Prop :=
  (∀ metadata, found = .read (.notModified metadata) →
    ∃ read, call = .read read ∧ Confirmed config x read) ∧
  ∀ response, x.response = some response → response.status = 304 →
    ∃ metadata, found = .read (.notModified metadata)

theorem Answered.status {config : ClientConfig} {x : Exchange} {call : ClientCall}
    {result : WriteResult} (h : Answered config x call result) {response : Response}
    (hresponse : x.response = some response) : response.status ≠ 304 := by
  obtain ⟨given, hgiven, hstatus, -⟩ := h
  rw [hresponse] at hgiven
  obtain rfl := Option.some.inj hgiven
  exact hstatus

theorem Rests.readsConditionally {config : ClientConfig} {x : Exchange} {call : ClientCall}
    {found : ClientResult} (h : Rests config x call found) :
    ReadsConditionally config call x found := by
  match found with
  | .read (.notModified metadata) =>
    refine ⟨?_, fun _ _ _ => ⟨metadata, rfl⟩⟩
    rintro _ ⟨⟩
    exact h.2
  | .read (.modified result) | .written result =>
    exact ⟨nofun, fun _ hresponse hstatus => absurd hstatus (Answered.status h hresponse)⟩
  | .session descriptor version =>
    exact ⟨nofun, fun response hresponse hstatus => absurd hstatus (h.2 response hresponse)⟩
  | .done =>
    refine ⟨nofun, fun response hresponse _ => ?_⟩
    rw [h.2] at hresponse
    cases hresponse

/-- The monitor of conditional reads. -/
def conditionalReads (config : ClientConfig) : Monitor ClientState ClientEvent where
  initial := {}
  record := ClientState.record
  permits s event :=
    match event.action with
    | .settled call (.ok found) => ReadsConditionally config call (s.exchanges event.thread) found
    | _ => True

-- In every run, a read is not modified exactly where its response confirms its condition.
theorem reads_confirmed (config : ClientConfig)
    (inputs : List (SystemInput (Answer Empty) ClientCall)) :
    (conditionalReads config).Permitted {} ((clientSystem config).machine.run inputs).2 := by
  refine (results_permitted config inputs).weaken rfl fun s event hpermits => ?_
  obtain ⟨i, action⟩ := event
  cases action with
  | settled call result =>
    cases result with
    | ok found => exact Rests.readsConditionally (hpermits.rests found rfl)
    | error e => exact trivial
  | dispatched | responded | body | decoded | aborted | cancellationSet => trivial

/-- The monitor of bodies. -/
def releases : Monitor ClientState ClientEvent where
  initial := {}
  record := ClientState.record
  permits s event :=
    match event.action with
    | .settled _ _ => ∀ response, (s.exchanges event.thread).response = some response →
        Released response (s.exchanges event.thread).body
    | _ => True

-- When a call settles, the body of its response is absent, has been read to its end, or its
-- cancellation has been started, whatever the host does to the streams and the signals.
theorem bodies_settled (config : ClientConfig)
    (inputs : List (SystemInput (Answer Empty) ClientCall)) :
    releases.Permitted {} ((clientSystem config).machine.run inputs).2 := by
  refine (results_permitted config inputs).weaken rfl fun s event hpermits => ?_
  obtain ⟨i, action⟩ := event
  cases action with
  | settled call result => exact hpermits.released
  | dispatched | responded | body | decoded | aborted | cancellationSet => trivial

end TeslatlasClient
