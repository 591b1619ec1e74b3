import TeslatlasSdk.Hub.SessionRuns

/-!
# The results of calls

A call settles when its response is released, and with what its own request has been answered with.
-/

open Text Core Http

namespace Hub

/-- Rules for what an operation has done when it acts. -/
def rulesOf (start : HubStart) (rule : HubAction → Operation → Prop) : Monitor Session HubEvent where
  initial := { invitations := start.invitations, now := start.now }
  record := Session.record
  permits s event := rule event.action (s.operations event.thread)

-- What the rules of the session say of an operation that acts.
theorem rules_kept (config : HubConfig) (start : HubStart) {rule : HubAction → Operation → Prop}
    (h : ∀ s i action, Permits config s ⟨i, action⟩ → rule action (s.operations i))
    (inputs : List (SystemInput (Answer HubCredential) HubCall)) :
    (rulesOf start rule).Permitted (rulesOf start rule).initial
      ((hubSystem config start).machine.run inputs).2 := by
  obtain ⟨hpermitted, -⟩ := session_follows config start inputs
  exact hpermitted.weaken rfl fun s event hpermits => h s event.thread event.action hpermits

/-- No call, and no shared fetch, settles before the body of its response has been read to its end or
cancelled, unless it has none or was locked by other code from the start, and none succeeds whose
session has failed a check. -/
def ReleaseRule (action : HubAction) (x : Operation) : Prop :=
  match action with
  | .finished _ result =>
      (∀ response, x.response = some response → Released response x.body) ∧
        (x.refused = true → ∃ e, result = .error e)
  | .settled _ => ∀ response, x.response = some response → Released response x.body
  | _ => True

theorem bodies_released (config : HubConfig) (start : HubStart)
    (inputs : List (SystemInput (Answer HubCredential) HubCall)) :
    (rulesOf start ReleaseRule).Permitted (rulesOf start ReleaseRule).initial
      ((hubSystem config start).machine.run inputs).2 := by
  refine rules_kept config start (fun s i action hpermits => ?_) inputs
  cases action with
  | finished call result => exact ⟨Finishes.released hpermits, Finishes.refused hpermits⟩
  | settled result => exact hpermits.2.2
  | _ => exact trivial

/-- A value is decoded from the body of the response to the operation's own request, under a status
that counts; a discovery is one that some operation has fetched so, and a claim that is returned is
stored. -/
def ResultRule (config : HubConfig) (s : Session) (event : HubEvent) : Prop :=
  let x := s.operations event.thread
  match event.action with
  | .published document => document.hubId = config.expectedHubId ∧
      Fetched x .discovery [200] config.decoders.discovery document
  | .finished call (.ok (.value response)) => ReadsValue config x call response.value
  | .finished call (.ok (.current response)) => ∃ vehicleId signal,
      call = .current vehicleId signal ∧ response.value.vehicleId = vehicleId ∧
        Fetched x (.current vehicleId) [200] config.decoders.current response.value
  | .finished _ (.ok (.claim response)) => Stored config x response.value
  | .finished _ (.ok (.discovery response)) => Documented config s response.value ∧
      response.value.hubId = config.expectedHubId
  | _ => True

/-- Results, over the state of the session. -/
def results (config : HubConfig) (start : HubStart) : Monitor Session HubEvent where
  initial := { invitations := start.invitations, now := start.now }
  record := Session.record
  permits := ResultRule config

end Hub
