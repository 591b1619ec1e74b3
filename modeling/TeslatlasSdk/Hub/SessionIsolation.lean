import TeslatlasSdk.Hub.SessionRuns

/-!
# Isolation

A session is replaced by a logout and ended by a disposal.  Operations act in the session that they
have begun in, as long as their signals are not aborted.
-/

open Text Core Http

namespace Hub

/-- The session, the operations by the sessions they have begun in, and the signals that are
aborted. -/
@[ext]
structure Isolation where
  generation : Nat := 0
  disposed : Bool := false
  owner : Bool := false
  callers : Nat → Bool := fun _ => false
  /-- The generation of the session that an operation has begun in, and its caller. -/
  began : Nat → Option (Nat × Option Nat) := fun _ => none
  /-- The operations that a check has failed for. -/
  refused : Nat → Bool := fun _ => false

namespace Isolation

def record (s : Isolation) (event : HubEvent) : Isolation :=
  let i := event.thread
  match event.action with
  | .began caller =>
      { s with began := fun j => if j = i then some (s.generation, caller) else s.began j }
  | .refused => { s with refused := fun j => j = i || s.refused j }
  | .loggedOut => { s with generation := s.generation + 1 }
  | .disposed => { s with generation := s.generation + 1, disposed := true }
  | .aborted .owner _ => { s with owner := true }
  | .aborted (.caller caller) _ => { s with callers := fun c => c = caller || s.callers c }
  | _ => s

/-- An operation of the session whose signals are not aborted. -/
structure Acts (s : Isolation) (i : Nat) : Prop where
  undisposed : s.disposed = false
  owner : s.owner = false
  began : ∃ caller, s.began i = some (s.generation, caller) ∧
    ∀ c, caller = some c → s.callers c = false

/-- What an operation does to the session, to the store and on the network. -/
def isEffect : HubAction → Bool
  | .opened | .joined _ | .published _ | .loadStarted | .loaded _ | .dispatched _ _
  | .claimStarted _ | .decoded _ | .saveStarted _ | .cursorBound _ _ => true
  | _ => false

/-- Nothing begins in a session that is disposed, an operation acts in its own session alone, and it
does not succeed if a check has failed for it. -/
def Permits (s : Isolation) (event : HubEvent) : Prop :=
  match event.action with
  | .began _ => s.began event.thread = none ∧ s.disposed = false
  | .finished _ (.ok _) => s.refused event.thread = false
  | action => isEffect action = true → s.Acts event.thread

def monitor : Monitor Isolation HubEvent where
  initial := {}
  record := record
  permits := Permits

end Isolation

/-- What isolation looks at in a session. -/
def Session.isolation (s : Session) : Isolation where
  generation := s.sessionGeneration
  disposed := s.disposed
  owner := s.owner.isSome
  callers c := (s.callers c).isSome
  began i :=
    if (s.operations i).begun then some ((s.operations i).generation, (s.operations i).caller)
    else none
  refused i := (s.operations i).refused

section Refinement

variable {config : HubConfig} {s s' : Session} {i : Nat} {action : HubAction}

theorem isolation_congr (hgeneration : s'.sessionGeneration = s.sessionGeneration)
    (hdisposed : s'.disposed = s.disposed) (howner : s'.owner = s.owner)
    (hcallers : s'.callers = s.callers)
    (hops : ∀ j, (s'.operations j).begun = (s.operations j).begun ∧
      (s'.operations j).generation = (s.operations j).generation ∧
      (s'.operations j).caller = (s.operations j).caller ∧
      (s'.operations j).refused = (s.operations j).refused) :
    s'.isolation = s.isolation := by
  refine Isolation.ext hgeneration hdisposed (congrArg Option.isSome howner) ?_ ?_ ?_
  · funext c
    exact congrArg (fun callers => (callers c).isSome) hcallers
  · funext j
    obtain ⟨hbegun, hgen, hcaller, -⟩ := hops j
    simp only [Session.isolation, hbegun, hgen, hcaller]
  · funext j
    exact (hops j).2.2.2

theorem isSome_or (reason : Option Thrown) (new : Thrown) : (reason.or (some new)).isSome = true := by
  cases reason with
  | none => rfl
  | some old => rfl

theorem isolation_aborted (source : SignalSource) (reason : Thrown) :
    (s.record ⟨i, .aborted source reason⟩).isolation =
      s.isolation.record ⟨i, .aborted source reason⟩ := by
  have hfollows : FollowsAs s (s.abort source reason) :=
    FollowsAs.trans {} (FollowsAs.foldl _ (s.mark source reason))
  have haborts := Aborts.listeners s source reason
  have habort : (s.abort source reason).isolation = s.isolation :=
    isolation_congr haborts.generation haborts.disposed hfollows.owner hfollows.callers fun j => by
      rw [haborts.operations]
      exact ⟨rfl, rfl, rfl, rfl⟩
  have hbegan : (s.abort source reason).isolation.began = s.isolation.began := by rw [habort]
  have hrefused : (s.abort source reason).isolation.refused = s.isolation.refused := by rw [habort]
  cases source with
  | session => exact habort
  | owner =>
    have hcallers : (s.abort .owner reason).isolation.callers = s.isolation.callers := by rw [habort]
    exact Isolation.ext haborts.generation haborts.disposed (isSome_or _ reason) hcallers hbegan
      hrefused
  | caller caller =>
    have howner : (s.abort (.caller caller) reason).isolation.owner = s.isolation.owner := by
      rw [habort]
    refine Isolation.ext haborts.generation haborts.disposed howner ?_ hbegan hrefused
    funext c
    show (if c = caller then ((s.abort (.caller caller) reason).callers c).or (some reason)
      else (s.abort (.caller caller) reason).callers c).isSome = (decide (c = caller) ||
        (s.callers c).isSome)
    rw [hfollows.callers]
    by_cases hc : c = caller
    · rw [if_pos hc, isSome_or, decide_eq_true hc, Bool.true_or]
    · rw [if_neg hc, decide_eq_false hc, Bool.false_or]

-- What isolation looks at changes by what it is told of an action.
theorem isolation_record (s : Session) (i : Nat) (action : HubAction) :
    (s.record ⟨i, action⟩).isolation = s.isolation.record ⟨i, action⟩ := by
  have hself := record_self s i action
  have hother : ∀ j, j ≠ i → (s.record ⟨i, action⟩).operations j = s.operations j :=
    fun j hj => record_ne s action hj
  cases action with
  | began caller =>
    refine Isolation.ext rfl rfl rfl rfl ?_ ?_
    · funext j
      show (if ((s.record ⟨i, .began caller⟩).operations j).begun then _ else none) =
        if j = i then some (s.sessionGeneration, caller) else _
      by_cases hj : j = i
      · rw [if_pos hj, hj, hself]
        rfl
      · rw [if_neg hj, hother j hj]
        rfl
    · funext j
      exact record_part Operation.refused (fun _ => rfl) i j
  | refused =>
    refine Isolation.ext rfl rfl rfl rfl ?_ ?_
    · funext j
      have hbegun : ((s.record ⟨i, .refused⟩).operations j).begun = (s.operations j).begun :=
        record_part Operation.begun (fun _ => rfl) i j
      have hgeneration : ((s.record ⟨i, .refused⟩).operations j).generation =
          (s.operations j).generation := record_part Operation.generation (fun _ => rfl) i j
      have hcaller : ((s.record ⟨i, .refused⟩).operations j).caller = (s.operations j).caller :=
        record_part Operation.caller (fun _ => rfl) i j
      show (if ((s.record ⟨i, .refused⟩).operations j).begun then _ else none) =
        if (s.operations j).begun then _ else none
      rw [hbegun, hgeneration, hcaller]
    · funext j
      show ((s.record ⟨i, .refused⟩).operations j).refused = (decide (j = i) ||
        (s.operations j).refused)
      by_cases hj : j = i
      · rw [hj, hself, decide_eq_true rfl, Bool.true_or]
        rfl
      · rw [hother j hj, decide_eq_false hj, Bool.false_or]
  | loggedOut | disposed => rfl
  | left result =>
    have hfollows := FollowsAs.leave s i result
    have hsession : (s.leave i result).sessionGeneration = s.sessionGeneration ∧
        (s.leave i result).disposed = s.disposed := by
      cases hwait : s.waits i with
      | none | left =>
        rw [leave_not_waiting (by rw [hwait]; rfl)]
        exact ⟨rfl, rfl⟩
      | waiting d =>
        rw [leave_waiting hwait]
        exact ⟨(Aborts.abandon _ d).generation, (Aborts.abandon _ d).disposed⟩
    refine isolation_congr hsession.1 hsession.2 hfollows.owner hfollows.callers fun j => ?_
    rw [show (s.record ⟨i, .left result⟩).operations = s.operations from leave_operations s i result]
    exact ⟨rfl, rfl, rfl, rfl⟩
  | aborted source reason => exact isolation_aborted source reason
  | _ =>
    exact isolation_congr rfl rfl rfl rfl fun j =>
      ⟨record_part Operation.begun (fun _ => rfl) i j,
        record_part Operation.generation (fun _ => rfl) i j,
        record_part Operation.caller (fun _ => rfl) i j,
        record_part Operation.refused (fun _ => rfl) i j⟩

-- An operation that passes its check acts in its own session.
theorem Live.acts (h : Live s i) (hinv : Inv config s) : s.isolation.Acts i where
  undisposed := h.disposed
  owner := by
    show s.owner.isSome = false
    rw [live_owner hinv h.toCurrent h.begun]
    rfl
  began := by
    refine ⟨(s.operations i).caller, ?_, fun c hc => ?_⟩
    · show (if (s.operations i).begun then _ else none) = some (s.sessionGeneration, _)
      rw [if_pos h.begun, h.generation]
    · show (s.callers c).isSome = false
      by_contra habort
      refine hinv.signals.callers c (fun hnone => habort ?_) i h.begun hc h.signal
      rw [hnone]
      rfl

-- What has an effect is done by an operation that passes its check.
theorem live_of_effect (hpermits : Permits config s ⟨i, action⟩)
    (heffect : Isolation.isEffect action = true) : Live s i := by
  cases action with
  | opened => exact hpermits.1
  | joined d => exact hpermits.1
  | published d => exact hpermits.1
  | loadStarted => exact hpermits
  | loaded credential => exact hpermits.1
  | dispatched route authorization => exact hpermits.live
  | claimStarted request => exact hpermits.live
  | decoded claim => exact hpermits.live
  | saveStarted credential => exact hpermits.1
  | cursorBound cursor binding => exact hpermits.live
  | _ => cases heffect

theorem isolation_permits (hinv : Inv config s) (hpermits : Permits config s ⟨i, action⟩) :
    s.isolation.Permits ⟨i, action⟩ := by
  have hacts : Isolation.isEffect action = true → s.isolation.Acts i :=
    fun heffect => (live_of_effect hpermits heffect).acts hinv
  cases action with
  | began caller =>
    refine ⟨?_, hpermits.2.2⟩
    show (if (s.operations i).begun then _ else none) = none
    rw [hpermits.1]
    rfl
  | finished call result =>
    cases result with
    | error e => exact nofun
    | ok found =>
      show (s.operations i).refused = false
      by_contra hrefused
      obtain ⟨e, he⟩ := Finishes.refused hpermits (by simpa using hrefused)
      cases he
  | _ => exact hacts

end Refinement

/-- The effects of a session, over its own state: the signal of a shared discovery is that of its own
controller, which is aborted when its last caller has left. -/
def effects (start : HubStart) : Monitor Session HubEvent where
  initial := { invitations := start.invitations, now := start.now }
  record := Session.record
  permits s event := Isolation.isEffect event.action = true → Live s event.thread

-- After a logout or a disposal, and after the abort of the owner's, its caller's or its own
-- controller's signal, an operation has no effect any more, whatever the host answers.
theorem session_isolated (config : HubConfig) (start : HubStart)
    (inputs : List (SystemInput (Answer HubCredential) HubCall)) :
    Isolation.monitor.Permitted {} ((hubSystem config start).machine.run inputs).2 ∧
      (effects start).Permitted (effects start).initial
        ((hubSystem config start).machine.run inputs).2 := by
  obtain ⟨hpermitted, -⟩ := session_follows config start inputs
  refine ⟨?_, hpermitted.weaken rfl fun s event hpermits => live_of_effect hpermits⟩
  refine hpermitted.refine (R := fun s isolation => Inv config s ∧ s.isolation = isolation)
    ⟨inv_initial config start, rfl⟩ ?_
  rintro s _ ⟨i, action⟩ ⟨hinv, rfl⟩ hpermits
  exact ⟨isolation_permits hinv hpermits, hinv.record hpermits, isolation_record s i action⟩

end Hub
