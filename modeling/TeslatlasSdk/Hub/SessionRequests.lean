import TeslatlasSdk.Hub.SessionRuns

/-!
# What operations send

An operation sends one request or one pairing claim, to a hub that is known, with a credential of its
own.  A pairing claim is made of the invitation that has been checked.
-/

open Text Core Http

namespace Hub

/-! ## Admission -/

structure AdmissionRecord where
  admitted : Option HubDiscovery := none
  /-- What the store has loaded for it. -/
  loaded : Option (Option HubCredential) := none
  /-- It has sent a request or a pairing claim. -/
  sent : Bool := false

def AdmissionRecord.add (r : AdmissionRecord) : HubAction → AdmissionRecord
  | .admitted discovery => { r with admitted := some discovery }
  | .loaded credential => { r with loaded := some credential }
  | .dispatched _ _ | .claimStarted _ => { r with sent := true }
  | _ => r

/-- What is known of the hub, and what operations have of it. -/
structure Admission where
  /-- The documents that have been published since the last logout. -/
  published : List HubDiscovery := []
  records : Nat → AdmissionRecord := fun _ => {}

namespace Admission

def record (a : Admission) (event : HubEvent) : Admission where
  published := match event.action with
    | .published discovery => discovery :: a.published
    | .loggedOut => []
    | _ => a.published
  records := addTo a.records event.thread (·.add event.action)

/-- The operation is admitted by a document of the expected hub that has the capability. -/
def Knows (config : HubConfig) (a : Admission) (i : Nat) (capability : Option JsString) : Prop :=
  ∃ discovery, (a.records i).admitted = some discovery ∧ discovery ∈ a.published ∧
    discovery.hubId = config.expectedHubId ∧
      ∀ needed, capability = some needed → needed ∈ discovery.capabilities

/-- An operation sends once.  It needs a hub that is known for all but the open routes, and none but
its own well-formed credential goes with a request, and with none on an open route. -/
def Permits (config : HubConfig) (a : Admission) (event : HubEvent) : Prop :=
  let i := event.thread
  match event.action with
  | .published discovery => discovery.hubId = config.expectedHubId
  | .dispatched route authorization => (a.records i).sent = false ∧ route.WellAsked ∧
      (route.isAuthenticated = true → a.Knows config i route.capability) ∧
      ∀ value, authorization = some value → route.isAuthenticated = true ∧ ∃ credential,
        (a.records i).loaded = some (some credential) ∧ isToken credential.accessToken = true ∧
          isUuid credential.deviceId = true ∧ value = credential.bearer
  | .claimStarted _ => (a.records i).sent = false ∧ a.Knows config i none
  | _ => True

def monitor (config : HubConfig) : Monitor Admission HubEvent where
  initial := {}
  record := record
  permits := Permits config

end Admission

def Operation.admission (x : Operation) : AdmissionRecord where
  admitted := x.admitted
  loaded := x.loaded
  sent := x.sent.isSome || x.claimed.isSome

def Session.admission (s : Session) : Admission where
  published := s.published
  records i := (s.operations i).admission

section Admission

variable {config : HubConfig} {s : Session} {i : Nat} {action : HubAction}

theorem admission_change (s : Session) (x : Operation) (action : HubAction) :
    (action.change s x).admission = x.admission.add action := by
  cases action with
  | claimStarted request =>
    show ({ admitted := x.admitted, loaded := x.loaded, sent := x.sent.isSome || true } :
      AdmissionRecord) = { admitted := x.admitted, loaded := x.loaded, sent := true }
    rw [Bool.or_true]
  | _ => rfl

theorem admission_record (s : Session) (i : Nat) (action : HubAction) :
    (s.record ⟨i, action⟩).admission = s.admission.record ⟨i, action⟩ := by
  have hrecords : (fun j => ((s.record ⟨i, action⟩).operations j).admission) =
      addTo (fun j => (s.operations j).admission) i (·.add action) := by
    funext j
    rw [record_operations, addTo]
    split
    · exact admission_change s _ action
    · rfl
  have hpublished : (s.record ⟨i, action⟩).published = (s.admission.record ⟨i, action⟩).published := by
    cases action with
    | left result =>
      show (s.leave i result).published = s.published
      cases hwait : s.waits i with
      | none | left => rw [leave_not_waiting (by rw [hwait]; rfl)]
      | waiting d =>
        rw [leave_waiting hwait]
        exact (Aborts.abandon _ d).published
    | aborted source reason => exact (Aborts.abort s source reason).published
    | _ => rfl
  show ({ published := _, records := _ } : Admission) = { published := _, records := _ }
  rw [hrecords, hpublished]
  rfl

-- The document that has admitted a live operation is one of its own session.
theorem Live.knows (hlive : Live s i) (hinv : Inv config s) {discovery : HubDiscovery}
    (hadmitted : AdmittedBy config (s.operations i) discovery) {capability : Option JsString}
    (hcapable : ∀ needed, capability = some needed → needed ∈ discovery.capabilities) :
    s.admission.Knows config i capability := by
  have hvouched := hinv.identity.admitted i discovery hadmitted.1
  exact ⟨discovery, hadmitted.1, hvouched.published hlive.generation, hvouched.hub, hcapable⟩

theorem unsent_admission {x : Operation} (hsent : x.sent = none) (hclaimed : x.claimed = none) :
    x.admission.sent = false := by
  show (x.sent.isSome || x.claimed.isSome) = false
  rw [hsent, hclaimed]
  rfl

theorem admission_permits (hinv : Inv config s) (hpermits : Permits config s ⟨i, action⟩) :
    s.admission.Permits config ⟨i, action⟩ := by
  cases action with
  | published discovery => exact hpermits.2.2.1
  | dispatched route authorization =>
    refine ⟨unsent_admission hpermits.sent hpermits.claimed, hpermits.asked, fun hroute => ?_,
      fun value hvalue => ?_⟩
    · obtain ⟨discovery, hadmitted, hcapable⟩ := hpermits.admitted hroute
      exact hpermits.live.knows hinv hadmitted hcapable
    · obtain ⟨hroute, credential, ⟨hloaded, htoken, hdevice⟩, hbearer⟩ := hpermits.bearer value hvalue
      exact ⟨hroute, credential, hloaded, htoken, hdevice, hbearer⟩
  | claimStarted request =>
    refine ⟨unsent_admission hpermits.sent hpermits.claimed, ?_⟩
    obtain ⟨discovery, hadmitted⟩ := hpermits.admitted
    exact hpermits.live.knows hinv hadmitted nofun
  | _ => exact trivial

end Admission

-- A credential goes to the expected hub alone, whose document has been published since the last
-- logout, and every operation sends once.
theorem requests_admitted (config : HubConfig) (start : HubStart)
    (inputs : List (SystemInput (Answer HubCredential) HubCall)) :
    (Admission.monitor config).Permitted {} ((hubSystem config start).machine.run inputs).2 := by
  obtain ⟨hpermitted, -⟩ := session_follows config start inputs
  refine hpermitted.refine (R := fun s admission => Inv config s ∧ s.admission = admission)
    ⟨inv_initial config start, rfl⟩ ?_
  rintro s _ ⟨i, action⟩ ⟨hinv, rfl⟩ hpermits
  exact ⟨admission_permits hinv hpermits, hinv.record hpermits, admission_record s i action⟩

/-! ## Pairing claims -/

structure InvitationRecord where
  /-- The invitation that has been checked, with what it was then. -/
  checked : Option (Nat × HubInvitation) := none
  /-- The caller has changed it since. -/
  changed : Bool := false

/-- The objects of the caller, and what operations have seen of them. -/
structure Invitations where
  values : Nat → HubInvitation
  now : Int
  records : Nat → InvitationRecord := fun _ => {}

namespace Invitations

def record (v : Invitations) (event : HubEvent) : Invitations :=
  match event.action with
  | .validated invitation value =>
      { v with records := addTo v.records event.thread fun _ => { checked := some (invitation, value) } }
  | .invitationChanged invitation value =>
      { v with
        values := fun k => if k = invitation then value else v.values k
        records := fun i =>
          if (v.records i).checked.any (·.1 = invitation) then
            { v.records i with changed := true }
          else v.records i }
  | .clockSet now => { v with now }
  | _ => v

/-- A claim is for an invitation that has passed the checks.  Its body is made of what the invitation
was then, its path and its pin of what it is now, which is the same unless the caller has changed
it. -/
structure Claims (config : HubConfig) (v : Invitations) (i : Nat)
    (request : HubClaimTransportRequest) : Prop where
  checked : ∃ invitation value, (v.records i).checked = some (invitation, value) ∧
    (∃ now, validateInvitation config now value = .ok ()) ∧
    (∃ deviceName, request.body = claimBody value.secret deviceName) ∧
    claimPath (v.values invitation).pairingId = .ok request.path ∧
    request.tlsPin = (v.values invitation).tlsPin ∧
    ((v.records i).changed = false →
      claimPath value.pairingId = .ok request.path ∧ request.tlsPin = value.tlsPin)

def Permits (config : HubConfig) (v : Invitations) (event : HubEvent) : Prop :=
  match event.action with
  | .validated invitation value =>
      value = v.values invitation ∧ validateInvitation config v.now value = .ok ()
  | .claimStarted request => v.Claims config event.thread request
  | _ => True

def monitor (config : HubConfig) (start : HubStart) : Monitor Invitations HubEvent where
  initial := { values := start.invitations, now := start.now }
  record := record
  permits := Permits config

end Invitations

/-- The record of an operation is true of the invitation that it has checked. -/
structure Checks (config : HubConfig) (values : Nat → HubInvitation) (x : Operation)
    (r : InvitationRecord) : Prop where
  checked : r.checked = x.validated
  valid : ∀ invitation value, r.checked = some (invitation, value) →
    ∃ now, validateInvitation config now value = .ok ()
  same : ∀ invitation value, r.checked = some (invitation, value) → r.changed = false →
    values invitation = value

section Invitations

variable {config : HubConfig} {s : Session} {v : Invitations} {i : Nat} {action : HubAction}

/-- The caller's objects are as they are, and records are true of them. -/
structure Invites (config : HubConfig) (s : Session) (v : Invitations) : Prop where
  values : v.values = s.invitations
  now : v.now = s.now
  records : ∀ i, Checks config s.invitations (s.operations i) (v.records i)

theorem Invites.claims (h : Invites config s v) {request : HubClaimTransportRequest}
    (hclaim : MayClaim config s i request) : v.Claims config i request := by
  obtain ⟨invitation, value, hvalidated, hof⟩ := hclaim.invitation
  have hrecord := h.records i
  have hchecked : (v.records i).checked = some (invitation, value) :=
    hrecord.checked.trans hvalidated
  refine ⟨invitation, value, hchecked, hrecord.valid invitation value hchecked, hof.body, ?_, ?_,
    fun hsame => ?_⟩
  · rw [h.values]
    exact hof.path
  · rw [h.values]
    exact hof.pin
  · rw [← hrecord.same invitation value hchecked hsame]
    exact ⟨hof.path, hof.pin⟩

theorem Invites.validated (h : Invites config s v) {invitation : Nat} {value : HubInvitation}
    (hvalue : value = s.invitations invitation)
    (hvalid : validateInvitation config s.now value = .ok ()) :
    Invites config (s.record ⟨i, .validated invitation value⟩)
      (v.record ⟨i, .validated invitation value⟩) where
  values := h.values
  now := h.now
  records := by
    refine records_kept s i (.validated invitation value) v.records
      (fun _ => { checked := some (invitation, value) }) ⟨rfl, fun k found hk => ?_, fun k found hk _ => ?_⟩
      h.records
    · obtain ⟨-, rfl⟩ := Prod.mk.inj (Option.some.inj hk)
      exact ⟨s.now, hvalid⟩
    · obtain ⟨rfl, rfl⟩ := Prod.mk.inj (Option.some.inj hk)
      exact hvalue.symm

-- A change of an invitation is told to all that have checked it.
theorem Invites.changed (h : Invites config s v) (invitation : Nat) (value : HubInvitation) :
    Invites config (s.record ⟨i, .invitationChanged invitation value⟩)
      (v.record ⟨i, .invitationChanged invitation value⟩) := by
  have hvalidated : ∀ j, ((s.record ⟨i, .invitationChanged invitation value⟩).operations j).validated =
      (s.operations j).validated := record_part Operation.validated (fun _ => rfl) i
  refine ⟨?_, h.now, fun j => ?_⟩
  · show (fun k => if k = invitation then value else v.values k) =
      fun k => if k = invitation then value else s.invitations k
    rw [h.values]
  · have hrecord := h.records j
    show Checks config (fun k => if k = invitation then value else s.invitations k) _
      (if (v.records j).checked.any (·.1 = invitation) then { v.records j with changed := true }
        else v.records j)
    split
    · exact ⟨hrecord.checked.trans (hvalidated j).symm, hrecord.valid, nofun⟩
    · next hother =>
      refine ⟨hrecord.checked.trans (hvalidated j).symm, hrecord.valid, fun k found hk hsame => ?_⟩
      have hne : k ≠ invitation := by
        rintro rfl
        refine hother ?_
        rw [hk]
        exact decide_eq_true rfl
      exact (if_neg hne).trans (hrecord.same k found hk hsame)

theorem Invites.transfer {s' : Session} (h : Invites config s v)
    (hinvitations : s'.invitations = s.invitations) (hnow : s'.now = s.now)
    (hops : ∀ j, (s'.operations j).validated = (s.operations j).validated) :
    Invites config s' v where
  values := h.values.trans hinvitations.symm
  now := h.now.trans hnow.symm
  records j := by
    rw [hinvitations]
    exact { h.records j with checked := (h.records j).checked.trans (hops j).symm }

theorem Invites.record (h : Invites config s v) (hpermits : Permits config s ⟨i, action⟩) :
    Invites config (s.record ⟨i, action⟩) (v.record ⟨i, action⟩) := by
  cases action with
  | validated invitation value => exact h.validated hpermits.1 hpermits.2
  | invitationChanged invitation value => exact h.changed invitation value
  | clockSet now =>
    exact ⟨h.values, rfl, fun j => { h.records j with
      checked := (h.records j).checked.trans (record_part Operation.validated (fun _ => rfl) i j).symm }⟩
  | left result =>
    have hfollows := FollowsAs.leave s i result
    refine h.transfer hfollows.invitations hfollows.now fun j => ?_
    rw [show (s.record ⟨i, .left result⟩).operations = s.operations from leave_operations s i result]
  | aborted source reason =>
    have hfollows : FollowsAs s (s.abort source reason) :=
      FollowsAs.trans {} (FollowsAs.foldl _ (s.mark source reason))
    have hops := (Aborts.listeners s source reason).operations
    cases source with
    | owner | session | caller =>
      exact h.transfer hfollows.invitations hfollows.now fun j => congrArg Operation.validated (congrFun hops j)
  | _ => exact h.transfer rfl rfl (record_part Operation.validated (fun _ => rfl) i)

end Invitations

-- A pairing claim carries the secret of an invitation that has been checked, and its path and pin
-- too as long as the caller leaves the invitation as it is.
theorem claims_validated (config : HubConfig) (start : HubStart)
    (inputs : List (SystemInput (Answer HubCredential) HubCall)) :
    (Invitations.monitor config start).Permitted
      { values := start.invitations, now := start.now }
      ((hubSystem config start).machine.run inputs).2 := by
  obtain ⟨hpermitted, -⟩ := session_follows config start inputs
  refine hpermitted.refine (R := Invites config)
    ⟨rfl, rfl, fun i => ⟨rfl, nofun, nofun⟩⟩ ?_
  rintro s v ⟨i, action⟩ h hpermits
  refine ⟨?_, h.record hpermits⟩
  cases action with
  | validated invitation value =>
    refine ⟨hpermits.1.trans (congrFun h.values.symm invitation), ?_⟩
    rw [h.now]
    exact hpermits.2
  | claimStarted request => exact h.claims hpermits
  | _ => exact trivial

end Hub
