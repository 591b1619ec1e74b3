import TeslatlasSdk.Hub.DrivesPage
import TeslatlasSdk.Hub.SessionClaims
import TeslatlasSdk.Hub.SessionDiscovery

/-!
# Runs of a hub session

Each method of a hub client settles with a result that rests on what its operation has obtained, so
that every run of the client keeps to the rules.
-/

open Text Core Http

namespace Hub

theorem Failed.finishes {config : HubConfig} {opened : Bool} {i : Nat} {s : Session}
    (h : At i (Failed opened) s) (call : HubCall) (e : Thrown) :
    Finishes config i call (.error e) s where
  released := Failed.released h
  refused _ := ⟨e, rfl⟩
  unbound _ _ := Failed.bound h
  rests _ hfound := by cases hfound

section Methods

variable {config : HubConfig} {start : HubStart} {i : Nat} {call : HubCall}
  {validated : Option (Nat × HubInvitation)}

-- An operation begins, or its call ends.
theorem begin_bind {signal : Option Nat} {f : Unit → HubAsync HubResult}
    (hf : (hubLogic config start).Triple i (Ready i none) (f ())
      fun r => Finishes config i call r) :
    (hubLogic config start).Triple i (Idle i) (beginOperation i signal >>= f)
      fun r => Finishes config i call r :=
  .bind ((triple_beginOperation (C := fun _ => True) signal fun _ _ => trivial).weaken
      (fun _ hs => ⟨hs, trivial⟩) fun _ _ hr => hr)
    (fun _ => hf.weaken (fun _ hs => hs.1.1) fun _ _ hr => hr)
    fun e _ hs => Failed.finishes hs call e

-- A task whose errors are those of the call.
theorem awaited_bind {β : Type} {P : Session → Prop} {t : HubAsync β} {R : β → Session → Prop}
    {opened : Bool} {f : β → HubAsync HubResult}
    (ht : (hubLogic config start).Triple i P t (Outcome R (At i (Failed opened))))
    (hR : ∀ value, (hubLogic config start).Stable i (R value))
    (hf : ∀ value, (hubLogic config start).Triple i (R value) (f value)
      fun r => Finishes config i call r) :
    (hubLogic config start).Triple i P (awaited t >>= f)
      fun r => Finishes config i call r := by
  refine .bind (bodyLaws.awaited ht fun r => ?_) hf fun e _ hs => Failed.finishes hs call e
  cases r with
  | ok value => exact hR value
  | error e => exact stable_at (Failed opened)

theorem Begun.granted {s : Session} (h : Begun i validated s) (route : HubRoute) (hasked : route.WellAsked)
    (hadmitted : Admitted config route (s.operations i)) (hcursor : route.cursor? = none) :
    Granted config i false (· = none) route s where
  unsent := h.unsent
  asked := hasked
  admitted := hadmitted
  cursor := by
    refine ⟨h.epoch, fun query hquery => ?_⟩
    rw [hcursor] at hquery
    cases hquery

theorem Granted.any {s : Session} {route : HubRoute} {opened : Bool}
    {K : Option (Option HubCredential) → Prop} (h : Granted config i opened K route s) :
    Granted config i opened (fun _ => True) route s where
  unsent := { h.unsent with loaded := trivial }
  asked := h.asked
  admitted := h.admitted
  cursor := h.cursor

theorem Capable.admitted {capability : JsString} {route : HubRoute} {x : Operation}
    (h : Capable config capability x) (hroute : route.capability = some capability) :
    Admitted config route x := by
  intro _
  obtain ⟨discovery, hadmitted, hcapable⟩ := h
  refine ⟨discovery, hadmitted, fun other hother => ?_⟩
  rw [hroute, Option.some.injEq] at hother
  exact hother ▸ hcapable

theorem AdmittedBy.admitted {discovery : HubDiscovery} {route : HubRoute} {x : Operation}
    (h : AdmittedBy config x discovery) (hroute : route.capability = none) :
    Admitted config route x := by
  intro _
  refine ⟨discovery, h, fun capability hcapability => ?_⟩
  rw [hroute] at hcapability
  cases hcapability

theorem validateUuid_ok {value : JsString} {name : String} (h : validateUuid value name = .ok ()) :
    isUuid value = true := by
  unfold validateUuid at h
  split at h
  · assumption
  · cases h

/-! ## Reads -/

theorem ReadFrom.failed {β : Type} {opened : Bool} {K : Option (Option HubCredential) → Prop}
    {route : HubRoute} {statuses : List Nat} {decode : JsString → Except Thrown β} {value : β}
    {s : Session} (h : ReadFrom i opened K route statuses decode value s) :
    At i (Failed opened) s := by
  obtain ⟨response, -, hgiven, hread, -⟩ := h
  exact hgiven.holding.failed hread.released

-- What a read needs for its call to end with its value.
theorem ReadFrom.finishes {β : Type} {opened : Bool} {K : Option (Option HubCredential) → Prop}
    {route : HubRoute} {statuses : List Nat} {decode : JsString → Except Thrown β} {value : β}
    {s : Session} (h : ReadFrom i opened K route statuses decode value s) {found : HubResult}
    (hfound : ∀ x : Operation, Fetched x route statuses decode value → Rests config s x call found) :
    Finishes config i call (.ok found) s := by
  obtain ⟨response, hstatus, hgiven, hread, hdecoded⟩ := h
  refine ⟨fun other hother => ?_, fun hrefused => ?_, nofun, ?_⟩
  · obtain rfl : response = other := Option.some.inj (hgiven.response.symm.trans hother)
    exact hread.released
  · rw [hgiven.refused] at hrefused
    cases hrefused
  · rintro _ ⟨⟩
    exact hfound _ ⟨hgiven.sent, response, hgiven.response, hstatus, hdecoded⟩

-- A read without a credential.
theorem triple_open (route : HubRoute) (hasked : route.WellAsked)
    (hopen : route.isAuthenticated = false) (hcursor : route.cursor? = none)
    (decode : JsString → Except Thrown Json.Value) (validatorName : String) (statuses : List Nat)
    (hrests : ∀ x value, Fetched x route statuses decode value → ReadsValue config x call value) :
    (hubLogic config start).Triple i (Ready i none) (do
        return .value (← awaited (read config i none route .other decode validatorName statuses)))
      fun r => Finishes config i call r := by
  refine .weaken (W := Granted config i false (· = none) route) ?_
    (fun s hs => hs.1.granted route hasked (fun h => ?_) hcursor) fun _ _ hr => hr
  · refine awaited_bind (triple_read (fun t ht => absurd ht (Option.not_mem_none t)) .other decode
      validatorName statuses) (fun result => stable_readFrom statuses decode result.value)
      fun result => ?_
    exact .pure fun s hs => hs.finishes fun x hx => hrests x result.value hx
  · rw [hopen] at h
    cases h

theorem authorizes {route : HubRoute} (hroute : route.isAuthenticated = true) :
    ∀ t ∈ some (authorization i none),
      (hubLogic config start).Triple i (Granted config i false (fun _ => True) route) t
        (Outcome (fun value s => Granted config i false (fun _ => True) route s ∧
          At i (Bears route value) s) (At i (Failed false))) := by
  rintro t ⟨⟩
  exact triple_authorization hroute (fun _ _ => trivial) nofun

theorem triple_callDiscover (signal : Option Nat) :
    (hubLogic config start).Triple i (Idle i) (callDiscover config i signal)
      fun r => Finishes config i (.discover signal) r := by
  refine begin_bind (awaited_bind triple_discover (fun response => ?_) fun response =>
    .pure fun s hs => ?_)
  · exact fun s s' hkeeps hs => ⟨hs.1.keeps hkeeps, hs.2.keeps hkeeps⟩
  · refine ⟨fun other hother => ?_, fun hrefused => ?_, nofun, ?_⟩
    · rw [hs.2.unsent.response] at hother
      cases hother
    · rw [hs.2.unsent.refused] at hrefused
      cases hrefused
    · rintro _ ⟨⟩
      exact ⟨hs.1.fetched, hs.1.hub⟩

theorem triple_health (signal : Option Nat) :
    (hubLogic config start).Triple i (Idle i) (health config i signal)
      fun r => Finishes config i (.health signal) r :=
  begin_bind (triple_open .health trivial rfl rfl config.decoders.health "HubHealth" [200]
    fun _ _ hx => hx)

theorem triple_readiness (signal : Option Nat) :
    (hubLogic config start).Triple i (Idle i) (readiness config i signal)
      fun r => Finishes config i (.readiness signal) r :=
  begin_bind (triple_open .readiness trivial rfl rfl config.decoders.readiness "HubReadiness" [200, 503]
    fun _ _ hx => hx)

theorem triple_vehicles (signal : Option Nat) :
    (hubLogic config start).Triple i (Idle i) (vehicles config i signal)
      fun r => Finishes config i (.vehicles signal) r := by
  refine begin_bind (awaited_bind (triple_requireCapability (js "query.vehicles"))
    (fun _ => stable_begun.and (stable_at _)) fun _ => ?_)
  refine .weaken (W := Granted config i false (fun _ => True) .vehicles) ?_
    (fun s hs => (hs.1.granted .vehicles trivial (hs.2.admitted rfl) rfl).any) fun _ _ hr => hr
  refine awaited_bind (triple_read (authorizes rfl) .other config.decoders.vehicles "HubVehicles"
    [200]) (fun result => stable_readFrom [200] config.decoders.vehicles result.value)
    fun result => ?_
  exact .pure fun s hs => hs.finishes fun x hx => hx

theorem triple_current (vehicleId : JsString) (signal : Option Nat) :
    (hubLogic config start).Triple i (Idle i) (current config i vehicleId signal)
      fun r => Finishes config i (.current vehicleId signal) r := by
  refine .ofExcept_bind (fun _ hu => ?_) fun e s _ hs => Failed.finishes hs.failed _ e
  have huuid : isUuid vehicleId = true := validateUuid_ok hu
  refine begin_bind (awaited_bind (triple_requireCapability (js "query.current"))
    (fun _ => stable_begun.and (stable_at _)) fun _ => ?_)
  refine .weaken (W := Granted config i false (fun _ => True) (.current vehicleId)) ?_
    (fun s hs => (hs.1.granted (.current vehicleId) huuid (hs.2.admitted rfl) rfl).any) fun _ _ hr => hr
  refine awaited_bind (triple_read (authorizes rfl) .other config.decoders.current "HubCurrent"
    [200]) (fun result => stable_readFrom [200] config.decoders.current result.value)
    fun result => ?_
  refine .ite (fun _ => .throw fun s hs => Failed.finishes hs.failed _ _) fun hvehicle =>
    .pure fun s hs => hs.finishes fun x hx =>
      ⟨vehicleId, signal, rfl, by simpa using hvehicle, hx⟩

/-! ## Claims -/

theorem Claimed.finishes {opened : Bool} {K : Option (Option HubCredential) → Prop}
    {response : HubResponse HubClaim} {s : Session}
    (h : At i (Claimed config opened K response.value (.settled true)) s) :
    Finishes config i call (.ok (.claim response)) s where
  released := Claimed.released h
  refused hrefused := by
    rw [Claimed.refused h] at hrefused
    cases hrefused
  unbound _ herror := by cases herror
  rests := by
    rintro _ ⟨⟩
    exact ⟨Claimed.claim h, Claimed.mutation h, Claimed.answered h, Claimed.response h⟩

-- The end of a call that stores a claim.
theorem store_bind {opened : Bool} {K : Option (Option HubCredential) → Prop}
    {result : HubResponse HubClaim} {check : Except Thrown Unit}
    (hcheck : check = .ok () → ∀ previous, K (some (some previous)) →
      result.value.deviceId = previous.deviceId) :
    (hubLogic config start).Triple i (At i (Claimed config opened K result.value .none)) (do
        return .claim (← storeClaim i result check))
      fun r => Finishes config i call r := by
  refine .bind (triple_storeClaim hcheck) (fun found => .pure fun s hs => ?_)
    fun e s hs => Failed.finishes hs call e
  obtain ⟨rfl, hclaimed⟩ := hs
  exact Claimed.finishes hclaimed

theorem triple_rethrowClaim (error : Thrown) :
    (hubLogic config start).Triple i (At i (Failed false)) (rethrowClaim i error)
      (Outcome (fun _ _ => False) (At i (Failed false))) := by
  refine .ite (fun _ => .throw fun s hs => hs) fun _ => .get_bind fun s _ hs => ?_
  have hstate : ∀ s', s' = s → At i (Failed false) s' := fun s' heq => heq ▸ hs
  cases s.signal i with
  | some reason => exact .throw hstate
  | none => exact .ite (fun _ => .throw hstate) fun _ => .throw hstate

theorem Unsent.asked {K : Option (Option HubCredential) → Prop} {x : Operation}
    (h : Unsent false K x) (request : HubClaimTransportRequest) :
    Asked false K none { x with claimed := some request } where
  left := { h with answered := .inr nofun }
  right := h.body

theorem quiet_awaitResponse (request : Awaited) :
    (hubLogic config start).Quiet i (awaitResponse request) := by
  refine .bind (.await fun _ _ _ => trivial) fun answer => ?_
  cases answer with
  | response result => exact .ofExcept result
  | tick | aborted | authorization | chunk | credential | mutation => exact .throw _

-- A claim is answered, or it ends with an error.
theorem triple_sendClaim (invitation : Nat) {value : HubInvitation} {deviceName : JsString}
    {discovery : HubDiscovery} :
    (hubLogic config start).Triple i
      (fun s => (Begun i (some (invitation, value)) s ∧ At i (AdmittedBy config · discovery) s) ∧
        Current s i)
      (sendClaim i invitation (claimBody value.secret deviceName))
      (Outcome (fun _ => At i (Asked false (· = none) none)) (At i (Failed false))) := by
  refine .tryCatch (Q := Outcome (fun _ => At i (Asked false (· = none) none))
    (At i (Failed false))) ?_ (fun error => ?_) fun _ _ hs => hs
  · refine .get_bind fun s _ hs => ?_
    refine .ofExcept_bind (fun path hpath => ?_) fun e s' _ heq => heq ▸ hs.1.1.failed
    refine .perform_bind (W := At i (Asked false (· = none) none)) rfl (fun s' _ heq => ?_) ?_
    · subst heq
      refine ⟨⟨⟨hs.2, hs.1.1.unsent.begun⟩, ⟨invitation, value, hs.1.1.validated,
        ⟨deviceName, rfl⟩, hpath, rfl⟩, hs.1.1.unsent.sent, hs.1.1.unsent.claimed, discovery,
        hs.1.2⟩, ?_⟩
      exact at_record (A := Unsent false (· = none)) (.claimStarted _) hs.1.1.unsent
        fun x hx => hx.asked _
    · refine (quiet_awaitResponse .claimTransport _ (stable_at _)).weaken (fun _ hs => hs)
        fun r s hs => ?_
      cases r with
      | ok response => exact hs
      | error e => exact Given.failed hs.1
  · refine (triple_rethrowClaim error).weaken (fun _ hs => hs) fun r s hs => ?_
    cases r with
    | ok response => exact hs.elim
    | error e => exact hs

theorem triple_writeClaim (previous : HubCredential) :
    (hubLogic config start).Triple i (Granted config i false (· = some (some previous)) .rotate)
      (writeClaim config i (authorization i (some previous)) .rotate .rotate)
      (Outcome (fun result =>
        At i (Claimed config false (· = some (some previous)) result.value .none))
        (At i (Failed false))) := by
  refine assert_bind (E := At i (Failed false)) (fun s hs _ => failed_refused hs.failed) ?_
    fun _ _ hs => hs
  refine .bind ((triple_send (K := (· = some (some previous))) fun t ht => ?_).weaken
    (fun _ hs => hs.1) fun _ _ hr => hr) (fun response => ?_) fun _ _ hs => hs
  · obtain rfl := Option.some.inj ht
    refine triple_authorization rfl nofun fun credential hcredential l hl => ?_
    rw [hl, hcredential]
  · refine bodyLaws.awaited (triple_decodeClaimResponse response .rotate) fun r => ?_
    cases r with
    | ok result =>
      exact stable_at (Claimed config false (· = some (some previous)) result.value .none)
    | error e => exact stable_at (Failed false)

theorem ready_validated {s : Session} (h : Ready i none s) (invitation : Nat)
    (value : HubInvitation) :
    Ready i (some (invitation, value)) (s.record ⟨i, .validated invitation value⟩) := by
  refine ⟨⟨?_, ?_, ?_⟩, h.2⟩
  · rw [record_self]
    exact { h.1.unsent with }
  · rw [record_self]
    rfl
  · rw [record_self]
    exact h.1.epoch

theorem triple_claimPairing (invitation : Nat) (deviceName : JsString) (signal : Option Nat) :
    (hubLogic config start).Triple i (Idle i) (claimPairing config i invitation deviceName signal)
      fun r => Finishes config i (.claimPairing invitation deviceName signal) r := by
  refine begin_bind (.get_bind fun s _ hs => ?_)
  have hfailed : ∀ {v} (e : Thrown) s', Ready i v s' →
      Finishes config i (.claimPairing invitation deviceName signal) (.error e) s' :=
    fun e s' hready => Failed.finishes hready.1.failed _ e
  refine .ofExcept_bind (fun _ hvalid => ?_) fun e s' _ heq => hfailed e s' (heq ▸ hs)
  refine .perform_bind (W := Ready i (some (invitation, s.invitations invitation))) rfl
    (fun s' _ heq => ?_) ?_
  · subst heq
    exact ⟨⟨rfl, hvalid⟩, ready_validated hs invitation _⟩
  refine .ofExcept_bind (fun _ _ => ?_) fun e s' _ hready => hfailed e s' hready
  refine .ofExcept_bind (fun _ _ => ?_) fun e s' _ hready => hfailed e s' hready
  refine .ite (fun _ => .throw fun s' hready => hfailed _ s' hready) fun _ => ?_
  refine awaited_bind triple_ensureDiscovery (fun _ => stable_begun.and (stable_at _))
    fun discovery => ?_
  refine assert_bind (E := At i (Failed false)) (fun s hs _ => failed_refused hs.1.failed) ?_
    fun e s hs => Failed.finishes hs _ e
  refine .bind (triple_sendClaim invitation) (fun response => ?_)
    fun e s hs => Failed.finishes hs _ e
  refine respond_bind (awaited_bind (triple_decodeClaimResponse response .claim)
    (fun _ => stable_at _) fun result => ?_)
  exact store_bind fun _ previous hprevious => nomatch hprevious

theorem triple_rotateDevice (signal : Option Nat) :
    (hubLogic config start).Triple i (Idle i) (rotateDevice config i signal)
      fun r => Finishes config i (.rotateDevice signal) r := by
  refine begin_bind (awaited_bind triple_ensureDiscovery
    (fun _ => stable_begun.and (stable_at _)) fun discovery => ?_)
  refine .weaken (W := Granted config i false (· = none) .rotate) ?_
    (fun s hs => hs.1.granted .rotate trivial (hs.2.admitted rfl) rfl) fun _ _ hr => hr
  refine awaited_bind triple_loadCredential (fun _ => stable_granted) fun previous => ?_
  refine assert_bind (E := At i (Failed false)) (fun s hs _ => failed_refused hs.failed) ?_
    fun e s hs => Failed.finishes hs _ e
  cases previous with
  | none => exact .throw fun s hs => Failed.finishes hs.1.failed _ _
  | some previous =>
    refine .get_bind fun s _ hs => ?_
    refine .ofExcept_bind (fun _ _ => ?_) fun e s' _ heq =>
      heq ▸ Failed.finishes hs.1.failed _ e
    refine .weaken (W := Granted config i false (· = some (some previous)) .rotate) ?_
      (fun s' heq => heq ▸ hs.1) fun _ _ hr => hr
    refine awaited_bind (triple_writeClaim previous) (fun _ => stable_at _) fun result => ?_
    refine store_bind fun hcheck other hother => ?_
    split at hcheck
    · next hdevice =>
      obtain rfl : previous = other := by simpa using hother.symm
      exact hdevice
    · cases hcheck

/-! ## Drives -/

/-- What a result of drives rests on. -/
def DrivesRest (config : HubConfig) (x : Operation) (vehicleId : JsString)
    (options : HubDrivesOptions) : HubDrivesResult → Prop
  | .page value _ => Paged config x vehicleId options value
  | .notModified _ => Unmodified x vehicleId options

/-- An operation that has its drives. -/
structure Drove (config : HubConfig) (vehicleId : JsString) (options : HubDrivesOptions)
    (result : HubDrivesResult) (x : Operation) : Prop where
  refused : x.refused = false
  released : ∀ response, x.response = some response → Released response x.body
  rests : DrivesRest config x vehicleId options result

theorem responseMetadata_etag {response : Response} {requireEtag : Bool}
    {metadata : HubResponseMetadata} (h : responseMetadata response requireEtag = .ok metadata) :
    metadata.etag = response.entityTag := by
  obtain ⟨-, hstrong⟩ := rejectIf_bind_eq_ok.mp h
  obtain ⟨requestId, -, hid⟩ := bind_eq_ok.mp hstrong
  obtain ⟨-, hmetadata⟩ := rejectIf_bind_eq_ok.mp hid
  obtain rfl := Except.ok.inj hmetadata
  rfl

section Drives

variable {vehicleId : JsString} {options : HubDrivesOptions} {response : Response}
  {K : Option (Option HubCredential) → Prop}

theorem given_released {V : BodyView → Prop} {s : Session} {sent : Option HubRoute}
    (h : Answered i false K sent response V s) (hV : ∀ view, V view → Released response view) :
    ∀ other, (s.operations i).response = some other → Released other (s.operations i).body := by
  intro other hother
  obtain rfl : response = other := Option.some.inj ((Given.response h.1).symm.trans hother)
  exact hV _ h.2

-- Drives are not modified if the body of a 304 for the caller's own tag has no bytes.
theorem triple_notModified {metadata : HubResponseMetadata} (hstatus : response.status = 304)
    (hcondition : ¬ (options.ifNoneMatch = none ∨ metadata.etag ≠ options.ifNoneMatch))
    (hetag : metadata.etag = response.entityTag) :
    (hubLogic config start).Triple i
      (Answered i false K (some (.drives vehicleId options)) response Untouched) (do
        awaited (requireEmptyResponseBody (bodyHost i) (Session.signal i) response "HubDrives.304")
        assertOperation i
        return .notModified metadata)
      (Guards (bodyHost i) (At i (Holding false response)) fun result =>
        At i (Drove config vehicleId options result)) := by
  obtain ⟨tag, htag⟩ : ∃ tag, options.ifNoneMatch = some tag := by
    cases hcase : options.ifNoneMatch with
    | none => exact absurd (.inl hcase) hcondition
    | some tag => exact ⟨tag, rfl⟩
  have hresponse : response.entityTag = some tag := by
    rw [← hetag, ← htag]
    by_contra hne
    exact hcondition (.inr hne)
  have hempty : (hubLogic config start).Triple i
      (Answered i false K (some (.drives vehicleId options)) response Untouched)
      (requireEmptyResponseBody (bodyHost i) (Session.signal i) response "HubDrives.304")
      (Guards (bodyHost i) (At i (Holding false response)) fun _ =>
        Answered i false K (some (.drives vehicleId options)) response
          fun view => view.Guarded ∧ WasEmpty response view) :=
    (bodyLaws.requireEmptyResponseBody _ frame_given response _).weaken (fun _ hs => hs)
      fun _ _ hs => guards_holding hs
  refine .bind (bodyLaws.awaited hempty (stable_consumed fun _ => stable_answered _))
    (fun _ => answered_bind (fun _ h => h.1) (.pure fun s hs => ?_)) fun _ _ hs => hs
  refine ⟨Given.refused hs.1.1, given_released hs.1 fun _ h => h.2.released, ?_, ?_, ?_⟩
  · exact Given.sent hs.1.1
  · exact ⟨response, tag, Given.response hs.1.1, hstatus, htag, hresponse, hs.1.2.2⟩
  · exact Given.bound hs.1.1

-- A page is bound to the query that it answers.
theorem triple_page {metadata : HubResponseMetadata} (hstatus : response.status = 200)
    (hasked : (HubRoute.drives vehicleId options).WellAsked) (value : HubDrives) :
    (hubLogic config start).Triple i
      (Decoded i false K (some (.drives vehicleId options)) response config.decoders.drives value)
      (do
        assertOperation i
        Async.ofExcept (requireDrivesPage vehicleId options value)
        match value.nextCursor with
        | some cursor =>
            act i (.cursorBound cursor (cursorBinding vehicleId options.fromMs options.toMs))
            return .page value metadata
        | none => return .page value metadata)
      (Guards (bodyHost i) (At i (Holding false response)) fun result =>
        At i (Drove config vehicleId options result)) := by
  refine decoded_bind (.ofExcept_bind (fun _ hpage => ?_) fun e s _ hs =>
    Answered.lost hs.1 fun _ h => h.1.1)
  have hlaw : PageLaw vehicleId options value := requireDrivesPage_iff.mp hpage
  have hmem : response.status ∈ [200] := List.mem_singleton.mpr hstatus
  cases hcursor : value.nextCursor with
  | none =>
    refine .pure fun s hs => ?_
    have hgiven : Given false K (some (.drives vehicleId options)) (some response)
      (s.operations i) := hs.1.1
    refine ⟨hgiven.refused, given_released hs.1 fun _ h => h.1.released,
      ⟨hgiven.sent, response, hgiven.response, hmem, hs.1.2.2⟩, hlaw, ?_⟩
    rw [hcursor]
    exact hgiven.bound
  | some cursor =>
    refine .perform_bind (W := At i (Drove config vehicleId options (.page value metadata))) rfl
      (fun s _ hs => ?_) (.pure fun s hs => hs)
    obtain ⟨hdecoded, hcurrent⟩ := hs
    have hgiven : Given false K (some (.drives vehicleId options)) (some response)
      (s.operations i) := hdecoded.1
    refine ⟨⟨⟨hcurrent, hgiven.begun⟩, ⟨vehicleId, options, hgiven.sent, hasked, rfl⟩,
      ⟨response, hgiven.response, hstatus⟩, hgiven.bound⟩, ?_⟩
    refine at_record (A := fun x => Given false K (some (.drives vehicleId options))
      (some response) x ∧ WasRead response x.body ∧
        ReadAs response x.body config.decoders.drives value) (.cursorBound cursor _) hdecoded
          fun x hx => ?_
    refine ⟨hx.1.refused, fun other hother => ?_,
      ⟨hx.1.sent, response, hx.1.response, hmem, hx.2.2⟩, hlaw, ?_⟩
    · obtain rfl : response = other := Option.some.inj (hx.1.response.symm.trans hother)
      exact hx.2.1.released
    · rw [hcursor]
      rfl

theorem triple_decodeDrives (hasked : (HubRoute.drives vehicleId options).WellAsked) :
    (hubLogic config start).Triple i
      (Answered i false K (some (.drives vehicleId options)) response Untouched)
      (decodeDrives config i vehicleId options response)
      (Guards (bodyHost i) (At i (Holding false response)) fun result =>
        At i (Drove config vehicleId options result)) := by
  refine answered_bind (fun _ h => h.guarded) ?_
  refine .weaken (W := Answered i false K (some (.drives vehicleId options)) response Untouched) ?_
    (fun _ hs => hs.1) fun _ _ hr => hr
  have hlost : ∀ s, Answered i false K (some (.drives vehicleId options)) response Untouched s →
      Lost i false response s := fun s hs => hs.lost fun _ h => h.guarded
  refine .ite (fun _ => ?_) fun hknown => ?_
  · exact bodyLaws.awaited (triple_throwHubError response .drives _)
      (stable_consumed fun _ => stable_at _)
  refine .ofExcept_bind (fun _ _ => ?_) fun e s _ hs => hlost s hs
  refine .ofExcept_bind (fun metadata hmetadata => ?_) fun e s _ hs => hlost s hs
  refine .ite (fun hstatus => .ite (fun _ => .throw fun s hs => hlost s hs) fun hcondition => ?_)
    fun hother => ?_
  · exact triple_notModified hstatus hcondition (responseMetadata_etag hmetadata)
  · have hstatus : response.status = 200 := by
      by_contra hne
      exact hknown ⟨hne, hother⟩
    exact .bind (bodyLaws.awaited (triple_decodeResponse response config.decoders.drives
      "HubDrives") (stable_consumed fun _ => stable_decoded _))
      (fun value => triple_page hstatus hasked value) fun _ _ hs => hs

theorem Drove.finishes {result : HubDrivesResult} {s : Session}
    (h : At i (Drove config vehicleId options result) s) :
    Finishes config i (.drives vehicleId options) (.ok (.drives result)) s where
  released := Drove.released h
  refused hrefused := by
    rw [Drove.refused h] at hrefused
    cases hrefused
  unbound _ herror := by cases herror
  rests := by
    rintro _ ⟨⟩
    cases result with
    | page value metadata => exact ⟨vehicleId, options, rfl, Drove.rests h⟩
    | notModified metadata => exact ⟨vehicleId, options, rfl, Drove.rests h⟩

-- A cursor that is bound when it is looked at is bound to the query.
theorem cursor_kept {s : Session} (hinv : Inv config s) (hepoch : (s.operations i).epoch ≤ s.epoch)
    (h : requireCursorBinding s options.cursor
      (cursorBinding vehicleId options.fromMs options.toMs) = .ok ()) :
    CursorKept i (.drives vehicleId options) s := by
  refine ⟨hepoch, fun query hquery hsame hmem => ?_⟩
  obtain ⟨cursor, hcursor, rfl⟩ := Option.map_eq_some_iff.mp hquery
  rw [requireCursorBinding, hcursor, Option.bind_some] at h
  obtain ⟨⟨_, binding⟩, hentry, rfl⟩ := List.mem_map.mp hmem
  have hissued := hinv.cursors.begun i hsame _ hentry
  split at h
  · next hnone => exact absurd hnone (hinv.cursors.issued _ _ hissued)
  · next bound hbound =>
    split at h
    · next heq =>
      rw [heq] at hbound
      exact hinv.cursors.bound _ _ hbound
    · cases h

theorem triple_drives (vehicleId : JsString) (options : HubDrivesOptions) :
    (hubLogic config start).Triple i (Idle i) (drives config i vehicleId options)
      fun r => Finishes config i (.drives vehicleId options) r := by
  refine .ofExcept_bind (fun _ hu => ?_) fun e s _ hs => Failed.finishes hs.failed _ e
  refine .ofExcept_bind (fun _ _ => ?_) fun e s _ hs => Failed.finishes hs.failed _ e
  refine begin_bind (awaited_bind (triple_requireCapability (js "query.drives"))
    (fun _ => stable_begun.and (stable_at _)) fun _ => ?_)
  refine assert_bind (E := At i (Failed false)) (fun s hs _ => failed_refused hs.1.failed) ?_
    fun e s hs => Failed.finishes hs _ e
  refine .get_bind fun s hinv hs => ?_
  have hfailed : ∀ (e : Thrown) s', s' = s →
      Finishes config i (.drives vehicleId options) (.error e) s' :=
    fun e s' heq => heq ▸ Failed.finishes hs.1.1.failed _ e
  refine .ofExcept_bind (fun _ hbinding => ?_) fun e s' _ heq => hfailed e s' heq
  refine .ofExcept_bind (fun _ hintegers => ?_) fun e s' _ heq => hfailed e s' heq
  have hasked : (HubRoute.drives vehicleId options).WellAsked := ⟨validateUuid_ok hu, hintegers⟩
  refine .weaken (W := Granted config i false (fun _ => True) (.drives vehicleId options)) ?_
    (fun s' heq => ?_) fun _ _ hr => hr
  · refine .bind (triple_send (authorizes rfl)) (fun response => ?_)
      fun e s hs => Failed.finishes hs _ e
    refine awaited_bind (triple_owned (fun _ => stable_at _) (triple_decodeDrives hasked))
      (fun _ => stable_at _) fun result => .pure fun s hs => Drove.finishes hs
  · subst heq
    exact { unsent := { hs.1.1.unsent with loaded := trivial }, asked := hasked,
            admitted := Capable.admitted hs.1.2 rfl,
            cursor := cursor_kept hinv hs.1.1.epoch hbinding }

end Drives

/-! ## Sessions -/

-- The abort of a session reaches the discovery that is pending, which alone may go on.
theorem forsaken_aborted {s : Session} (hinv : Inv config s) (i : Nat) (reason : Thrown) :
    Forsaken (s.record ⟨i, .aborted .session reason⟩) := by
  intro p hopened hresult hnone
  have haborts : Aborts s (s.record ⟨i, .aborted .session reason⟩) :=
    Aborts.abort s .session reason
  rw [haborts.operations] at hopened hresult
  have hunaborted : s.reasons p = none := by
    by_contra hne
    exact haborts.aborted hne hnone
  obtain ⟨hbegun, hgeneration⟩ :=
    hinv.sharing.begun p (hinv.sharing.live p hopened hresult hunaborted)
  refine aborted_follows (i := i) .session reason ?_ hnone
  show ((s.operations p).begun && decide ((s.operations p).generation = s.sessionAbort)) = true
  rw [hbegun, hgeneration, Bool.true_and]
  exact decide_eq_true rfl

/-- A thread without an operation, which may have asked for a mutation. -/
def Bare (mutation : Mutation) (x : Operation) : Prop := x = { mutation }

theorem Bare.finishes {mutation : Mutation} {s : Session} (h : At i (Bare mutation) s)
    (result : Except Thrown HubResult) (hresult : ∀ found, result = .ok found → found = .done) :
    Finishes config i call result s := by
  have hx : s.operations i = { mutation } := h
  refine ⟨?_, ?_, ?_, fun found hfound => ?_⟩
  · rw [hx]
    exact nofun
  · rw [hx]
    exact nofun
  · rw [hx]
    exact fun _ _ => rfl
  rw [hresult found hfound]
  trivial

theorem Idle.bare {s : Session} (h : Idle i s) : At i (Bare .none) s := h.1

theorem triple_logout :
    (hubLogic config start).Triple i (Idle i) (logout i) fun r => Finishes config i .logout r := by
  have hbegin : (hubLogic config start).Triple i (Turn i (Bare .queued)) (act i .clearStarted)
      (Outcome (fun _ => Turn i fun x => Bare .storing x ∧ x.mutation = .storing)
        (Turn i fun x => ∃ mutation, Bare mutation x)) := by
    refine .perform rfl fun s hinv hs => ⟨has_turn hinv hs.2 (congrArg Operation.mutation hs.1), ?_,
      hs.2⟩
    refine at_record .clearStarted hs.1 fun x hx => ?_
    have hx : x = { mutation := .queued } := hx
    subst hx
    exact ⟨rfl, rfl⟩
  have herror : ∀ (e : Thrown) s, At i (fun x => ∃ mutation, Bare mutation x) s →
      Finishes config i .logout (.error e) s := by
    rintro e s ⟨mutation, hbare⟩
    exact Bare.finishes hbare _ nofun
  refine .bind triple_requireActive (fun _ => ?_) fun e s hs => Bare.finishes hs.bare _ nofun
  refine .perform_bind (W := fun s => At i (Bare .none) s ∧ Forsaken s) rfl
    (fun s hinv hs => ⟨trivial, ?_, forsaken_aborted hinv i _⟩) ?_
  · exact at_record (.aborted .session clientLoggedOut) hs.1.bare fun _ hx => hx
  refine .perform_bind (W := At i (Bare .none)) rfl (fun s _ hs => ⟨hs.2, hs.1⟩) ?_
  refine .bind (bodyLaws.awaited (triple_enqueueCredentialMutation (B := Bare)
    (E := fun x => ∃ mutation, Bare mutation x)
    (fun s _ hs => ⟨⟨congrArg Operation.mutation hs, congrArg Operation.begun hs⟩, ?_⟩)
    hbegin (fun x hx => ?_) (fun x hx => ⟨_, hx⟩) fun x hx => ?_) fun r => ?_)
    (fun _ => .pure fun s hs => ?_) herror
  · refine at_record .clearQueued hs fun x hx => ?_
    have hx : x = {} := hx
    subst hx
    rfl
  · have hx : x = { mutation := .storing } := hx
    subst hx
    rfl
  · obtain ⟨mutation, hx⟩ := hx
    have hx : x = { mutation } := hx
    subst hx
    exact ⟨.settled false, rfl⟩
  · cases r with
    | ok u => exact stable_at (Bare (.settled true))
    | error e => exact stable_at fun x => ∃ mutation, Bare mutation x
  · refine Bare.finishes hs _ fun found hfound => ?_
    exact (Except.ok.inj hfound).symm

theorem triple_dispose :
    (hubLogic config start).Triple i (Idle i) (dispose i)
      fun r => Finishes config i .dispose r := by
  have hdone : ∀ s, At i (Bare .none) s → Finishes config i .dispose (.ok .done) s :=
    fun s hs => Bare.finishes hs _ fun found hfound => (Except.ok.inj hfound).symm
  refine .get_bind fun s _ hs => .ite (fun _ => .pure fun s' heq => heq ▸ hdone s hs.bare)
    fun _ => ?_
  refine .perform_bind (W := fun s => At i (Bare .none) s ∧ s.disposed = true) rfl
    (fun s' _ heq => ⟨trivial, heq ▸ hs.bare, rfl⟩) ?_
  refine .perform_bind (W := fun s => At i (Bare .none) s ∧ s.disposed = true ∧ Forsaken s) rfl
    (fun s' hinv hs' => ⟨trivial, ?_, ?_, forsaken_aborted hinv i _⟩) ?_
  · exact at_record (.aborted .session clientDisposed) hs'.1 fun _ hx => hx
  · exact (Aborts.abort s' .session clientDisposed).disposed.trans hs'.2
  · exact .perform_bind (W := At i (Bare .none)) rfl (fun s' _ hs' => ⟨hs'.2, hs'.1⟩)
      (.pure fun s' hs' => hdone s' hs')

theorem triple_setting {action : HubAction} (hpermits : ∀ s, Permits config s ⟨i, action⟩)
    (hchange : ∀ s x, action.change s x = x) :
    (hubLogic config start).Triple i (Idle i) (setting i action)
      fun r => Finishes config i call r := by
  refine .perform_bind (W := At i (Bare .none)) rfl (fun s _ hs => ⟨hpermits s, ?_⟩)
    (.pure fun s hs => Bare.finishes hs _ fun found hfound => (Except.ok.inj hfound).symm)
  refine at_record action hs.bare fun x hx => ?_
  rw [hchange]
  exact hx

theorem triple_operation (call : HubCall) :
    (hubLogic config start).Triple i (Idle i) (config.operation i call)
      fun r => Finishes config i call r := by
  cases call with
  | discover signal => exact triple_callDiscover signal
  | health signal => exact triple_health signal
  | readiness signal => exact triple_readiness signal
  | claimPairing invitation deviceName signal =>
    exact triple_claimPairing invitation deviceName signal
  | rotateDevice signal => exact triple_rotateDevice signal
  | vehicles signal => exact triple_vehicles signal
  | current vehicleId signal => exact triple_current vehicleId signal
  | drives vehicleId options => exact triple_drives vehicleId options
  | logout => exact triple_logout
  | dispose => exact triple_dispose
  | abortOwner | abort | changeInvitation | setClock | setCancellation =>
    exact triple_setting (fun _ => trivial) fun _ _ => rfl

end Methods

/-! ## Runs -/

theorem callsHold (config : HubConfig) (start : HubStart) : (hubLogic config start).CallsHold := by
  intro call i s hinv hfresh
  have hthread : (hubLogic config start).Triple i (Idle i) (do
      let result ← (config.operation i call).attempt
      act i (.finished call result)) fun _ _ => True :=
    .attempt_bind (triple_operation call) fun result =>
      .perform rfl fun s _ hs => ⟨hs, trivial⟩
  exact hthread.toProgram (fun _ _ _ => trivial) hinv (fun j hj => hfresh j (by omega))
    (Nat.lt_succ_self i) (hfresh i (Nat.le_refl i))

-- Every run of a hub client keeps to the rules.
theorem session_follows (config : HubConfig) (start : HubStart)
    (inputs : List (SystemInput (Answer HubCredential) HubCall)) :
    (hubLogic config start).monitor.Follows (hubLogic config start).Tracks
      (hubSystem config start).initial ((hubSystem config start).machine.run inputs) :=
  Logic.follows_run (callsHold config start) inputs

end Hub
