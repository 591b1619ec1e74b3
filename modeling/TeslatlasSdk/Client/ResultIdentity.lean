import TeslatlasSdk.Client.Results

/-!
# Results and what was asked for

What a call has decoded is compared with the identities that it was asked for.  A result carries
them, and a value that disagrees with them settles as an error.
-/

open Text Core Json Http Events Client Protocol

namespace TeslatlasClient

/-- A value that is decoded for a call and does not belong to it, with the location that comes with
it, is rejected. -/
structure Identified (config : ClientConfig) (call : ClientCall)
    (result : Except Thrown ClientResult) (x : Exchange) : Prop where
  /-- A result has the value that has been decoded. -/
  decoded : ∀ found, result = .ok (.read (.modified found)) ∨ result = .ok (.written found) →
    x.decoded = some found.value
  owned : ∀ value, x.decoded = some value → (∃ found, result = .ok found) →
    ∃ response, x.response = some response ∧ call.Matches config value response.location

/-- Which settlements the identities allow. -/
def identityMonitor (config : ClientConfig) : Monitor ClientState ClientEvent where
  initial := {}
  record := ClientState.record
  permits s event :=
    match event.action with
    | .settled call result => Identified config call result (s.exchanges event.thread)
    | _ => True

theorem Answered.owned {config : ClientConfig} {x : Exchange} {call : ClientCall}
    {result : WriteResult} (h : Answered config x call result) {value : Value}
    (hvalue : x.decoded = some value) :
    ∃ response, x.response = some response ∧ call.Matches config value response.location := by
  obtain ⟨response, hresponse, -, hdecoded, hmatches⟩ := h
  rw [hdecoded] at hvalue
  obtain rfl := Option.some.inj hvalue
  exact ⟨response, hresponse, hmatches⟩

theorem Answered.decoded {config : ClientConfig} {x : Exchange} {call : ClientCall}
    {result : WriteResult} (h : Answered config x call result) : x.decoded = some result.value := by
  obtain ⟨response, -, -, hdecoded, -⟩ := h
  exact hdecoded

-- What a result rests on identifies it.
theorem Settles.identified {config : ClientConfig} {call : ClientCall}
    {result : Except Thrown ClientResult} {x : Exchange} (h : Settles config call result x) :
    Identified config call result x where
  decoded found hfound := by
    rcases hfound with hmodified | hwritten
    · exact Answered.decoded (h.rests _ hmodified)
    · exact Answered.decoded (h.rests _ hwritten)
  owned value hvalue hresult := by
    obtain ⟨found, hfound⟩ := hresult
    have hrests := h.rests found hfound
    -- only results with a value have decoded one
    match found with
    | .read (.modified result) => exact Answered.owned hrests hvalue
    | .written result => exact Answered.owned hrests hvalue
    | .read (.notModified metadata) =>
      rw [hrests.1] at hvalue
      cases hvalue
    | .session descriptor version =>
      rw [hrests.1] at hvalue
      cases hvalue
    | .done =>
      rw [hrests.1] at hvalue
      cases hvalue

-- In every run of the client, results belong to what was asked for.
theorem results_identified (config : ClientConfig)
    (inputs : List (SystemInput (Answer Empty) ClientCall)) :
    (identityMonitor config).Permitted {} ((clientSystem config).machine.run inputs).2 := by
  refine (results_permitted config inputs).weaken rfl fun s event hpermits => ?_
  obtain ⟨thread, action⟩ := event
  cases action with
  | settled call result => exact Settles.identified hpermits
  | dispatched | responded | body | decoded | aborted | cancellationSet => trivial

/-! ## A part that is not compared

The current state of a vehicle comes with a quality, which names its subject again. -/

def alphaSession : RichSession where
  protocolVersion := js "1.2.0"
  capabilities := [js "query.vehicles"]
  maxRequestBodyBytes := 65536
  advertised := historySession.advertised
  maxPageSize := 500
  maxHistoryRangeDays := 366
  maxDenseRangeDays := 31
  maxPageSize_le := historySession.maxPageSize_le
  descriptor := ⟨js "1.2.0", js "1.0.0", [js "1.2.0"]⟩
  version := .v1_2_0
  protocolVersion_eq := rfl

def alphaUrl : Url := ⟨js "https", js "hub.example", none, [[]], none, none⟩

def alphaConfig : ClientConfig where
  session := alphaSession
  decoder := ⟨fun _ _ => true, fun _ => false⟩
  validators := ⟨fun _ _ => true, fun _ _ => true, fun _ _ => true, fun _ _ => true,
    fun _ _ _ => true⟩
  bodyValidators := ⟨fun _ _ => true, fun _ _ => true, fun _ _ => true⟩
  isAuthorized := false
  apiUrl := alphaUrl
  discoveryUrl := alphaUrl
  authorityUrl _ := none
  areEndpointsSecure _ := true

def alphaCall : ReadCall := ⟨.getVehicleCurrentState, js "vehicle_demo_alpha", {}, none⟩

/-- A current state of `vehicle_demo_alpha`, with the quality of another vehicle. -/
def alphaText : JsString :=
  List.flatten [
    js "\x7b\"resource_type\":\"current_state\",",
    js "\"vehicle_id\":\"vehicle_demo_alpha\",",
    js "\"observed_at\":\"2026-08-30T12:00:00.000Z\",",
    js "\"revision\":42,",
    js "\"state\":\"online\",",
    js "\"battery_level_percent\":null,",
    js "\"range_km\":null,",
    js "\"odometer_km\":null,",
    js "\"locked\":null,",
    js "\"climate_on\":null,",
    js "\"charging_state\":null,",
    js "\"location\":null,",
    js "\"quality\":\x7b\"subject_type\":\"vehicle\",",
    js "\"subject_id\":\"vehicle_demo_beta\",",
    js "\"quality\":\"complete\",",
    js "\"sources\":[],",
    js "\"gap_count\":0,",
    js "\"largest_gap_seconds\":0,",
    js "\"derived_fields\":[],",
    js "\"projection_version\":\"3.1.0\",",
    js "\"assessed_at\":\"2026-08-30T12:00:01.250Z\",",
    js "\"issues\":[]\x7d\x7d"]

def alphaResponse : Response where
  status := 200
  contentType := some (js "application/json")
  entityTag := some (js "\"1\"")
  protocolVersion := some (js "1.2.0")

/-- The call, its response and body, and every promise settled. -/
def alphaInputs : List (SystemInput (Answer Empty) ClientCall) :=
  .call (.read alphaCall) ::
    [.tick, .tick, .response (.ok alphaResponse), .tick,
      .chunk (.ok (some (utf8Encode alphaText))), .chunk (.ok none), .tick, .tick, .tick, .tick,
      .tick, .tick, .tick].map (.answer 0)

/-- A read of a vehicle settles with a quality that is about another one. -/
def tellsOfAnother (event : ClientEvent) : Bool :=
  match event.action with
  | .settled (.read call) (.ok (.read (.modified result))) =>
      match result.value.child (js "quality") with
      | some quality =>
          call.operation = .getVehicleCurrentState &&
            strictEquals (quality.child (js "subject_type")) (some (text (js "vehicle"))) &&
            !strictEquals (quality.child (js "subject_id")) (some (text call.id))
      | none => false
  | _ => false

-- The quality in a current state may be about another vehicle.
theorem quality_of_another :
    ((clientSystem alphaConfig).machine.run alphaInputs).2.any tellsOfAnother = true := by
  have hcall : (clientSystem alphaConfig).call (.read alphaCall) 0 = Async.toProgram (do
      let result ← (runRead alphaConfig 0 alphaCall).attempt
      act 0 (.settled (.read alphaCall) result)) := rfl
  unfold runRead decodeReadResponse decodeJsonSuccess decodeBody readJson readBoundedJson
    readBoundedText readBoundedBody at hcall
  -- the loop over the chunks runs in rounds
  simp only [readChunks_eq] at hcall
  rw [alphaInputs, Machine.run, Machine.runFrom_cons_log, List.any_append]
  simp only [System.machine, System.step]
  rw [List.length_nil, hcall]
  decide +kernel

end TeslatlasClient
