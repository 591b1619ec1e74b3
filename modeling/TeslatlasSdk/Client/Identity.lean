import TeslatlasSdk.Client.RequestTargets
import TeslatlasSdk.Http.ResponseDecoder

/-!
# The identities of results

A result is compared with the identities that its operation was asked for: those of the path, or of
the query, with the resource or with every item of a page.
-/

open Text Core Json Http Events Client

namespace TeslatlasClient

/-! ## Checks of the client -/

def requireIdentity (entity : Value) (key : String) (expected : Option Value)
    (validatorName : String) : Except Thrown Unit := do
  rejectIf (!strictEquals (← property entity (js key)) expected)
    (protocolValidationError (validatorName ++ "." ++ key))

/-- A string as a part of a value. -/
def text (value : JsString) : Value := .leaf (.string value)

def requireLocationIdentity (location : Option JsString) (pathPrefix : String) (id : Option Value)
    (validatorName : String) : Except Thrown Unit :=
  match id with
  | some (.leaf (.string id)) =>
      match encodeURIComponent id with
      | none => .error uriError
      | some component =>
          rejectIf (location ≠ some (js pathPrefix ++ component))
            (protocolValidationError (validatorName ++ ".location"))
  | _ => .error (protocolValidationError (validatorName ++ ".location"))

def singletonKeys : ReadOperationName → Option String
  | .getVehicleCurrentState => some "vehicle_id"
  | .getDrive => some "drive_id"
  | .getCharge => some "charge_id"
  | .getMetadata => some "metadata_id"
  | .getCommand => some "command_id"
  | _ => none

def ownerKeys : ReadOperationName → Option String
  | .listVehicleDrives => some "vehicle_id"
  | .listDrivePositions => some "drive_id"
  | .listVehicleCharges => some "vehicle_id"
  | .listChargeSamples => some "charge_id"
  | .listVehicleStates => some "vehicle_id"
  | .listVehicleUpdates => some "vehicle_id"
  | .listVehicleMetadata => some "vehicle_id"
  | _ => none

/-- The strings that iterating over a string gives. -/
def iteratedString : JsString → List JsString
  | [] => []
  | [u] => [[u]]
  | u :: v :: rest =>
      if isHighSurrogate u && isLowSurrogate v then [u, v] :: iteratedString rest
      else [u] :: iteratedString (v :: rest)

/-- What `for … of` goes through. -/
def iterate : Option Value → Except Thrown (List Value)
  | some (.array items) => .ok items
  | some (.leaf (.string value)) => .ok ((iteratedString value).map text)
  | _ => .error typeError

def queryText (query : QueryValues) (key : String) : Option JsString :=
  match query.lookup (js key) with
  | some (.text value) => some value
  | _ => none

/-- The check of one item of a page of data quality. -/
def requireSubjectIdentity (vehicleId : JsString) (validatorName : String) (item : Value) :
    Except Thrown Unit := do
  if strictEquals (← property item (js "subject_type")) (some (text (js "vehicle"))) then
    requireIdentity item "subject_id" (some (text vehicleId)) (validatorName ++ ".items")
  else return ()

def requireItems (page : Value) (check : Value → Except Thrown Unit) : Except Thrown Unit := do
  let items ← iterate (← property page (js "items"))
  items.forM check

/-- The key of the items' owner and what is expected of it, for a page. -/
def expectedOwner (operation : ReadOperationName) (pathValues : PathValues) (query : QueryValues) :
    Option (String × JsString) :=
  (ownerKeys operation).bind fun key =>
    ((pathValues.lookup (js key)).or (queryText query key)).map (key, ·)

/-- The vehicle that the subjects of data quality are filtered by. -/
def expectedSubject (operation : ReadOperationName) (query : QueryValues) : Option JsString :=
  if operation = .listDataQuality then queryText query "vehicle_id" else none

def requireOwner (value : Value) (validatorName : String) :
    Option (String × JsString) → Except Thrown Unit
  | none => .ok ()
  | some (key, expected) =>
      requireItems value fun item =>
        requireIdentity item key (some (text expected)) (validatorName ++ ".items")

def requireSubject (value : Value) (validatorName : String) :
    Option JsString → Except Thrown Unit
  | none => .ok ()
  | some vehicleId => requireItems value (requireSubjectIdentity vehicleId validatorName)

def validateReadIdentity (operation : ReadOperationName) (value : Value) (pathValues : PathValues)
    (query : QueryValues) (validatorName : String) : Except Thrown Unit :=
  match singletonKeys operation with
  | some key =>
      requireIdentity value key ((pathValues.lookup (js key)).map text) validatorName
  | none => do
      requireOwner value validatorName (expectedOwner operation pathValues query)
      requireSubject value validatorName (expectedSubject operation query)

/-- The fields that `#writeCommand` compares with the command that was sent. -/
def commandKeys : List String := ["vehicle_id", "command", "command_class"]

def validateCommandIdentity (result : WriteResult) (expectedCommand : Value)
    (validatorName : String) : Except Thrown Unit := do
  commandKeys.forM fun key => do
    requireIdentity result.value key (← property expectedCommand (js key)) validatorName
  requireLocationIdentity result.metadata.location "/v1/commands/"
    (← property result.value (js "command_id")) validatorName

/-- The check of `#write`, for the metadata that is created. -/
def validateCreatedIdentity (result : WriteResult) (vehicleId : JsString)
    (validatorName : String) : Except Thrown Unit := do
  requireIdentity result.value "vehicle_id" (some (text vehicleId)) validatorName
  requireLocationIdentity result.metadata.location "/v1/metadata/"
    (← property result.value (js "metadata_id")) validatorName

/-! ## Identities -/

def HasId (value : Value) (key : String) (id : JsString) : Prop :=
  value.child (js key) = some (text id)

/-- The items of a page. -/
def itemsOf (page : Value) : List Value :=
  match page.child (js "items") with
  | some (.array items) => items
  | _ => []

/-- A value of a read belongs to what was asked for. -/
def ReadCall.Owns (call : ReadCall) (value : Value) : Prop :=
  match call.operation with
  | .discoverHub | .listVehicles => True
  | .getVehicleCurrentState => HasId value "vehicle_id" call.id
  | .getDrive => HasId value "drive_id" call.id
  | .getCharge => HasId value "charge_id" call.id
  | .getMetadata => HasId value "metadata_id" call.id
  | .getCommand => HasId value "command_id" call.id
  | .listDrivePositions => ∀ item ∈ itemsOf value, HasId item "drive_id" call.id
  | .listChargeSamples => ∀ item ∈ itemsOf value, HasId item "charge_id" call.id
  | .listDataQuality =>
      ∀ vehicleId, call.options.vehicleId = some vehicleId → ∀ item ∈ itemsOf value,
        HasId item "subject_type" (js "vehicle") → HasId item "subject_id" vehicleId
  | _ => ∀ item ∈ itemsOf value, HasId item "vehicle_id" call.id

/-- A location names a resource under a path. -/
def Locates (location : Option JsString) (path : String) (id : JsString) : Prop :=
  ∃ component, encodeURIComponent id = some component ∧ location = some (js path ++ component)

/-- Created metadata is that of the vehicle, and its location names it. -/
def OwnsCreated (vehicleId : JsString) (value : Value) (location : Option JsString) : Prop :=
  HasId value "vehicle_id" vehicleId ∧
    ∃ id, HasId value "metadata_id" id ∧ Locates location "/v1/metadata/" id

/-- A job is that of the command that was sent, and its location names it. -/
def OwnsCommand (command value : Value) (location : Option JsString) : Prop :=
  (∀ key ∈ commandKeys, ∀ id, HasId command key id → HasId value key id) ∧
    ∃ id, HasId value "command_id" id ∧ Locates location "/v1/commands/" id

/-! ## What the checks pass -/

theorem strictEquals_text {value : Option Value} {id : JsString} :
    strictEquals value (some (text id)) = true ↔ value = some (text id) := by
  match value with
  | none => exact ⟨nofun, nofun⟩
  | some (.array items) => exact ⟨nofun, nofun⟩
  | some (.object members) => exact ⟨nofun, nofun⟩
  | some (.leaf (.number x)) => exact ⟨nofun, nofun⟩
  | some (.leaf .null) => exact ⟨nofun, nofun⟩
  | some (.leaf (.boolean b)) => exact ⟨nofun, nofun⟩
  | some (.leaf (.string other)) =>
    show decide (Primitive.string other = Primitive.string id) = true ↔ _
    rw [decide_eq_true_eq, text, Option.some.injEq, JsonTree.leaf.injEq]

theorem property_eq_ok {value : Value} {key : JsString} {found : Option Value} :
    property value key = .ok found → value.child key = found := by
  intro h
  unfold property at h
  split at h
  · cases h
  · exact Except.ok.inj h

theorem requireIdentity_ok {entity : Value} {id : JsString} {validatorName key : String} {u : Unit}
    (h : requireIdentity entity key (some (text id)) validatorName = .ok u) :
    HasId entity key id := by
  rw [requireIdentity, bind_eq_ok] at h
  obtain ⟨found, hfound, h⟩ := h
  have hequal := rejectIf_eq_ok.mp h
  rw [HasId, property_eq_ok hfound]
  exact strictEquals_text.mp (by simpa using hequal)

theorem requireLocationIdentity_ok {location : Option JsString} {path validatorName : String}
    {id : Option Value} {u : Unit}
    (h : requireLocationIdentity location path id validatorName = .ok u) :
    ∃ name, id = some (text name) ∧ Locates location path name := by
  unfold requireLocationIdentity at h
  split at h
  · next name =>
    split at h
    · cases h
    · next component hcomponent =>
      exact ⟨name, rfl, component, hcomponent, by simpa using rejectIf_eq_ok.mp h⟩
  · cases h

theorem forM_ok {α : Type} {check : α → Except Thrown Unit} {items : List α} {u : Unit}
    (h : items.forM check = .ok u) : ∀ item ∈ items, check item = .ok () := by
  induction items with
  | nil => exact nofun
  | cons item items ih =>
    change (check item >>= fun _ => items.forM check) = .ok u at h
    rw [bind_eq_ok] at h
    obtain ⟨⟨⟩, hitem, hitems⟩ := h
    intro other hother
    rcases List.mem_cons.mp hother with rfl | hother
    · exact hitem
    · exact ih hitems other hother

theorem requireItems_ok {page : Value} {check : Value → Except Thrown Unit} {u : Unit}
    (h : requireItems page check = .ok u) : ∀ item ∈ itemsOf page, check item = .ok () := by
  rw [requireItems, bind_eq_ok] at h
  obtain ⟨found, hfound, h⟩ := h
  rw [bind_eq_ok] at h
  obtain ⟨items, hitems, h⟩ := h
  intro item hitem
  rw [itemsOf, property_eq_ok hfound] at hitem
  split at hitem
  · obtain rfl := Except.ok.inj hitems
    exact forM_ok h item hitem
  · cases hitem

theorem requireSubjectIdentity_ok {vehicleId : JsString} {validatorName : String} {item : Value}
    (h : requireSubjectIdentity vehicleId validatorName item = .ok ())
    (hvehicle : HasId item "subject_type" (js "vehicle")) : HasId item "subject_id" vehicleId := by
  rw [requireSubjectIdentity, bind_eq_ok] at h
  obtain ⟨found, hfound, h⟩ := h
  rw [HasId, property_eq_ok hfound] at hvehicle
  rw [if_pos (strictEquals_text.mpr hvehicle)] at h
  exact requireIdentity_ok h

theorem validateCreatedIdentity_owns {result : WriteResult} {vehicleId : JsString}
    {validatorName : String} {u : Unit}
    (h : validateCreatedIdentity result vehicleId validatorName = .ok u) :
    OwnsCreated vehicleId result.value result.metadata.location := by
  simp only [validateCreatedIdentity, bind_eq_ok] at h
  obtain ⟨_, hvehicle, found, hfound, hlocation⟩ := h
  obtain ⟨id, rfl, hlocates⟩ := requireLocationIdentity_ok hlocation
  exact ⟨requireIdentity_ok hvehicle, id, property_eq_ok hfound, hlocates⟩

theorem validateCommandIdentity_owns {result : WriteResult} {command : Value}
    {validatorName : String} {u : Unit}
    (h : validateCommandIdentity result command validatorName = .ok u) :
    OwnsCommand command result.value result.metadata.location := by
  simp only [validateCommandIdentity, bind_eq_ok] at h
  obtain ⟨_, hkeys, found, hfound, hlocation⟩ := h
  obtain ⟨id, rfl, hlocates⟩ := requireLocationIdentity_ok hlocation
  refine ⟨fun key hkey name hname => ?_, id, property_eq_ok hfound, hlocates⟩
  have hcheck := forM_ok hkeys key hkey
  rw [bind_eq_ok] at hcheck
  obtain ⟨expected, hexpected, hcheck⟩ := hcheck
  rw [HasId, property_eq_ok hexpected] at hname
  rw [hname] at hcheck
  exact requireIdentity_ok hcheck

/-! ## The values that reads return -/

/-- The query that an operation gives to `#read`. -/
def ReadCall.query (call : ReadCall) : QueryValues :=
  let history := call.options.toHistoryPageOptions
  match call.operation with
  | .listVehicles => pageQuery history.toPageReadOptions
  | .listVehicleDrives | .listDrivePositions | .listVehicleCharges | .listChargeSamples
  | .listVehicleStates | .listVehicleUpdates => historyQuery history
  | .listDataQuality => historyQuery history ++ queryValue "vehicle_id" call.options.vehicleId
  | .listVehicleMetadata =>
      pageQuery history.toPageReadOptions ++ queryValue "kind" call.kind
  | _ => []

-- An accepted read is that of its path values and its query.
theorem ReadCall.request_eq (session : ReadSession) (call : ReadCall) :
    Gated (call.isAccepted session) (call.request session)
      (read session call.operation call.pathValues call.query
        call.options.toConditionalReadOptions) := by
  obtain ⟨operation, id, options, kind⟩ := call
  cases operation with
  | discoverHub => exact discoverHub_gated session _
  | listVehicles =>
    have hgate := listVehicles_gated session options.toPageReadOptions
    rw [← Bool.and_true (hasCapability _ _)] at hgate
    exact hgate
  | listDataQuality =>
    have hgate := listDataQuality_gated session options
    rw [← Bool.and_true (hasCapability _ _)] at hgate
    exact hgate
  | listVehicleMetadata =>
    exact listVehicleMetadata_gated session id { options.toPageReadOptions with kind }
  | getVehicleCurrentState | getDrive | getCharge | getMetadata | getCommand =>
    exact singletonRead_gated session _ _ _ _ _
  | listVehicleDrives | listDrivePositions | listVehicleCharges | listChargeSamples
  | listVehicleStates | listVehicleUpdates =>
    exact ownedHistoryRead_gated session _ _ _ _ _

theorem queryText_vehicle (call : ReadCall) (h : call.operation = .listDataQuality) :
    queryText call.query "vehicle_id" = call.options.vehicleId := by
  rw [queryText, ReadCall.query, h]
  simp only
  rw [List.lookup_append, lookup_historyQuery, lookup_pageQuery, lookup_queryValue]
  rw [if_neg (by decide), if_neg (by decide), if_neg (by decide), if_neg (by decide), if_pos rfl,
    Option.none_or]
  cases call.options.vehicleId with
  | none => rfl
  | some vehicleId => rfl

-- Where no single resource is read, the items are checked against the owner and the subject.
theorem validateReadIdentity_items {operation : ReadOperationName} {value : Value}
    {pathValues : PathValues} {query : QueryValues} {validatorName : String} {u : Unit}
    (hpage : singletonKeys operation = none)
    (h : validateReadIdentity operation value pathValues query validatorName = .ok u) :
    (∀ owner, expectedOwner operation pathValues query = some owner →
      ∀ item ∈ itemsOf value, HasId item owner.1 owner.2) ∧
    ∀ vehicleId, expectedSubject operation query = some vehicleId →
      ∀ item ∈ itemsOf value, HasId item "subject_type" (js "vehicle") →
        HasId item "subject_id" vehicleId := by
  rw [validateReadIdentity, hpage] at h
  simp only [bind_eq_ok] at h
  obtain ⟨_, howner, hsubject⟩ := h
  constructor
  · intro owner heq item hitem
    rw [heq] at howner
    exact requireIdentity_ok (requireItems_ok howner item hitem)
  · intro vehicleId heq item hitem
    rw [heq] at hsubject
    exact requireSubjectIdentity_ok (requireItems_ok hsubject item hitem)

-- A value that passes belongs to what was asked for.
theorem validateReadIdentity_owns {call : ReadCall} {value : Value} {validatorName : String}
    {u : Unit}
    (h : validateReadIdentity call.operation value call.pathValues call.query validatorName =
      .ok u) : call.Owns value := by
  obtain ⟨operation, id, options, kind⟩ := call
  cases operation with
  | discoverHub | listVehicles => trivial
  | getVehicleCurrentState | getDrive | getCharge | getMetadata | getCommand =>
    exact requireIdentity_ok h
  | listVehicleDrives | listVehicleCharges | listVehicleStates | listVehicleUpdates
  | listVehicleMetadata =>
    exact (validateReadIdentity_items rfl h).1 ("vehicle_id", id) rfl
  | listDrivePositions => exact (validateReadIdentity_items rfl h).1 ("drive_id", id) rfl
  | listChargeSamples => exact (validateReadIdentity_items rfl h).1 ("charge_id", id) rfl
  | listDataQuality =>
    intro vehicleId hvehicle
    refine (validateReadIdentity_items rfl h).2 vehicleId ?_
    rw [← hvehicle]
    exact queryText_vehicle ⟨.listDataQuality, id, options, kind⟩ rfl

end TeslatlasClient
