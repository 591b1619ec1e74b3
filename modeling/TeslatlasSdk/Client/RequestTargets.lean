import TeslatlasSdk.Client.Reads
import TeslatlasSdk.Http.RequestTarget

/-!
# The targets of the client's requests

Each read, write and event stream is given by what its caller chose: the id, and a value for each
declared name.  A request's URL is then compared with that.
-/

open Text Core Json Http Events Client

namespace TeslatlasClient

/-! ## Checks -/

/-- Accepted, a computation is `target`; or it fails with a typed error. -/
def Gated {α : Type} (accepted : Bool) (computation target : Except Thrown α) : Prop :=
  if accepted then computation = target else ∃ e, computation = .error (.teslatlas e)

theorem Gated.refl {α : Type} (target : Except Thrown α) : Gated true target target := rfl

theorem Gated.bind {α β : Type} {c d : Bool} {e : TeslatlasError} {a : α} {check : Except Thrown α}
    {f : α → Except Thrown β} {target : Except Thrown β}
    (hcheck : check = if c then .ok a else .error (.teslatlas e)) (h : Gated d (f a) target) :
    Gated (c && d) (check >>= f) target := by
  rw [hcheck]
  cases c with
  | true => exact h
  | false => exact ⟨e, rfl⟩

def isId (value : JsString) : Bool :=
  3 ≤ value.length && value.length ≤ 128 && !containsControlCharacters value

theorem validateId_eq (value : JsString) :
    validateId value = if isId value then .ok value else .error invalidReadOptions := by
  rw [validateId, isId]
  by_cases hshort : value.length < 3
  · rw [decide_eq_true hshort, decide_eq_false (Nat.not_le.mpr hshort)]
    rfl
  by_cases hlong : 128 < value.length
  · rw [decide_eq_true hlong, decide_eq_false (Nat.not_le.mpr hlong), Bool.or_true, Bool.and_false]
    rfl
  rw [decide_eq_false hshort, decide_eq_false hlong, decide_eq_true (Nat.not_lt.mp hshort),
    decide_eq_true (Nat.not_lt.mp hlong)]
  cases containsControlCharacters value with
  | true => rfl
  | false => rfl

def hasCapability (session : ClientSession) (capability : String) : Bool :=
  session.capabilities.contains (js capability)

theorem requireCapability_eq (session : ClientSession) (capability : String) :
    requireCapability session capability =
      if hasCapability session capability then .ok ()
      else .error (.teslatlas .missingCapability) := rfl

theorem normalizeOption_eq {α : Type} (isValid : α → Bool) (value : Option α) :
    normalizeOption isValid value =
      if value.all isValid then .ok value else .error invalidReadOptions := by
  cases value with
  | none => rfl
  | some value => rfl

def isConditional (options : ConditionalReadOptions) : Bool :=
  options.ifNoneMatch.all fun value => value.length ≤ 512 && isEntityTag value

theorem normalizeConditionalOptions_eq (options : ConditionalReadOptions) :
    normalizeConditionalOptions options =
      if isConditional options then .ok options else .error invalidReadOptions := by
  rw [normalizeConditionalOptions, normalizeEntityTag, normalizeOption_eq, ← isConditional]
  cases isConditional options with
  | true => rfl
  | false => rfl

section Options

variable (session : ReadSession)

def isPage (options : PageReadOptions) : Bool :=
  isConditional options.toConditionalReadOptions && options.cursor.all isOpaqueCursor &&
    options.limit.all (isLimit session.maxPageSize)

theorem normalizePageOptions_eq (options : PageReadOptions) :
    normalizePageOptions session options =
      if isPage session options then .ok options else .error invalidReadOptions := by
  rw [normalizePageOptions, normalizeConditionalOptions_eq, normalizeCursor, normalizeLimit,
    normalizeOption_eq, normalizeOption_eq, isPage]
  cases isConditional options.toConditionalReadOptions with
  | false => rfl
  | true =>
    cases options.cursor.all isOpaqueCursor with
    | false => rfl
    | true =>
      cases options.limit.all (isLimit session.maxPageSize) with
      | false => rfl
      | true => rfl

theorem normalizeMetadataPageOptions_eq (options : MetadataPageOptions) :
    normalizeMetadataPageOptions session options =
      if isPage session options.toPageReadOptions then .ok options
      else .error invalidReadOptions := by
  rw [normalizeMetadataPageOptions, normalizePageOptions_eq]
  cases isPage session options.toPageReadOptions with
  | true => rfl
  | false => rfl

/-- Whether the bounds that are given make a range. -/
def areBounds (maximumDays : Nat) : Option JsString → Option JsString → Bool
  | some first, some last => isRange maximumDays first last
  | _, _ => true

def isHistory (options : HistoryPageOptions) (rangeLimit : RangeLimit) : Bool :=
  isPage session options.toPageReadOptions && options.start.all isTimestamp &&
    options.stop.all isTimestamp && areBounds (session.maximumDays rangeLimit) options.start
      options.stop

theorem normalizeHistoryOptions_eq (options : HistoryPageOptions) (rangeLimit : RangeLimit) :
    normalizeHistoryOptions session options rangeLimit =
      if isHistory session options rangeLimit then .ok options
      else .error invalidReadOptions := by
  rw [normalizeHistoryOptions, normalizePageOptions_eq, normalizeTimestamp, normalizeOption_eq,
    normalizeOption_eq, isHistory]
  obtain ⟨page, start, stop⟩ := options
  cases isPage session page with
  | false => rfl
  | true =>
    cases hstart : start.all isTimestamp with
    | false => rfl
    | true =>
      cases hstop : stop.all isTimestamp with
      | false => rfl
      | true =>
        cases start with
        | none => rfl
        | some first =>
          cases stop with
          | none => rfl
          | some last =>
            show (if isRange (session.maximumDays rangeLimit) first last then _ else _) = _
            rw [areBounds]
            cases isRange (session.maximumDays rangeLimit) first last with
            | true => rfl
            | false => rfl

end Options

/-! ## Reads -/

/-- A read with what its caller chose; an operation looks at the id and at the options that it
has. -/
structure ReadCall where
  operation : ReadOperationName
  id : JsString
  options : DataQualityPageOptions
  kind : Option JsString

namespace ReadCall

def request (session : ReadSession) (call : ReadCall) : Except Thrown BuiltRequest :=
  let history := call.options.toHistoryPageOptions
  let page := history.toPageReadOptions
  let conditional := page.toConditionalReadOptions
  match call.operation with
  | .discoverHub => discoverHub session conditional
  | .listVehicles => listVehicles session page
  | .getVehicleCurrentState => getVehicleCurrentState session call.id conditional
  | .listVehicleDrives => listVehicleDrives session call.id history
  | .getDrive => getDrive session call.id conditional
  | .listDrivePositions => listDrivePositions session call.id history
  | .listVehicleCharges => listVehicleCharges session call.id history
  | .getCharge => getCharge session call.id conditional
  | .listChargeSamples => listChargeSamples session call.id history
  | .listVehicleStates => listVehicleStates session call.id history
  | .listVehicleUpdates => listVehicleUpdates session call.id history
  | .listDataQuality => listDataQuality session call.options
  | .listVehicleMetadata => listVehicleMetadata session call.id { page with kind := call.kind }
  | .getMetadata => getMetadata session call.id conditional
  | .getCommand => getCommand session call.id conditional

def descriptor (call : ReadCall) : ReadOperationDescriptor := readOperationDescriptors call.operation

/-- The parameter of the template. -/
def parameter (call : ReadCall) : Option String :=
  match call.operation with
  | .discoverHub | .listVehicles | .listDataQuality => none
  | .getDrive | .listDrivePositions => some "drive_id"
  | .getCharge | .listChargeSamples => some "charge_id"
  | .getMetadata => some "metadata_id"
  | .getCommand => some "command_id"
  | _ => some "vehicle_id"

def pathValues (call : ReadCall) : PathValues := parameterValues call.parameter call.id

/-- The text of the option that goes under a name. -/
def value (call : ReadCall) (name : JsString) : Option JsString :=
  if name = js "cursor" then call.options.cursor
  else if name = js "limit" then call.options.limit.map JsNumber.text
  else if name = js "from" then call.options.start
  else if name = js "to" then call.options.stop
  else if name = js "vehicle_id" then call.options.vehicleId
  else if name = js "kind" then call.kind
  else none

/-- The declared names with the values that are given for them. -/
def pairs (call : ReadCall) : List (JsString × JsString) :=
  call.descriptor.queryNames.filterMap fun name => (call.value name).map (name, ·)

def capability (call : ReadCall) : Option String :=
  match call.operation with
  | .discoverHub => none
  | .listVehicles | .getVehicleCurrentState => some "query.vehicles"
  | .listDataQuality => some "data-quality"
  | .listVehicleMetadata | .getMetadata => some "metadata.mutable"
  | .getCommand => some "commands.async"
  | _ => some "query.history"

def areOptions (session : ReadSession) (call : ReadCall) : Bool :=
  let history := call.options.toHistoryPageOptions
  match call.operation with
  | .listVehicles | .listVehicleMetadata => isPage session history.toPageReadOptions
  | .listVehicleDrives | .listVehicleCharges | .listVehicleStates | .listVehicleUpdates =>
      isHistory session history .history
  | .listDrivePositions | .listChargeSamples => isHistory session history .dense
  | .listDataQuality => isHistory session history .history && call.options.vehicleId.all isId
  | _ => isConditional history.toConditionalReadOptions

/-- Whether the session has the capability, and the id and the options pass their checks. -/
def isAccepted (session : ReadSession) (call : ReadCall) : Bool :=
  (call.capability.all (hasCapability session.toClientSession) &&
    call.parameter.all fun _ => isId call.id) && call.areOptions session

end ReadCall

theorem lookup_queryValue (name : String) (value : Option JsString) (key : JsString) :
    (queryValue name value).lookup key = if key = js name then value.map .text else none := by
  cases value with
  | none =>
    rw [Option.map_none, ite_self]
    rfl
  | some value =>
    show ([(js name, QueryValue.text value)] : QueryValues).lookup key = _
    rw [List.lookup_cons]
    by_cases hkey : key = js name
    · rw [if_pos hkey, beq_iff_eq.mpr hkey]
      rfl
    · rw [if_neg hkey, beq_eq_false_iff_ne.mpr hkey]
      rfl

theorem queryPairs_eq {query : QueryValues} {value : JsString → Option JsString}
    {names : List JsString}
    (h : ∀ name ∈ names, query.lookup name = (value name).map QueryValue.text) :
    queryPairs query names = names.filterMap fun name => (value name).map (name, ·) := by
  induction names with
  | nil => rfl
  | cons name names ih =>
    have hrest := ih fun name hname => h name (List.mem_cons_of_mem _ hname)
    have hname := h name List.mem_cons_self
    rw [queryPairs, hname, List.filterMap_cons]
    cases value name with
    | none => exact hrest
    | some value => exact congrArg ((name, value) :: ·) hrest

section Gates

variable (session : ReadSession)

theorem singletonRead_gated (operation : ReadOperationName) (capability parameter : String)
    (id : JsString) (options : ConditionalReadOptions) :
    Gated ((hasCapability session.toClientSession capability && isId id) && isConditional options)
      (singletonRead session operation capability parameter id options)
      (read session operation [(js parameter, id)] [] options) := by
  rw [Bool.and_assoc, singletonRead, ← Bool.and_true (isConditional options)]
  exact .bind (requireCapability_eq _ _) (.bind (validateId_eq id)
    (.bind (normalizeConditionalOptions_eq options) (.refl _)))

theorem ownedHistoryRead_gated (operation : ReadOperationName) (parameter : String)
    (id : JsString) (options : HistoryPageOptions) (rangeLimit : RangeLimit) :
    Gated ((hasCapability session.toClientSession "query.history" && isId id) &&
        isHistory session options rangeLimit)
      (ownedHistoryRead session operation parameter id options rangeLimit)
      (read session operation [(js parameter, id)] (historyQuery options)
        options.toConditionalReadOptions) := by
  rw [Bool.and_comm (hasCapability _ _), Bool.and_assoc, ownedHistoryRead,
    ← Bool.and_true (isHistory session options rangeLimit)]
  refine .bind (validateId_eq id) ?_
  rw [historyRead]
  exact .bind (requireCapability_eq _ _)
    (.bind (normalizeHistoryOptions_eq session options rangeLimit) (.refl _))

theorem discoverHub_gated (options : ConditionalReadOptions) :
    Gated (isConditional options) (discoverHub session options)
      (read session .discoverHub [] [] options) := by
  rw [← Bool.and_true (isConditional options), discoverHub]
  exact .bind (normalizeConditionalOptions_eq options) (.refl _)

theorem listVehicles_gated (options : PageReadOptions) :
    Gated (hasCapability session.toClientSession "query.vehicles" && isPage session options)
      (listVehicles session options)
      (read session .listVehicles [] (pageQuery options) options.toConditionalReadOptions) := by
  rw [← Bool.and_true (isPage session options), listVehicles]
  exact .bind (requireCapability_eq _ _) (.bind (normalizePageOptions_eq session options) (.refl _))

theorem validateOptionalId_eq (value : Option JsString) :
    value.mapM validateId =
      if value.all isId then .ok value else .error invalidReadOptions := by
  cases value with
  | none => rfl
  | some id =>
    rw [Option.mapM_some, validateId_eq]
    show _ = if isId id then _ else _
    cases isId id with
    | true => rfl
    | false => rfl

theorem listDataQuality_gated (options : DataQualityPageOptions) :
    Gated (hasCapability session.toClientSession "data-quality" &&
        (isHistory session options.toHistoryPageOptions .history && options.vehicleId.all isId))
      (listDataQuality session options)
      (read session .listDataQuality []
        (historyQuery options.toHistoryPageOptions ++ queryValue "vehicle_id" options.vehicleId)
        options.toConditionalReadOptions) := by
  rw [← Bool.and_true (options.vehicleId.all isId), listDataQuality]
  exact .bind (requireCapability_eq _ _) (.bind (normalizeHistoryOptions_eq session _ .history)
    (.bind (validateOptionalId_eq options.vehicleId) (.refl _)))

theorem listVehicleMetadata_gated (id : JsString) (options : MetadataPageOptions) :
    Gated ((hasCapability session.toClientSession "metadata.mutable" && isId id) &&
        isPage session options.toPageReadOptions)
      (listVehicleMetadata session id options)
      (read session .listVehicleMetadata [(js "vehicle_id", id)]
        (pageQuery options.toPageReadOptions ++ queryValue "kind" options.kind)
        options.toConditionalReadOptions) := by
  rw [Bool.and_assoc, Bool.and_comm (isId id), ← Bool.and_true (isId id), listVehicleMetadata]
  exact .bind (requireCapability_eq _ _) (.bind (normalizeMetadataPageOptions_eq session options)
    (.bind (validateId_eq id) (.refl _)))

theorem lookup_pageQuery (options : PageReadOptions) (key : JsString) :
    (pageQuery options).lookup key =
      if key = js "cursor" then options.cursor.map .text
      else if key = js "limit" then (options.limit.map JsNumber.text).map .text
      else none := by
  have hne : js "limit" ≠ js "cursor" := by decide
  rw [pageQuery, List.lookup_append, lookup_queryValue, lookup_queryValue]
  by_cases hcursor : key = js "cursor"
  · subst hcursor
    rw [if_pos rfl, if_pos rfl, if_neg hne.symm, Option.or_none]
  · rw [if_neg hcursor, if_neg hcursor, Option.none_or]

theorem lookup_historyQuery (options : HistoryPageOptions) (key : JsString) :
    (historyQuery options).lookup key =
      if key = js "from" then options.start.map .text
      else if key = js "to" then options.stop.map .text
      else (pageQuery options.toPageReadOptions).lookup key := by
  rw [historyQuery, List.lookup_append, List.lookup_append, lookup_pageQuery, lookup_queryValue,
    lookup_queryValue]
  by_cases hfrom : key = js "from"
  · subst hfrom
    rw [if_pos rfl, if_pos rfl, if_neg (by decide), if_neg (by decide), if_neg (by decide),
      Option.none_or, Option.or_none]
  by_cases hto : key = js "to"
  · subst hto
    rw [if_pos rfl, if_pos rfl, if_neg hfrom, if_neg hfrom, if_neg (by decide),
      if_neg (by decide), Option.none_or, Option.none_or]
  · rw [if_neg hfrom, if_neg hfrom, if_neg hto, if_neg hto, Option.or_none, Option.or_none]

-- The query of a read holds what its caller gave for the names that its operation declares.
theorem ReadCall.request_gated (call : ReadCall) :
    ∃ query, Gated (call.isAccepted session) (call.request session)
        (read session call.operation call.pathValues query
          call.options.toConditionalReadOptions) ∧
      ∀ name ∈ call.descriptor.queryNames,
        query.lookup name = (call.value name).map QueryValue.text := by
  obtain ⟨operation, id, options, kind⟩ := call
  have hhistory : ∀ name ∈ ["cursor", "limit", "from", "to"].map js,
      (historyQuery options.toHistoryPageOptions).lookup name =
        ((ReadCall.mk operation id options kind).value name).map QueryValue.text := by
    simp +decide [lookup_historyQuery, lookup_pageQuery, ReadCall.value]
  have hpage : ∀ name ∈ ["cursor", "limit"].map js,
      (pageQuery options.toPageReadOptions).lookup name =
        ((ReadCall.mk operation id options kind).value name).map QueryValue.text := by
    simp +decide [lookup_pageQuery, ReadCall.value]
  cases operation with
  | discoverHub => exact ⟨[], discoverHub_gated session _, nofun⟩
  | listVehicles =>
    have hgate := listVehicles_gated session options.toPageReadOptions
    rw [← Bool.and_true (hasCapability _ _)] at hgate
    exact ⟨_, hgate, hpage⟩
  | getVehicleCurrentState => exact ⟨[], singletonRead_gated session _ _ _ _ _, nofun⟩
  | listVehicleDrives => exact ⟨_, ownedHistoryRead_gated session _ _ _ _ _, hhistory⟩
  | getDrive => exact ⟨[], singletonRead_gated session _ _ _ _ _, nofun⟩
  | listDrivePositions => exact ⟨_, ownedHistoryRead_gated session _ _ _ _ _, hhistory⟩
  | listVehicleCharges => exact ⟨_, ownedHistoryRead_gated session _ _ _ _ _, hhistory⟩
  | getCharge => exact ⟨[], singletonRead_gated session _ _ _ _ _, nofun⟩
  | listChargeSamples => exact ⟨_, ownedHistoryRead_gated session _ _ _ _ _, hhistory⟩
  | listVehicleStates => exact ⟨_, ownedHistoryRead_gated session _ _ _ _ _, hhistory⟩
  | listVehicleUpdates => exact ⟨_, ownedHistoryRead_gated session _ _ _ _ _, hhistory⟩
  | listDataQuality =>
    have hgate := listDataQuality_gated session options
    rw [← Bool.and_true (hasCapability _ _)] at hgate
    refine ⟨_, hgate, ?_⟩
    change ∀ name ∈ ["cursor", "limit", "from", "to", "vehicle_id"].map js, _
    simp +decide [List.lookup_append, lookup_historyQuery, lookup_pageQuery, lookup_queryValue,
      ReadCall.value]
  | listVehicleMetadata =>
    refine ⟨_, listVehicleMetadata_gated session id { options.toPageReadOptions with kind }, ?_⟩
    change ∀ name ∈ ["cursor", "limit", "kind"].map js, _
    simp +decide [List.lookup_append, lookup_pageQuery, lookup_queryValue, ReadCall.value]
  | getMetadata => exact ⟨[], singletonRead_gated session _ _ _ _ _, nofun⟩
  | getCommand => exact ⟨[], singletonRead_gated session _ _ _ _ _, nofun⟩

end Gates

section Targets

variable (authorityUrl : JsString → Option Url) (base : Url)

def ReadCall.target (session : ReadSession) (call : ReadCall) : Except Thrown Url := do
  let request ← call.request session
  resolveRequestUrl authorityUrl base request.path

theorem ReadCall.parameterNames_eq (call : ReadCall) :
    parameterNames (templateSegments call.descriptor.pathTemplate) =
      call.parameter.toList.map js := by
  obtain ⟨operation, id, options, kind⟩ := call
  cases operation with
  | _ => rfl

theorem ReadCall.isWellFormed_name (call : ReadCall) :
    ∀ pair ∈ call.pairs, isWellFormed pair.1 = true := by
  have hall : ∀ operation, (readOperationDescriptors operation).queryNames.all isWellFormed =
      true := by
    intro operation
    cases operation with
    | _ => rfl
  intro pair hpair
  obtain ⟨name, hname, hvalue⟩ := List.mem_filterMap.mp hpair
  obtain ⟨value, -, rfl⟩ := Option.map_eq_some_iff.mp hvalue
  exact List.all_eq_true.mp (hall call.operation) name hname

theorem ReadCall.target_gated (session : ReadSession) (call : ReadCall) :
    Gated (call.isAccepted session) (call.target authorityUrl base session)
      (buildTarget authorityUrl base call.descriptor.pathTemplate call.pathValues call.pairs) := by
  obtain ⟨query, hgate, hquery⟩ := call.request_gated session
  have hpairs : queryPairs query call.descriptor.queryNames = call.pairs := queryPairs_eq hquery
  rw [Gated] at hgate ⊢
  split at hgate
  · next haccepted =>
    rw [if_pos haccepted, target, hgate, read, buildReadRequest, buildTarget]
    show interpolatePath call.descriptor.pathTemplate call.pathValues >>= _ >>= _ = _
    cases interpolatePath call.descriptor.pathTemplate call.pathValues with
    | error e => rfl
    | ok path =>
      rw [← hpairs]
      rfl
  · next haccepted =>
    obtain ⟨e, herror⟩ := hgate
    rw [if_neg haccepted, target, herror]
    exact ⟨e, rfl⟩

theorem isId_length {id : JsString} (h : isId id = true) : 3 ≤ id.length := by
  rw [isId, Bool.and_eq_true, Bool.and_eq_true, decide_eq_true_eq] at h
  exact h.1.1

theorem ReadCall.id_length {session : ReadSession} {call : ReadCall}
    (h : call.isAccepted session = true) : ∀ name ∈ call.parameter, 3 ≤ call.id.length := by
  rw [isAccepted, Bool.and_eq_true, Bool.and_eq_true] at h
  intro name hname
  have hid := h.1.2
  rw [hname] at hid
  exact isId_length hid

theorem ReadCall.target_faithful_iff (session : ReadSession) (call : ReadCall) :
    Faithful base call.descriptor.pathTemplate call.pathValues call.pairs
        (call.target authorityUrl base session) ↔
      (call.isAccepted session = true →
        AreWellFormed call.pathValues ∧ AreWellFormed call.pairs) := by
  have hgate := call.target_gated authorityUrl base session
  rw [Gated] at hgate
  split at hgate
  · next haccepted =>
    rw [hgate, imp_iff_right haccepted]
    exact buildTarget_faithful_iff (isProper_readOperation call.operation) call.parameterNames_eq
      (id_length haccepted) authorityUrl base call.isWellFormed_name
  · next haccepted =>
    obtain ⟨e, herror⟩ := hgate
    rw [herror]
    exact iff_of_true rfl fun h => absurd h haccepted

/-! ## Writes -/

/-- A write with an id that has been validated, and what goes into its request. -/
structure WriteCall (n : Nat) where
  operation : WriteOperationName
  id : JsString
  heap : Heap n
  protocolVersion : JsString
  options : WriteRequestOptions n

namespace WriteCall

variable {n : Nat} (call : WriteCall n)

def descriptor : WriteOperationDescriptor := writeOperationDescriptors call.operation

def parameter : Option String :=
  match call.operation with
  | .createMetadata => some "vehicle_id"
  | .replaceMetadata | .deleteMetadata => some "metadata_id"
  | .createCommand => none

def pathValues : PathValues := parameterValues call.parameter call.id

def target : Except Thrown Url := do
  let request ← buildWriteRequest call.heap call.descriptor call.pathValues call.protocolVersion
    call.options
  resolveRequestUrl authorityUrl base request.path

theorem parameterNames_eq :
    parameterNames (templateSegments call.descriptor.pathTemplate) =
      call.parameter.toList.map js := by
  obtain ⟨operation, id, heap, protocolVersion, options⟩ := call
  cases operation with
  | _ => rfl

/-- Whether `Headers` takes the tag and the key. -/
def hasHeaderValues : Bool :=
  call.options.ifMatch.all isHeaderValue && call.options.idempotencyKey.all isHeaderValue

-- Once the path has been built, the headers may be refused, and then the body.
theorem target_cases :
    (call.target authorityUrl base =
        buildTarget authorityUrl base call.descriptor.pathTemplate call.pathValues [] ∧
      ((∃ path, interpolatePath call.descriptor.pathTemplate call.pathValues = .ok path) →
        call.hasHeaderValues = true)) ∨
      (∃ path, interpolatePath call.descriptor.pathTemplate call.pathValues = .ok path) ∧
        if call.hasHeaderValues then ∃ e, call.target authorityUrl base = .error (.teslatlas e)
        else call.target authorityUrl base = .error headersError := by
  rw [target, buildWriteRequest, buildTarget, mapM_headerValue, mapM_headerValue, hasHeaderValues]
  cases interpolatePath call.descriptor.pathTemplate call.pathValues with
  | error e =>
    refine .inl ⟨rfl, ?_⟩
    rintro ⟨_, hpath⟩
    cases hpath
  | ok path =>
    cases call.options.ifMatch.all isHeaderValue with
    | false => exact .inr ⟨⟨path, rfl⟩, rfl⟩
    | true =>
      cases call.options.idempotencyKey.all isHeaderValue with
      | false => exact .inr ⟨⟨path, rfl⟩, rfl⟩
      | true =>
        cases hbody : writeBody call.heap call.descriptor call.options.body with
        | error e => exact .inr ⟨⟨path, rfl⟩, e, rfl⟩
        | ok body => exact .inl ⟨rfl, fun _ => rfl⟩

include authorityUrl base in
-- A path that is built has well-formed values in it.
theorem areWellFormed_of_path (hid : isId call.id = true) {path : JsString}
    (hpath : interpolatePath call.descriptor.pathTemplate call.pathValues = .ok path) :
    AreWellFormed call.pathValues := by
  rcases parameterValues_target (isProper_writeOperation call.operation) call.parameterNames_eq
    (fun _ _ => isId_length hid) authorityUrl base [] with ⟨_, _, _, _, _, _, _, hwell⟩ | ⟨huri, -⟩
  · exact hwell
  · cases hpath.symm.trans huri

theorem target_faithful_iff (hid : isId call.id = true) :
    Faithful base call.descriptor.pathTemplate call.pathValues [] (call.target authorityUrl base) ↔
      AreWellFormed call.pathValues ∧ call.hasHeaderValues = true := by
  have hlength : ∀ name ∈ call.parameter, 3 ≤ call.id.length := fun _ _ => isId_length hid
  have hiff : Faithful base call.descriptor.pathTemplate call.pathValues []
      (buildTarget authorityUrl base call.descriptor.pathTemplate call.pathValues []) ↔
        AreWellFormed call.pathValues ∧ AreWellFormed [] :=
    buildTarget_faithful_iff (isProper_writeOperation call.operation) call.parameterNames_eq hlength
      authorityUrl base nofun
  rcases call.target_cases authorityUrl base with ⟨htarget, hheaders⟩ | ⟨⟨path, hpath⟩, htarget⟩
  · rw [htarget, hiff]
    refine ⟨fun h => ⟨h.1, ?_⟩, fun h => ⟨h.1, nofun⟩⟩
    rcases parameterValues_target (isProper_writeOperation call.operation)
      call.parameterNames_eq hlength authorityUrl base [] with ⟨path, _, hpath, _⟩ | ⟨_, hill⟩
    · exact hheaders ⟨path, hpath⟩
    · exact absurd h.1 hill
  · have hwell := call.areWellFormed_of_path authorityUrl base hid hpath
    rw [and_iff_right hwell]
    split at htarget
    · next hheaders =>
      obtain ⟨e, herror⟩ := htarget
      rw [herror]
      exact iff_of_true rfl hheaders
    · next hheaders =>
      rw [htarget]
      exact iff_of_false Bool.false_ne_true hheaders

end WriteCall

/-! ## Event streams -/

/-- The filters of an event stream. -/
structure EventCall where
  protocolVersion : SupportedProtocolVersion
  vehicleId : Option JsString
  eventTypes : Option (List JsString)

namespace EventCall

variable (session : ReadSession) (call : EventCall)

def template : JsString := js "/v1/events"

/-- The filters that are given; an empty list of types is none. -/
def pairs : List (JsString × JsString) :=
  call.vehicleId.toList.map (js "vehicle_id", ·) ++
    if (call.eventTypes.getD []).isEmpty then []
    else [(js "event_type", List.intercalate (js ",") (call.eventTypes.getD []))]

def isAccepted : Bool :=
  hasCapability session.toClientSession "events.sse" && (call.vehicleId.all isId &&
    (normalizeEventTypes call.eventTypes call.protocolVersion).isOk)

def target : Except Thrown Url := do
  let path ← streamEvents session call.protocolVersion call.vehicleId call.eventTypes
  resolveRequestUrl authorityUrl base path

theorem normalizeVehicleId_eq (value : Option JsString) :
    normalizeVehicleId value =
      if value.all isId then .ok value else .error invalidStreamEventsOptions := by
  cases value with
  | none => rfl
  | some id =>
    have hid := validateId_eq id
    rw [validateId] at hid
    rw [normalizeVehicleId]
    show _ = if isId id then _ else _
    split at hid
    · next hbad =>
      rw [if_pos hbad]
      cases hvalid : isId id with
      | true =>
        rw [hvalid] at hid
        cases hid
      | false => rfl
    · next hgood =>
      rw [if_neg hgood]
      cases hvalid : isId id with
      | true => rfl
      | false =>
        rw [hvalid] at hid
        cases hid

theorem checkEventTypes_cases (protocolVersion : SupportedProtocolVersion) (seen types : List JsString) :
    (checkEventTypes protocolVersion seen types = .ok types ∧
        ∀ name ∈ types, ∃ introducedIn, eventIntroducedIn name = some introducedIn) ∨
      ∃ e, checkEventTypes protocolVersion seen types = .error (.teslatlas e) := by
  induction types generalizing seen with
  | nil => exact .inl ⟨rfl, nofun⟩
  | cons name types ih =>
    rw [checkEventTypes]
    cases hname : eventIntroducedIn name with
    | none => exact .inr ⟨_, rfl⟩
    | some introducedIn =>
      simp only
      split
      · exact .inr ⟨_, rfl⟩
      split
      · exact .inr ⟨_, rfl⟩
      rcases ih (name :: seen) with ⟨hrest, hall⟩ | ⟨e, herror⟩
      · rw [hrest]
        refine .inl ⟨rfl, fun other hother => ?_⟩
        rcases List.mem_cons.mp hother with rfl | hother
        · exact ⟨introducedIn, hname⟩
        · exact hall other hother
      · rw [herror]
        exact .inr ⟨e, rfl⟩

theorem normalizeEventTypes_cases (value : Option (List JsString))
    (protocolVersion : SupportedProtocolVersion) :
    (normalizeEventTypes value protocolVersion = .ok (value.getD []) ∧
        ∀ name ∈ value.getD [], ∃ introducedIn, eventIntroducedIn name = some introducedIn) ∨
      ∃ e, normalizeEventTypes value protocolVersion = .error (.teslatlas e) := by
  cases value with
  | none => exact .inl ⟨rfl, nofun⟩
  | some types =>
    rw [normalizeEventTypes]
    split
    · exact .inr ⟨_, rfl⟩
    · exact checkEventTypes_cases protocolVersion [] types

theorem streamEvents_gated :
    Gated (call.isAccepted session)
      (streamEvents session call.protocolVersion call.vehicleId call.eventTypes)
      (.ok (withQuery template call.pairs)) := by
  have hchecked : ∃ e, normalizeEventTypes call.eventTypes call.protocolVersion =
      if (normalizeEventTypes call.eventTypes call.protocolVersion).isOk then
        .ok (call.eventTypes.getD [])
      else .error (.teslatlas e) := by
    rcases normalizeEventTypes_cases call.eventTypes call.protocolVersion with
      ⟨hok, -⟩ | ⟨e, herror⟩
    · exact ⟨.transport, by rw [hok]; rfl⟩
    · exact ⟨e, by rw [herror]; rfl⟩
  obtain ⟨e, hchecked⟩ := hchecked
  have hpath : eventPath call.vehicleId (call.eventTypes.getD []) =
      withQuery template call.pairs := by
    rw [eventPath, withQuery, pairs]
    split
    · rfl
    · rfl
  rw [isAccepted, ← Bool.and_true (normalizeEventTypes _ _).isOk, streamEvents, ← hpath]
  exact .bind (requireCapability_eq _ _) (.bind (normalizeVehicleId_eq call.vehicleId)
    (.bind hchecked (.refl _)))

theorem eventIntroducedIn_ascii {name : JsString} {introducedIn : SupportedProtocolVersion}
    (h : eventIntroducedIn name = some introducedIn) : ∀ u ∈ name, u.toNat < 0xD800 := by
  have hall : protocolEventCatalog.all (fun entry => entry.1.all fun u => u.toNat < 0xD800) =
      true := by
    decide
  obtain ⟨entry, hentry, rfl⟩ : ∃ entry ∈ protocolEventCatalog, name = entry.1 := by
    rw [eventIntroducedIn] at h
    obtain ⟨before, after, heq, -⟩ := List.lookup_eq_some_iff.mp h
    exact ⟨(name, introducedIn), heq ▸ List.mem_append_right _ List.mem_cons_self, rfl⟩
  intro u hu
  exact of_decide_eq_true (List.all_eq_true.mp (List.all_eq_true.mp hall entry hentry) u hu)

theorem mem_intercalate {α : Type} {separator : List α} {parts : List (List α)} {a : α}
    (h : a ∈ List.intercalate separator parts) : a ∈ separator ∨ ∃ part ∈ parts, a ∈ part := by
  induction parts with
  | nil => cases h
  | cons part parts ih =>
    cases parts with
    | nil =>
      rw [List.intercalate_singleton] at h
      exact .inr ⟨part, List.mem_cons_self, h⟩
    | cons next parts =>
      rw [List.intercalate_cons_cons] at h
      rcases List.mem_append.mp h with h | h
      · rcases List.mem_append.mp h with h | h
        · exact .inr ⟨part, List.mem_cons_self, h⟩
        · exact .inl h
      · rcases ih h with h | ⟨other, hother, h⟩
        · exact .inl h
        · exact .inr ⟨other, List.mem_cons_of_mem part hother, h⟩

-- The names of the catalogue are plain, so that the vehicle's id is all that matters.
theorem areWellFormed_pairs_iff (h : call.isAccepted session = true) :
    AreWellFormed call.pairs ↔ ∀ id ∈ call.vehicleId, isWellFormed id = true := by
  rw [isAccepted, Bool.and_eq_true, Bool.and_eq_true] at h
  have htypes : isWellFormed (List.intercalate (js ",") (call.eventTypes.getD [])) = true := by
    rcases normalizeEventTypes_cases call.eventTypes call.protocolVersion with
      ⟨-, hknown⟩ | ⟨e, herror⟩
    · refine isWellFormed_of_lt fun u hu => ?_
      rcases mem_intercalate hu with hu | ⟨part, hpart, hu⟩
      · rw [List.mem_singleton.mp (show u ∈ [0x2C] from hu)]
        decide
      · obtain ⟨introducedIn, hname⟩ := hknown part hpart
        exact eventIntroducedIn_ascii hname u hu
    · rw [herror] at h
      cases h.2.2
  constructor
  · intro hpairs id hid
    refine hpairs (js "vehicle_id", id) (List.mem_append_left _ ?_)
    rw [hid]
    exact List.mem_singleton_self _
  · intro hid pair hpair
    rw [pairs] at hpair
    rcases List.mem_append.mp hpair with hpair | hpair
    · obtain ⟨id, hmem, rfl⟩ := List.mem_map.mp hpair
      exact hid id (Option.mem_toList.mp hmem)
    · split at hpair
      · cases hpair
      · rw [List.mem_singleton.mp hpair]
        exact htypes

theorem target_faithful_iff :
    Faithful base template [] call.pairs (call.target authorityUrl base session) ↔
      (call.isAccepted session = true → ∀ id ∈ call.vehicleId, isWellFormed id = true) := by
  have hgate := call.streamEvents_gated session
  rw [Gated] at hgate
  split at hgate
  · next haccepted =>
    have hpath : interpolatePath template [] = .ok template := by
      rw [interpolatePath_eq rfl fun _ hvalue => absurd hvalue List.not_mem_nil]
      rfl
    have htarget : call.target authorityUrl base session =
        buildTarget authorityUrl base template [] call.pairs := by
      rw [target, hgate, buildTarget, hpath]
      rfl
    have hnames : ∀ pair ∈ call.pairs, isWellFormed pair.1 = true := by
      intro pair hpair
      rcases List.mem_append.mp hpair with hpair | hpair
      · obtain ⟨id, -, rfl⟩ := List.mem_map.mp hpair
        rfl
      · split at hpair
        · cases hpair
        · rw [List.mem_singleton.mp hpair]
          rfl
    have hnone : AreWellFormed [] := fun value hvalue => absurd hvalue List.not_mem_nil
    have hiff := @buildTarget_faithful_iff template none [] rfl rfl
      (fun name hname => absurd hname (Option.not_mem_none name)) authorityUrl base
      call.pairs hnames
    rw [htarget, imp_iff_right haccepted, ← areWellFormed_pairs_iff session call haccepted]
    exact hiff.trans (and_iff_right hnone)
  · next haccepted =>
    obtain ⟨e, herror⟩ := hgate
    rw [target, herror]
    exact iff_of_true rfl fun h => absurd h haccepted

end EventCall

/-! ## Distinct choices -/

theorem parameterValues_injective {template : JsString} {parameter : Option String}
    {id id' : JsString} {pairs pairs' : List (JsString × JsString)} {url : Url}
    (hnames : parameterNames (templateSegments template) = parameter.toList.map js)
    (h : Reaches base template (parameterValues parameter id) pairs url)
    (h' : Reaches base template (parameterValues parameter id') pairs' url) :
    parameterValues parameter id = parameterValues parameter id' ∧ pairs = pairs' := by
  refine ⟨?_, h.query.symm.trans h'.query⟩
  have hlookup := lookup_eq_of_stands h.segments h'.segments
  cases parameter with
  | none => rfl
  | some name =>
    have hone := hlookup (js name) (hnames ▸ List.mem_singleton_self (js name))
    have hfirst : ∀ value, (parameterValues (some name) value).lookup (js name) = some value := by
      intro value
      show ([(js name, value)] : PathValues).lookup (js name) = some value
      rw [List.lookup_cons, beq_self_eq_true]
    rw [hfirst, hfirst, Option.some.injEq] at hone
    rw [hone]

theorem ReadCall.target_injective {session session' : ReadSession} {call call' : ReadCall}
    {url : Url} (hoperation : call.operation = call'.operation)
    (h : call.target authorityUrl base session = .ok url)
    (h' : call'.target authorityUrl base session' = .ok url)
    (hwell : AreWellFormed call.pathValues ∧ AreWellFormed call.pairs)
    (hwell' : AreWellFormed call'.pathValues ∧ AreWellFormed call'.pairs) :
    call.pathValues = call'.pathValues ∧ call.pairs = call'.pairs := by
  have hfaithful := (call.target_faithful_iff authorityUrl base session).mpr fun _ => hwell
  have hfaithful' := (call'.target_faithful_iff authorityUrl base session').mpr fun _ => hwell'
  have hdescriptor : call'.descriptor = call.descriptor :=
    congrArg readOperationDescriptors hoperation.symm
  have hparameter : call'.parameter = call.parameter := by
    rw [parameter, parameter, hoperation]
  rw [h, pathValues] at hfaithful
  rw [h', hdescriptor, pathValues, hparameter] at hfaithful'
  rw [pathValues, pathValues, hparameter]
  exact parameterValues_injective base call.parameterNames_eq hfaithful hfaithful'

theorem WriteCall.target_injective {n n' : Nat} {call : WriteCall n} {call' : WriteCall n'}
    {url : Url} (hoperation : call.operation = call'.operation) (hid : isId call.id = true)
    (hid' : isId call'.id = true) (h : call.target authorityUrl base = .ok url)
    (h' : call'.target authorityUrl base = .ok url) : call.pathValues = call'.pathValues := by
  have hreaches : ∀ {n : Nat} {call : WriteCall n}, isId call.id = true →
      call.target authorityUrl base = .ok url →
      Reaches base call.descriptor.pathTemplate call.pathValues [] url := by
    intro n call hid h
    have hwell : AreWellFormed call.pathValues ∧ call.hasHeaderValues = true := by
      rcases call.target_cases authorityUrl base with ⟨htarget, hheaders⟩ | ⟨-, htarget⟩
      · cases hpath : interpolatePath call.descriptor.pathTemplate call.pathValues with
        | error e =>
          rw [htarget, buildTarget, hpath] at h
          cases h
        | ok path =>
          exact ⟨call.areWellFormed_of_path authorityUrl base hid hpath, hheaders ⟨path, hpath⟩⟩
      · split at htarget
        · obtain ⟨e, herror⟩ := htarget
          rw [herror] at h
          cases h
        · rw [htarget] at h
          cases h
    have hfaithful := (call.target_faithful_iff authorityUrl base hid).mpr hwell
    rw [h] at hfaithful
    exact hfaithful
  have hreaches' := hreaches hid' h'
  have hdescriptor : call'.descriptor = call.descriptor :=
    congrArg writeOperationDescriptors hoperation.symm
  have hparameter : call'.parameter = call.parameter := by
    rw [parameter, parameter, hoperation]
  rw [hdescriptor, pathValues, hparameter] at hreaches'
  have hvalues := parameterValues_injective base call.parameterNames_eq (hreaches hid h) hreaches'
  rw [pathValues, pathValues, hparameter]
  exact hvalues.1

theorem EventCall.target_injective {session session' : ReadSession} {call call' : EventCall}
    {url : Url} (h : call.target authorityUrl base session = .ok url)
    (h' : call'.target authorityUrl base session' = .ok url)
    (hwell : ∀ id ∈ call.vehicleId, isWellFormed id = true)
    (hwell' : ∀ id ∈ call'.vehicleId, isWellFormed id = true) : call.pairs = call'.pairs := by
  have hfaithful := (target_faithful_iff authorityUrl base session call).mpr fun _ => hwell
  have hfaithful' := (target_faithful_iff authorityUrl base session' call').mpr fun _ => hwell'
  rw [h] at hfaithful
  rw [h'] at hfaithful'
  exact hfaithful.query.symm.trans hfaithful'.query

end Targets

/-! ## Requests and their targets -/

-- A request reaches exactly what its caller chose, or fails with a typed error, unless it is built
-- from an id or a value with a lone surrogate, or with a tag that is no string of bytes; and then
-- never.
theorem requestTargets_iff (authorityUrl : JsString → Option Url) (base : Url) :
    (∀ (session : ReadSession) (call : ReadCall),
      Faithful base call.descriptor.pathTemplate call.pathValues call.pairs
          (call.target authorityUrl base session) ↔
        (call.isAccepted session = true →
          AreWellFormed call.pathValues ∧ AreWellFormed call.pairs)) ∧
    (∀ (n : Nat) (call : WriteCall n), isId call.id = true →
      (Faithful base call.descriptor.pathTemplate call.pathValues []
          (call.target authorityUrl base) ↔
        AreWellFormed call.pathValues ∧ call.hasHeaderValues = true)) ∧
    (∀ (value tag : JsString), asStrongEntityTag value = .ok tag →
      headerValue tag = if tag.all (· ≤ 0xFF) then .ok tag else .error headersError) ∧
    (∀ (value key : JsString), asIdempotencyKey value = .ok key → headerValue key = .ok key) ∧
    (∀ (session : ReadSession) (call : EventCall),
      Faithful base EventCall.template [] call.pairs (call.target authorityUrl base session) ↔
        (call.isAccepted session = true → ∀ id ∈ call.vehicleId, isWellFormed id = true)) ∧
    (∀ (session session' : ReadSession) (call call' : ReadCall) (url : Url),
      call.operation = call'.operation → call.target authorityUrl base session = .ok url →
      call'.target authorityUrl base session' = .ok url →
      AreWellFormed call.pathValues ∧ AreWellFormed call.pairs →
      AreWellFormed call'.pathValues ∧ AreWellFormed call'.pairs →
      call.pathValues = call'.pathValues ∧ call.pairs = call'.pairs) ∧
    (∀ (n n' : Nat) (call : WriteCall n) (call' : WriteCall n') (url : Url),
      call.operation = call'.operation → isId call.id = true → isId call'.id = true →
      call.target authorityUrl base = .ok url → call'.target authorityUrl base = .ok url →
      call.pathValues = call'.pathValues) ∧
    ∀ (session session' : ReadSession) (call call' : EventCall) (url : Url),
      call.target authorityUrl base session = .ok url →
      call'.target authorityUrl base session' = .ok url →
      (∀ id ∈ call.vehicleId, isWellFormed id = true) →
      (∀ id ∈ call'.vehicleId, isWellFormed id = true) → call.pairs = call'.pairs := by
  refine ⟨fun session call => call.target_faithful_iff authorityUrl base session,
    fun n call hid => call.target_faithful_iff authorityUrl base hid,
    fun value tag htag => headerValue_strongEntityTag htag,
    fun value key hkey => headerValue_idempotencyKey hkey,
    fun session call => EventCall.target_faithful_iff authorityUrl base session call,
    ?_, ?_, ?_⟩
  · intro session session' call call' url hoperation h h' hwell hwell'
    exact ReadCall.target_injective authorityUrl base hoperation h h' hwell hwell'
  · intro n n' call call' url hoperation hid hid' h h'
    exact WriteCall.target_injective authorityUrl base hoperation hid hid' h h'
  · intro session session' call call' url h h' hwell hwell'
    exact EventCall.target_injective authorityUrl base h h' hwell hwell'

/-- A session that may read histories. -/
def historySession : ReadSession where
  protocolVersion := js "1.2.0"
  capabilities := [js "query.history", js "data-quality"]
  maxRequestBodyBytes := 65536
  advertised := ⟨3, Commands.schemaHeap none, [], fun _ => .ok fun _ => .ok true⟩
  maxPageSize := 500
  maxHistoryRangeDays := 366
  maxDenseRangeDays := 7
  maxPageSize_le := Nat.le_refl 500

/-- An id with a lone surrogate at its end. -/
def surrogateId : JsString := js "ab" ++ [0xD800]

def surrogateDrive : ReadCall where
  operation := .getDrive
  id := surrogateId
  options := {}
  kind := none

def surrogateFilter : ReadCall where
  operation := .listDataQuality
  id := []
  options := { vehicleId := some surrogateId }
  kind := none

def localUrl : Url where
  scheme := js "http"
  host := js "localhost"
  port := none
  path := [[]]
  query := none
  fragment := none

/-- The deletion of a record behind a tag that is no string of bytes. -/
def euroDeletion : WriteCall 1 where
  operation := .deleteMetadata
  id := js "met_0001"
  heap := {
    objects := fun _ => {
      isArray := false
      prototype := none
      properties := []
      distinct := List.nodup_nil
      ordered := .nil
      arrayLength := fun h => absurd h Bool.false_ne_true }
    objectPrototype := 0
    arrayPrototype := 0 }
  protocolVersion := js "1.2.0"
  options := { ifMatch := some [0x22, 0x20AC, 0x22] }

-- The id passes its check.  In a path it is then an error of `encodeURIComponent`, in a query it is
-- sent as another id.  A tag that passes its check is an error of `Headers`.
theorem surrogateId_unfaithful :
    isId surrogateId = true ∧
      surrogateDrive.isAccepted historySession = true ∧
      surrogateDrive.target (fun _ => none) localUrl historySession = .error uriError ∧
      ¬ Faithful localUrl surrogateDrive.descriptor.pathTemplate surrogateDrive.pathValues
          surrogateDrive.pairs (surrogateDrive.target (fun _ => none) localUrl historySession) ∧
      surrogateFilter.isAccepted historySession = true ∧
      ¬ Faithful localUrl surrogateFilter.descriptor.pathTemplate surrogateFilter.pathValues
          surrogateFilter.pairs
          (surrogateFilter.target (fun _ => none) localUrl historySession) ∧
      isId euroDeletion.id = true ∧
      euroDeletion.options.ifMatch.all isStrongEntityTag = true ∧
      ¬ Faithful localUrl euroDeletion.descriptor.pathTemplate euroDeletion.pathValues []
          (euroDeletion.target (fun _ => none) localUrl) := by
  have hdrive : surrogateDrive.isAccepted historySession = true := by decide
  have hfilter : surrogateFilter.isAccepted historySession = true := by decide
  have htarget : surrogateDrive.target (fun _ => none) localUrl historySession =
      .error uriError := by
    have hgate := surrogateDrive.target_gated (fun _ => none) localUrl historySession
    have hpath : interpolatePath surrogateDrive.descriptor.pathTemplate
        surrogateDrive.pathValues = .error uriError := by
      have hproper : isProperTemplate surrogateDrive.descriptor.pathTemplate = true :=
        isProper_readOperation .getDrive
      rw [interpolatePath_eq hproper]
      · rfl
      · decide
    rw [Gated, if_pos hdrive, buildTarget, hpath] at hgate
    exact hgate
  refine ⟨by decide, hdrive, htarget, ?_, hfilter, ?_, by decide, by decide, ?_⟩
  · rw [htarget]
    exact Bool.false_ne_true
  · rw [ReadCall.target_faithful_iff]
    intro hwell
    have hid := (hwell hfilter).2 (js "vehicle_id", surrogateId) (by decide)
    cases hid
  · rw [WriteCall.target_faithful_iff _ _ _ (by decide)]
    intro h
    cases h.2

end TeslatlasClient
