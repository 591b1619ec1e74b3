import TeslatlasSdk.Hub.Session
import TeslatlasSdk.Core.Checks
import TeslatlasSdk.Core.OpaqueValues
import TeslatlasSdk.Json.Quote
import TeslatlasSdk.Text.UriComponent

/-!
# The checks of a hub client

What a hub client is made from, and what it asks of its arguments, of credentials and claims, and of
responses.
-/

open Text Core Http

namespace Hub

/-! ## Configuration -/

/-- `decodeHubJson`, by its validator. -/
structure HubDecoders where
  discovery : JsString → Except Thrown HubDiscovery
  health : JsString → Except Thrown Json.Value
  readiness : JsString → Except Thrown Json.Value
  vehicles : JsString → Except Thrown Json.Value
  current : JsString → Except Thrown HubCurrent
  drives : JsString → Except Thrown HubDrives
  claim : JsString → Except Thrown HubClaim
  /-- The code of an error. -/
  error : JsString → Except Thrown JsString

/-- A URL, as the platform parses it. -/
structure HubUrl where
  protocol : JsString
  username : JsString
  password : JsString
  hostname : JsString
  origin : JsString
  pathname : JsString
  search : JsString
  hash : JsString
  searchParams : List (JsString × JsString)
  deriving DecidableEq, Repr

structure HubConfig where
  expectedHubId : JsString
  /-- `new URL`. -/
  parseUrl : JsString → Option HubUrl
  endpoint : HubUrl
  /-- Whether there is a claim transport. -/
  claimTransport : Bool
  decoders : HubDecoders
  /-- The generated `validateHubInvitation`. -/
  validHubInvitation : HubInvitation → Bool

/-! ## Checks of values -/

def validationError (validatorName : String) : Thrown :=
  .teslatlas (.protocolValidation validatorName)

def isLowerHex (u : CodeUnit) : Bool := isDigit u || (0x61 ≤ u && u ≤ 0x66)

/-- `uuidPattern.test`. -/
def isUuid (value : JsString) : Bool :=
  value.length = 36 && value.zipIdx.all fun (u, k) =>
    if k = 8 ∨ k = 13 ∨ k = 18 ∨ k = 23 then u = 0x2D else isLowerHex u

/-- `tokenPattern.test`. -/
def isToken (value : JsString) : Bool := value.length = 64 && value.all isLowerHex

def validateUuid (value : JsString) (name : String) : Except Thrown Unit :=
  if isUuid value then .ok () else .error (validationError name)

/-- Whether a number is a safe integer and a time to come. -/
def isUnexpired (expiresAtMs : JsNumber) (now : Int) : Bool :=
  match expiresAtMs.safeInteger? with
  | some expires => now < expires
  | none => false

def validateCredential (now : Int) (value : HubCredential) : Except Thrown Unit :=
  if !isToken value.accessToken || !isUuid value.deviceId || value.expiresAtMs.safeInteger?.isNone
  then .error (validationError "HubCredential")
  else if !isUnexpired value.expiresAtMs now then .error (validationError "HubCredential.expiry")
  else .ok ()

/-- `/^127(?:\.[0-9]{1,3}){3}$/u.test`. -/
def isLoopbackAddress (hostname : JsString) : Bool :=
  match hostname.splitOn 0x2E with
  | [first, second, third, fourth] =>
      first = js "127" && [second, third, fourth].all fun part =>
        1 ≤ part.length && part.length ≤ 3 && part.all isDigit
  | _ => false

def isLoopback (hostname : JsString) : Bool :=
  hostname = js "localhost" || hostname = js "[::1]" || isLoopbackAddress hostname

def parseEndpoint (parseUrl : JsString → Option HubUrl) (value : JsString) :
    Except Thrown HubUrl :=
  match parseUrl value with
  | none => .error (validationError "endpoint")
  | some url =>
      if (url.protocol ≠ js "https:" && !(url.protocol = js "http:" && isLoopback url.hostname)) ||
          !url.username.isEmpty || !url.password.isEmpty || url.pathname ≠ js "/" ||
          !url.search.isEmpty || !url.hash.isEmpty then
        .error (validationError "endpoint")
      else .ok url

/-- `url.searchParams.get(key)`. -/
def HubUrl.param? (url : HubUrl) (key : JsString) : Option JsString :=
  (url.searchParams.find? (·.1 = key)).map (·.2)

def validateInvitation (config : HubConfig) (now : Int) (invitation : HubInvitation) :
    Except Thrown Unit := do
  rejectIf (!config.validHubInvitation invitation) (validationError "HubInvitation")
  rejectIf (!isUnexpired invitation.expiresAtMs now) (validationError "HubInvitation.expiry")
  let invitationEndpoint ← parseEndpoint config.parseUrl invitation.endpoint
  rejectIf (invitationEndpoint.origin ≠ config.endpoint.origin)
    (validationError "HubInvitation.endpoint")
  match config.parseUrl invitation.pairingUri with
  | none => .error (validationError "HubInvitation.pairingUri")
  | some pairingUri =>
      let expected := [(js "endpoint", invitation.endpoint),
        (js "pairing_id", invitation.pairingId), (js "secret", invitation.secret),
        (js "tls_pin", invitation.tlsPin)]
      rejectIf (pairingUri.protocol ≠ js "teslatlas-hub:" || pairingUri.hostname ≠ js "pair" ||
          pairingUri.searchParams.length ≠ expected.length ||
          expected.any fun (key, value) => pairingUri.param? key ≠ some value)
        (validationError "HubInvitation.pairingUri")

def requireUnexpiredClaim (now : Int) (claim : HubClaim) : Except Thrown Unit :=
  if isUnexpired claim.expiresAtMs now then .ok () else .error (validationError "HubClaim.expiry")

def maximumHubEntityTagLength : Nat := 65536

/-- `asHubEntityTag`. -/
def isHubEntityTag (value : JsString) : Bool :=
  value.length ≤ maximumHubEntityTagLength && isStrongEntityTag value

def responseMetadata (response : Response) (requireEtag : Bool) :
    Except Thrown HubResponseMetadata := do
  rejectIf (requireEtag && !response.entityTag.any isStrongEntityTag)
    (validationError "HubResponse.etag")
  let requestId ← response.requestId.mapM fun value =>
    (asSafeRequestId value).mapError Thrown.teslatlas
  rejectIf (requireEtag && !response.entityTag.any isHubEntityTag)
    (validationError "HubResponse.etag")
  return { status := response.status, etag := response.entityTag, requestId }

def requireNoStore (response : Response) : Except Thrown Unit :=
  if response.cacheControl = some (js "no-store") then .ok ()
  else .error (validationError "HubDrives.cacheControl")

def requireJsonContentType (response : Response) (validatorName : String) : Except Thrown Unit :=
  requireMediaType response (js "application/json") validatorName

def requireTextContentType (response : Response) (validatorName : String) : Except Thrown Unit :=
  requireMediaType response (js "text/plain") validatorName

def isClaimExtractorStatus (status : Nat) : Bool := status = 400 || status = 415 || status = 422

def statusForHubError (code : JsString) : Except Thrown Nat :=
  if code ∈ [js "invalid_query", js "invalid_time_range", js "invalid_limit", js "invalid_cursor"]
  then .ok 400
  else if code = js "vehicle_not_found" then .ok 404
  else if code = js "service_unavailable" then .ok 503
  else .error (validationError "HubError.code")

/-! ## Checks of drives -/

def requireIfNoneMatch : Option JsString → Except Thrown Unit
  | none => .ok ()
  | some value =>
      if isHubEntityTag value then .ok () else .error (.teslatlas .invalidStrongEntityTag)

/-- `appendInteger`. -/
def requireInteger (name : String) : Option JsNumber → Except Thrown Unit
  | none => .ok ()
  | some value =>
      if value.safeInteger?.isSome then .ok () else .error (validationError ("HubDrives." ++ name))

def cursorBinding (vehicleId : JsString) (fromMs toMs : Option JsNumber) : JsString :=
  vehicleId ++ 0 :: (fromMs.getD (.integer 0)).text ++
    0 :: (toMs.getD (.integer maximumSafeInteger)).text

/-- `#cursorBindings.get(cursor)`. -/
def Session.cursorBinding? (s : Session) (cursor : JsString) : Option JsString :=
  (s.cursorBindings.find? (·.1 = cursor)).map (·.2)

def requireCursorBinding (s : Session) (cursor : Option JsString) (binding : JsString) :
    Except Thrown Unit :=
  match cursor.bind s.cursorBinding? with
  | none => .ok ()
  | some bound =>
      if bound = binding then .ok () else .error (validationError "HubDrives.cursorBinding")

/-- Whether some drive does not come strictly after the one before it. -/
def misordered : List HubDrive → Bool
  | earlier :: drive :: rest =>
      earlier.startDateMs < drive.startDateMs ||
        (earlier.startDateMs = drive.startDateMs && earlier.id ≤ drive.id) ||
          misordered (drive :: rest)
  | _ => false

def requireDrivesPage (vehicleId : JsString) (options : HubDrivesOptions) (value : HubDrives) :
    Except Thrown Unit :=
  let limit := (options.limit.bind JsNumber.safeInteger?).getD 100
  let fromMs := (options.fromMs.bind JsNumber.safeInteger?).getD 0
  let toMs := (options.toMs.bind JsNumber.safeInteger?).getD maximumSafeInteger
  if value.items.any fun drive => drive.vehicleId ≠ vehicleId then
    .error (.teslatlas .vehicleIdentityMismatch)
  else if value.items.length > limit then .error (validationError "HubDrives.limit")
  else if value.items.any fun drive => drive.startDateMs < fromMs || drive.startDateMs ≥ toMs then
    .error (validationError "HubDrives.timeRange")
  else if misordered value.items then .error (validationError "HubDrives.order")
  else .ok ()

end Hub
