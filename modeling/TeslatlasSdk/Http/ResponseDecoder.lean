import TeslatlasSdk.Core.Checks
import TeslatlasSdk.Core.OpaqueValues
import TeslatlasSdk.Core.Version
import TeslatlasSdk.Events.ProtocolSubscription
import TeslatlasSdk.Http.ExactInteger
import TeslatlasSdk.Http.RequestBuilder
import TeslatlasSdk.Http.ResponseOwnership

/-!
# Decoding responses

A response becomes a result or an error.  Its headers are checked, its body is read up to a bound
and judged by a generated validator; any status that is not expected has to carry a problem.
-/

open Text Core Json Events

namespace Http

structure ResponseMetadata where
  status : Nat
  etag : Option JsString
  location : Option JsString
  requestId : Option JsString
  protocolVersion : Option JsString
  deriving DecidableEq, Repr

structure WriteResult where
  value : Value
  metadata : ResponseMetadata

inductive ReadResult where
  | modified (result : WriteResult)
  | notModified (metadata : ResponseMetadata)

structure ResponseMetadataRequirements where
  requireEntityTag : Bool := false
  requireStrongEntityTag : Bool := false
  requireLocation : Bool := false
  acceptedProtocolVersions : Option (List JsString) := none

structure ReadResponseRequirements extends ResponseMetadataRequirements where
  ifNoneMatch : Option JsString := none

structure WriteResponseRequirements extends ResponseMetadataRequirements where
  successStatus : Nat

/-! ## Headers -/

/-- `protocolVersionPattern.test(value)`. -/
def isProtocolVersionSyntax (value : JsString) : Bool :=
  let rest := do
    let (_, s) ← matchInteger value
    let s ← matchUnit point s
    let (_, s) ← matchInteger s
    let s ← matchUnit point s
    let (_, s) ← matchInteger s
    return s
  rest = some []

/-- `/%(?![0-9a-f]{2})/iu.test(value)`. -/
def hasBareEscape : JsString → Bool
  | [] => false
  | u :: s =>
      (u = 0x25 && !((s.take 2).length = 2 && (s.take 2).all isHexUnit)) || hasBareEscape s

/-- `asSafeLocation`.  `isSafeAuthority` is what the URL of a value says that names an authority,
behind a slash and a backslash; any other path keeps the origin of the base. -/
def asSafeLocation (isSafeAuthority : JsString → Bool) (value : JsString) :
    Except Thrown JsString :=
  if !isRootRelative value || containsControlCharacters value || value.contains 0x3F ||
      value.contains 0x23 || hasBareEscape value ||
      (value[1]? = some 0x5C && !isSafeAuthority value) then
    .error (protocolValidationError "response.location")
  else .ok value

def acceptsVersion (requirements : ResponseMetadataRequirements) (version : Option JsString) :
    Bool :=
  requirements.acceptedProtocolVersions.all fun accepted => version.any accepted.contains

/-- `readResponseMetadata` without its handler. -/
def checkResponseMetadata (isSafeAuthority : JsString → Bool) (response : Response)
    (validatorName : String) (requirements : ResponseMetadataRequirements) :
    Except Thrown ResponseMetadata := do
  let required := requirements.requireEntityTag || requirements.requireStrongEntityTag
  rejectIf (response.entityTag.isNone && required)
    (protocolValidationError (validatorName ++ ".etag"))
  rejectIf (requirements.requireStrongEntityTag && !response.entityTag.all isStrongEntityTag)
    (protocolValidationError (validatorName ++ ".etag"))
  let etag ← (response.entityTag.mapM asEntityTag).mapError Thrown.teslatlas
  let requestId ← (response.requestId.mapM asSafeRequestId).mapError Thrown.teslatlas
  rejectIf (!response.protocolVersion.all isProtocolVersionSyntax)
    (protocolValidationError (validatorName ++ ".protocolVersion"))
  rejectIf (!acceptsVersion requirements response.protocolVersion)
    (protocolValidationError (validatorName ++ ".protocolVersion"))
  rejectIf (response.location.isNone && requirements.requireLocation)
    (protocolValidationError (validatorName ++ ".location"))
  let location ← response.location.mapM (asSafeLocation isSafeAuthority)
  return { status := response.status, etag, location, requestId,
           protocolVersion := response.protocolVersion }

def readResponseMetadata (isSafeAuthority : JsString → Bool) (response : Response)
    (validatorName : String) (requirements : ResponseMetadataRequirements) :
    Except Thrown ResponseMetadata :=
  match checkResponseMetadata isSafeAuthority response validatorName requirements with
  | .ok metadata => .ok metadata
  | .error error =>
      if error.isProtocolValidationError then .error error
      else .error (protocolValidationError (validatorName ++ ".metadata"))

/-! ## Problems -/

def maximumRetryAfterSeconds : Nat := 86400

/-- `Number(header)`, for a header that is a number up to the maximum. -/
def retryAfterHeader (header : JsString) : Except Thrown Nat :=
  match matchInteger header with
  | some (_, []) =>
      if digitsValue header ≤ maximumRetryAfterSeconds then .ok (digitsValue header)
      else .error (protocolValidationError "validateProblem.retryAfter")
  | _ => .error (protocolValidationError "validateProblem.retryAfter")

def readRetryAfterSeconds (response : Response) (retryable : Bool) (fallback : Option Nat) :
    Except Thrown (Option Nat) :=
  if !retryable then .ok none
  else
    match response.retryAfter with
    | some header => (retryAfterHeader header).map some
    | none => .ok fallback

/-- The fields of a problem that an error carries.  The schema bounds the seconds from below. -/
structure SafeFields where
  code : JsString
  requestId : JsString
  retryable : Bool
  retryAfterSeconds : Option Nat

/-- A property that is left out, or a number with an integer value. -/
def optionalInteger : Option Value → Option (Option Int)
  | none => some none
  | some (.leaf (.number x)) => (integer? x).map some
  | some _ => none

def safeFields (problem : Value) : Except Thrown SafeFields := do
  let code ← property problem (js "code")
  let requestId ← property problem (js "request_id")
  let retryable ← property problem (js "retryable")
  let retryAfterSeconds ← property problem (js "retry_after_seconds")
  match code, requestId, retryable, optionalInteger retryAfterSeconds with
  | some (.leaf (.string code)), some (.leaf (.string requestId)),
      some (.leaf (.boolean retryable)), some seconds =>
      return { code, requestId, retryable, retryAfterSeconds := seconds.map Int.toNat }
  | _, _, _, _ => throw (protocolValidationError "validateProblem.safeFields")

/-- The error of a problem. -/
def protocolHttpError (response : Response) (fields : SafeFields) : Except Thrown Thrown := do
  let retryAfterSeconds ←
    readRetryAfterSeconds response fields.retryable fields.retryAfterSeconds
  let code ← (asProtocolErrorCode fields.code).mapError Thrown.teslatlas
  let requestId ← (asSafeRequestId fields.requestId).mapError Thrown.teslatlas
  return .teslatlas (.protocolHttp
    { code, status := response.status, requestId := some requestId,
      retryable := fields.retryable, retryAfterSeconds })

/-- What a problem is thrown as. -/
def problemError (response : Response) (problem : Value) : Except Thrown Thrown := do
  match ← property problem (js "status") with
  | some (.leaf (.number status)) =>
      if integer? status ≠ some (response.status : Int) then
        throw (protocolValidationError "validateProblem.status")
  | _ => throw (protocolValidationError "validateProblem.status")
  let fields ← safeFields problem
  match protocolHttpError response fields with
  | .ok error => return error
  | .error _ => throw (protocolValidationError "validateProblem.safeFields")

/-! ## Bodies -/

section Decoding

variable {σ α Credential β : Type} (host : BodyHost σ α) (signal : σ → AbortState)

def maximumJsonResponseBytes : Nat := 16777216

def readBoundedJson (response : Response) (validatorName : String) :
    HttpAsync σ α Credential (Value × NumericLexemes) := do
  let body ← awaited (readBoundedText host signal response validatorName maximumJsonResponseBytes)
  match parseProtocolJson body validatorName with
  | .ok parsed => return parsed
  | .error _ => throw (protocolValidationError validatorName)

def readJson (response : Response) (validatorName : String) :
    HttpAsync σ α Credential (Value × NumericLexemes) := do
  try
    awaited (readBoundedJson host signal response validatorName)
  catch error => rethrowRead signal validatorName error

/-- A validated body. -/
def decodeBody (response : Response) (validator : ProtocolValidator) (validatorName : String) :
    HttpAsync σ α Credential Value := do
  let (rawValue, lexemes) ← awaited (readJson host signal response validatorName)
  Async.ofExcept (decodeProtocolValue rawValue lexemes validator validatorName)

/-! ## Responses -/

/-- What the decoder of responses is given from outside: the generated validator of problems, and
what the URL constructor says of locations that name an authority. -/
structure DecoderHost where
  validateProblem : ProtocolValidator
  isSafeAuthority : JsString → Bool

variable (decoder : DecoderHost)

def decodeProtocolProblemResponse (response : Response) : HttpAsync σ α Credential β :=
  withResponseOwnership host response do
    Async.ofExcept (requireMediaType response (js "application/problem+json") "validateProblem")
    let problem ← decodeBody host signal response decoder.validateProblem "validateProblem"
    let error ← Async.ofExcept (problemError response problem)
    throw error

def decodeJsonSuccess (response : Response) (validator : ProtocolValidator)
    (validatorName : String) (requirements : ResponseMetadataRequirements) :
    HttpAsync σ α Credential WriteResult :=
  withResponseOwnership host response do
    throwIfAborted signal
    Async.ofExcept (requireMediaType response (js "application/json") validatorName)
    let metadata ← Async.ofExcept
      (readResponseMetadata decoder.isSafeAuthority response validatorName requirements)
    let value ← decodeBody host signal response validator validatorName
    throwIfAborted signal
    return { value, metadata }

/-- `tag.replace(/^W\//u, "")`. -/
def opaqueTag (tag : JsString) : JsString := if js "W/" <+: tag then tag.drop 2 else tag

/-- The weak comparison of a response's tag with that of the request. -/
def matchesCondition (ifNoneMatch etag : Option JsString) : Bool :=
  match ifNoneMatch, etag with
  | some condition, some tag => opaqueTag condition = opaqueTag tag
  | _, _ => false

def decodeNotModified (response : Response) (validatorName : String)
    (requirements : ReadResponseRequirements) : HttpAsync σ α Credential ReadResult :=
  withResponseOwnership host response do
    awaited (requireEmptyResponseBody host signal response (validatorName ++ ".304"))
    let metadata ← Async.ofExcept (readResponseMetadata decoder.isSafeAuthority response
      validatorName { requirements.toResponseMetadataRequirements with requireEntityTag := true })
    if !matchesCondition requirements.ifNoneMatch metadata.etag then
      throw (protocolValidationError (validatorName ++ ".304.etag"))
    else
      throwIfAborted signal
      return .notModified metadata

def decodeReadResponse (response : Response) (validator : ProtocolValidator)
    (validatorName : String) (requirements : ReadResponseRequirements) :
    HttpAsync σ α Credential ReadResult := do
  if response.status = 304 then
    awaited (decodeNotModified host signal decoder response validatorName requirements)
  else if response.status = 200 then
    let result ← awaited (decodeJsonSuccess host signal decoder response validator validatorName
      { requirements.toResponseMetadataRequirements with requireEntityTag := true })
    return .modified result
  else awaited (decodeProtocolProblemResponse host signal decoder response)

def decodeWriteResponse (response : Response) (validator : ProtocolValidator)
    (validatorName : String) (requirements : WriteResponseRequirements) :
    HttpAsync σ α Credential WriteResult := do
  if response.status = requirements.successStatus then
    awaited (decodeJsonSuccess host signal decoder response validator validatorName
      requirements.toResponseMetadataRequirements)
  else awaited (decodeProtocolProblemResponse host signal decoder response)

end Decoding

end Http
