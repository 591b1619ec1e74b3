import TeslatlasSdk.Text.CodeUnits

/-!
# Errors

The SDK's typed errors, one constructor a class, and the values that JavaScript code may throw.
-/

open Text

namespace Core

/-- `ProtocolHttpError`: a problem response as the caller sees it. -/
structure ProtocolHttpError where
  code : JsString
  status : Nat
  requestId : Option JsString
  retryable : Bool
  retryAfterSeconds : Option Nat
  deriving DecidableEq, Repr

/-- `TeslatlasError` and its subclasses. -/
inductive TeslatlasError where
  | protocolValidation (validator : String)
  /-- `SseLimitError`, a `ProtocolValidationError` that ends a stream. -/
  | sseLimit (validator : String)
  | protocolHttp (error : ProtocolHttpError)
  | replayGap (status : Nat) (requestId : Option JsString)
  | transport
  | sseHttp (status : Nat)
  | sseContentType
  | sseBody
  | invalidSseCheckpoint
  | invalidSseProtocolVersion
  | invalidSseRetryConfiguration
  | invalidSafeRequestId
  | missingCapability
  | invalidRequestBody
  | invalidRequestPath
  | invalidReadOptions
  | invalidStreamEventsOptions
  | unsupportedStreamEventType
  | invalidIdempotencyKey
  | invalidAuthorizationValue
  | commandUncertain
  | hubIdentityMismatch
  | vehicleIdentityMismatch
  | unsupportedHubMethod (capability : JsString)
  | hubHttp (status : Nat) (code : JsString)
  | hubClientDisposed
  | hubTlsPinUnavailable
  | invalidStrongEntityTag
  | invalidEntityTag
  | invalidProtocolErrorCode
  | invalidProtocolVersion
  | incompatibleProtocol
  | invalidBaseUrl
  deriving DecidableEq, Repr

/-- A thrown value, or the reason of an abort.  Values the SDK does not look into have an identity
and nothing else. -/
inductive Thrown where
  | undefined
  | null
  | teslatlas (error : TeslatlasError)
  /-- `SseStreamReadError`, which is not a `TeslatlasError`. -/
  | sseStreamRead
  /-- A `DOMException` named `AbortError`. -/
  | abortError (identity : Nat)
  | other (identity : Nat)
  deriving DecidableEq, Repr

/-- `new DOMException("Aborted", "AbortError")`. -/
def newAbortError : Thrown := .abortError 0

/-- `signal.reason ?? new DOMException("Aborted", "AbortError")`. -/
def abortReason : Thrown → Thrown
  | .undefined => newAbortError
  | .null => newAbortError
  | reason => reason

/-- `signal.reason ?? error`. -/
def reasonOr (error : Thrown) : Thrown → Thrown
  | .undefined => error
  | .null => error
  | reason => reason

/-- `error instanceof TeslatlasError`. -/
def Thrown.isTeslatlasError : Thrown → Bool
  | .teslatlas _ => true
  | _ => false

/-- `error instanceof ProtocolValidationError`. -/
def Thrown.isProtocolValidationError : Thrown → Bool
  | .teslatlas (.protocolValidation _) => true
  | .teslatlas (.sseLimit _) => true
  | _ => false

/-- `isAbortError`. -/
def Thrown.isAbortError : Thrown → Bool
  | .abortError _ => true
  | _ => false

/-- The reason of an aborted signal; `none` while it is not aborted or there is no signal. -/
abbrev AbortState := Option Thrown

/-- `containsControlCharacters`. -/
def containsControlCharacters (value : JsString) : Bool :=
  value.any fun u => u ≤ 31 || u = 127

end Core
