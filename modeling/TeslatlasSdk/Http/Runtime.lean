import TeslatlasSdk.Core.Errors
import TeslatlasSdk.Core.Program
import TeslatlasSdk.Text.MediaType

/-!
# What the code awaits

The awaits of the HTTP layer and of the clients above it, and the answers they get.  Where the host
answers, it may answer anything of the right kind, at any time.
-/

open Text Core

namespace Http

/-- The parts of a `Response` that the SDK reads. -/
structure Response where
  status : Nat
  contentType : Option JsString := none
  entityTag : Option JsString := none
  requestId : Option JsString := none
  cacheControl : Option JsString := none
  protocolVersion : Option JsString := none
  location : Option JsString := none
  retryAfter : Option JsString := none
  /-- `none` for a null body, else whether the body is locked. -/
  body : Option Bool := some false
  deriving DecidableEq, Repr

inductive Awaited where
  /-- A promise that is settled already. -/
  | tick
  /-- The race of the caller's authorization and the signal. -/
  | authorization
  | fetch
  /-- `reader.read()`. -/
  | chunk
  /-- The race of `reader.read()` and the signal. -/
  | racedChunk
  | claimTransport
  | credentialLoad
  /-- The shared discovery of a thread, for a waiter. -/
  | discovery (thread waiter : Nat)
  /-- The credential mutation in front of that of a thread. -/
  | turn (thread : Nat)
  /-- The store's answer to `save` or `clear`. -/
  | mutation
  deriving DecidableEq, Repr

/-- Answers, over the credentials of a store. -/
inductive Answer (Credential : Type) where
  | tick
  /-- The signal's abort has won the race. -/
  | aborted
  | authorization (result : Except Thrown (Option JsString))
  | response (result : Except Thrown Response)
  /-- A chunk, or `none` at the end of the body. -/
  | chunk (result : Except Thrown (Option (List UInt8)))
  | credential (result : Except Thrown (Option Credential))
  | mutation (result : Except Thrown Unit)
  deriving DecidableEq

/-- The answers of the right kind. -/
def Awaited.answeredBy {Credential : Type} : Awaited → Answer Credential → Bool
  | .tick, .tick => true
  | .authorization, .authorization _ => true
  | .authorization, .aborted => true
  | .fetch, .response _ => true
  | .chunk, .chunk _ => true
  | .racedChunk, .chunk _ => true
  | .racedChunk, .aborted => true
  | .claimTransport, .response _ => true
  | .credentialLoad, .credential _ => true
  | .discovery _ _, .tick => true
  | .turn _, .tick => true
  | .mutation, .mutation _ => true
  | _, _ => false

abbrev HttpAsync (σ α Credential β : Type) : Type :=
  Async σ α Awaited (Answer Credential) Thrown β

section Awaits

variable {σ α Credential β : Type}

def tick : HttpAsync σ α Credential Unit := do
  let _ ← Async.await .tick

/-- `await` on the promise of an async function: its result arrives later. -/
def awaited (t : HttpAsync σ α Credential β) : HttpAsync σ α Credential β := do
  let result ← t.attempt
  tick
  Async.ofExcept result

/-- `throwIfAborted(signal)`. -/
def throwIfAborted (signal : σ → AbortState) : HttpAsync σ α Credential Unit := do
  match signal (← Async.get) with
  | some reason => throw (abortReason reason)
  | none => return ()

/-- `await` on a response. -/
def awaitResponse (request : Awaited) : HttpAsync σ α Credential Response := do
  match ← Async.await request with
  | .response result => Async.ofExcept result
  | _ => throw .undefined

end Awaits

/-- `requireMediaType`, `requireJsonContentType` and `requireTextContentType`. -/
def requireMediaType (response : Response) (expected : JsString) (validatorName : String) :
    Except Thrown Unit :=
  if response.contentType.map mediaType = some expected then .ok ()
  else .error (.teslatlas (.protocolValidation (validatorName ++ ".contentType")))

end Http
