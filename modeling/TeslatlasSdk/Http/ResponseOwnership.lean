import TeslatlasSdk.Http.BoundedText

/-!
# Bodies and who cancels them

A body is read by a reader that is cancelled on the way out, or it is cancelled by the operation
that has the response.  What happens to it is told to the state that the threads share.
-/

open Text Core

namespace Http

section Bodies

variable {σ α Credential β : Type} (host : BodyHost σ α)

def orThrow : Option Thrown → HttpAsync σ α Credential Unit
  | none => return ()
  | some error => throw error

/-- `void reader.cancel().catch(() => undefined)`. -/
def cancelReader : HttpAsync σ α Credential Unit := do
  let thrown := (host.cancellation (← Async.get)).reader
  tell host (.readerCancelled thrown)
  orThrow thrown

/-- `void body.cancel().catch(() => undefined)`. -/
def cancelBody : HttpAsync σ α Credential Unit := do
  let thrown := (host.cancellation (← Async.get)).body
  tell host (.cancelled thrown)
  orThrow thrown

def cancelResponseBody (response : Response) : HttpAsync σ α Credential Unit := do
  if response.body = some false ∧ (host.view (← Async.get)).locked = false then
    let _ ← (cancelBody host).attempt
  else return ()

def withResponseOwnership (response : Response) (consume : HttpAsync σ α Credential β) :
    HttpAsync σ α Credential β := do
  match ← (awaited consume).attempt with
  | .ok value => return value
  | .error error =>
      cancelResponseBody host response
      tick
      throw error

/-! ## Text -/

def readBoundedText (signal : σ → AbortState) (response : Response) (validatorName : String)
    (maximumBytes : Nat) : HttpAsync σ α Credential JsString := do
  if response.body = some false then
    tell host .acquired
    let result ← (readBoundedBody host signal response validatorName maximumBytes).attempt
    match result with
    | .ok _ => tell host .ended
    | .error _ => cancelReader host
    tell host .released
    Async.ofExcept result
  else readBoundedBody host signal response validatorName maximumBytes

/-! ## Empty bodies -/

def awaitRacedChunk (signal : σ → AbortState) : HttpAsync σ α Credential (Option (List UInt8)) := do
  match ← Async.await .racedChunk with
  | .chunk result => Async.ofExcept result
  | _ => throw (abortReason ((signal (← Async.get)).getD .undefined))

/-- The loop of `requireEmptyResponseBody`, with the number of chunks it may still read. -/
def readEmptyChunks (signal : σ → AbortState) (validatorName : String) :
    Nat → HttpAsync σ α Credential Unit
  | 0 => throw (.teslatlas (.protocolValidation validatorName))
  | count + 1 => do
      match ← awaitRacedChunk signal with
      | none => tell host .ended
      | some chunk => do
          tell host (.received chunk)
          if chunk ≠ [] then throw (.teslatlas (.protocolValidation validatorName))
          else readEmptyChunks signal validatorName count

def requireEmptyResponseBody (signal : σ → AbortState) (response : Response)
    (validatorName : String) : HttpAsync σ α Credential Unit := do
  throwIfAborted signal
  match response.body with
  | none => return ()
  | some true => throw lockedBodyError
  | some false => do
      tell host .acquired
      let result ← Async.attempt do
        try
          throwIfAborted signal
          readEmptyChunks host signal validatorName 1024
        catch error => rethrowRead signal validatorName error
      cancelReader host
      Async.ofExcept result

end Bodies

end Http
