import TeslatlasSdk.Http.Headers
import TeslatlasSdk.Http.Runtime

/-!
# `FetchTransport.request`

A request waits for the caller's authorization, which races the signal, and is dispatched in the
same breath as its last check.  Targets are built by the SDK from fixed templates, so that the
checks of the target and of reserved headers pass.
-/

open Text Core

namespace Http

section Requests

variable {σ α Credential : Type}

/-- `authorization` is what the provider does, if there is one. -/
def waitForAuthorization (signal : σ → AbortState)
    (authorization : Option (HttpAsync σ α Credential (Option JsString))) :
    HttpAsync σ α Credential (Option JsString) := do
  throwIfAborted signal
  match authorization with
  | none =>
      tick
      return none
  | some value => awaited value

def requireAuthorizationValue : Option JsString → Except Thrown Unit
  | none => .ok ()
  | some value =>
      if value.isEmpty || containsControlCharacters value then
        .error (.teslatlas .invalidAuthorizationValue)
      else .ok ()

/-- `dispatch` hands the request with its `Authorization` header to fetch. -/
def request (signal : σ → AbortState)
    (authorization : Option (HttpAsync σ α Credential (Option JsString)))
    (onDispatch : HttpAsync σ α Credential Unit)
    (dispatch : Option JsString → HttpAsync σ α Credential Unit) :
    HttpAsync σ α Credential Response := do
  try
    throwIfAborted signal
    let value ← awaited (waitForAuthorization signal authorization)
    Async.ofExcept (requireAuthorizationValue value)
    let header ← Async.ofExcept (value.mapM headerValue)
    throwIfAborted signal
    onDispatch
    dispatch header
    awaitResponse .fetch
  catch error =>
    if error.isTeslatlasError then throw error
    else
      match signal (← Async.get) with
      | some reason => throw (reasonOr error reason)
      | none =>
          if error.isAbortError then throw error
          else throw (.teslatlas .transport)

end Requests

end Http
