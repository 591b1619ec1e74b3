import TeslatlasSdk.Http.Runtime
import TeslatlasSdk.Text.Utf8Decoder

/-!
# Reading bodies

A body is read chunk by chunk, up to a number of bytes and a number of empty chunks in a row.  What
happens to it is told to the state that the threads share.
-/

open Text Core

namespace Http

/-! ## Bodies -/

inductive BodyEvent where
  | acquired
  /-- A chunk has been read, and is not too large. -/
  | received (chunk : List UInt8)
  /-- The body has been read to its end. -/
  | ended
  /-- `reader.cancel()`, with what it throws at once, if it does. -/
  | readerCancelled (thrown : Option Thrown)
  | released
  /-- `body.cancel()`. -/
  | cancelled (thrown : Option Thrown)
  deriving DecidableEq, Repr

/-- What has become of the body of a response. -/
structure BodyView where
  locked : Bool := false
  received : List (List UInt8) := []
  ended : Bool := false
  /-- A cancellation has been started. -/
  cancelled : Bool := false
  deriving DecidableEq, Repr

def BodyView.record (view : BodyView) : BodyEvent → BodyView
  | .acquired => { view with locked := true }
  | .received chunk =>
      if view.ended then view else { view with received := view.received ++ [chunk] }
  | .ended => { view with ended := true }
  | .readerCancelled _ => { view with cancelled := true }
  | .released => { view with locked := false }
  | .cancelled _ => { view with cancelled := true }

/-- What `cancel()` throws at once, if it does; its promise is not waited for. -/
structure Cancellation where
  reader : Option Thrown := none
  body : Option Thrown := none
  deriving DecidableEq, Repr

/-- The body of a thread's response, in a state. -/
structure BodyHost (σ α : Type) where
  event : BodyEvent → α
  view : σ → BodyView
  cancellation : σ → Cancellation

/-! ## Text -/

/-- `new TextDecoder().decode(body)`, which strips one leading byte order mark. -/
def decodeText (body : List UInt8) : JsString :=
  match decodeUtf8 body with
  | [] => []
  | c :: rest => if c.toNat = 0xFEFF then ofScalars rest else ofScalars (c :: rest)

def sizeError (validatorName : String) : Thrown :=
  .teslatlas (.protocolValidation (validatorName ++ ".size"))

section Reading

variable {σ α Credential β : Type} (host : BodyHost σ α)

def tell (event : BodyEvent) : HttpAsync σ α Credential Unit := Async.perform (host.event event)

def awaitChunk : HttpAsync σ α Credential (Option (List UInt8)) := do
  match ← Async.await .chunk with
  | .chunk result => Async.ofExcept result
  | _ => throw .undefined

/-- The loop of `readBoundedText`, with what it has read and the empty chunks just seen. -/
def readChunks (signal : σ → AbortState) (validatorName : String) (maximumBytes : Nat)
    (body : List UInt8) (emptyChunks : Nat) : HttpAsync σ α Credential (List UInt8) := do
  let result ← awaitChunk
  throwIfAborted signal
  match result with
  | none => return body
  | some chunk =>
      if hsize : chunk.length > maximumBytes - body.length then throw (sizeError validatorName)
      else if hempty : chunk = [] ∧ emptyChunks + 1 > 1024 then throw (sizeError validatorName)
      else do
        tell host (.received chunk)
        readChunks signal validatorName maximumBytes (body ++ chunk)
          (if chunk = [] then emptyChunks + 1 else 0)
termination_by (maximumBytes - body.length, 1025 - emptyChunks)
decreasing_by
  by_cases hchunk : chunk = []
  · subst hchunk
    simp only [true_and] at hempty
    simp only [List.append_nil, dite_true]
    exact Prod.Lex.right _ (by omega)
  · have hpos := List.length_pos_iff.mpr hchunk
    simp only [List.length_append]
    exact Prod.Lex.left _ _ (by omega)

/-- The handler of a read that has failed. -/
def rethrowRead (signal : σ → AbortState) (validatorName : String) (error : Thrown) :
    HttpAsync σ α Credential β := do
  match signal (← Async.get) with
  | some reason => throw (reasonOr error reason)
  | none =>
      if error.isProtocolValidationError then throw error
      else throw (.teslatlas (.protocolValidation validatorName))

/-- The `TypeError` of `getReader()` on a locked body. -/
def lockedBodyError : Thrown := .other 1

/-- `readBoundedText` without its `finally`. -/
def readBoundedBody (signal : σ → AbortState) (response : Response) (validatorName : String)
    (maximumBytes : Nat) : HttpAsync σ α Credential JsString := do
  match response.body with
  | none =>
      throwIfAborted signal
      return []
  | some true => throw lockedBodyError
  | some false =>
      try
        throwIfAborted signal
        let body ← readChunks host signal validatorName maximumBytes [] 0
        pure (decodeText body)
      catch error => rethrowRead signal validatorName error

/-! ## Rounds -/

/-- The loop of `readBoundedText` in at most so many rounds. -/
def readChunksWithin (signal : σ → AbortState) (validatorName : String) (maximumBytes : Nat) :
    (rounds : Nat) → (body : List UInt8) → (emptyChunks : Nat) → HttpAsync σ α Credential (List UInt8)
  | 0, body, _ => return body
  | rounds + 1, body, emptyChunks => do
      let result ← awaitChunk
      throwIfAborted signal
      match result with
      | none => return body
      | some chunk =>
          if chunk.length > maximumBytes - body.length then throw (sizeError validatorName)
          else if chunk = [] ∧ emptyChunks + 1 > 1024 then throw (sizeError validatorName)
          else do
            tell host (.received chunk)
            readChunksWithin signal validatorName maximumBytes rounds (body ++ chunk)
              (if chunk = [] then emptyChunks + 1 else 0)

/-- The rounds that are left at most, with so many bytes and empty chunks to come. -/
def roundsLeft (bytes emptyChunks : Nat) : Nat := bytes * 1026 + emptyChunks

theorem roundsLeft_empty {bytes emptyChunks rounds : Nat} (hfew : emptyChunks < 1025)
    (h : roundsLeft bytes (1025 - emptyChunks) < rounds + 1) :
    roundsLeft bytes (1025 - (emptyChunks + 1)) < rounds :=
  Nat.lt_of_lt_of_le (Nat.add_lt_add_left (Nat.sub_succ_lt_self 1025 emptyChunks hfew) _)
    (Nat.le_of_lt_succ h)

theorem roundsLeft_bytes {bytes fewer emptyChunks rounds : Nat} (hfewer : fewer + 1 ≤ bytes)
    (h : roundsLeft bytes emptyChunks < rounds + 1) : roundsLeft fewer (1025 - 0) < rounds := by
  have hbytes : fewer * 1026 + 1026 ≤ bytes * 1026 := by
    rw [← Nat.succ_mul]
    exact Nat.mul_le_mul_right 1026 hfewer
  have hlt : fewer * 1026 + 1025 < bytes * 1026 :=
    Nat.lt_of_lt_of_le (Nat.add_lt_add_left (Nat.lt_succ_self 1025) _) hbytes
  exact Nat.lt_of_lt_of_le hlt (Nat.le_trans (Nat.le_add_right _ _) (Nat.le_of_lt_succ h))

theorem readChunks_eq_within {signal : σ → AbortState} {validatorName : String} {maximumBytes : Nat}
    (rounds : Nat) (body : List UInt8) (emptyChunks : Nat)
    (h : roundsLeft (maximumBytes - body.length) (1025 - emptyChunks) < rounds) :
    (readChunks host signal validatorName maximumBytes body emptyChunks :
      HttpAsync σ α Credential (List UInt8)) =
      readChunksWithin host signal validatorName maximumBytes rounds body emptyChunks := by
  induction rounds generalizing body emptyChunks with
  | zero => cases h
  | succ rounds ih =>
    rw [readChunks, readChunksWithin]
    refine congrArg (awaitChunk >>= ·) (funext fun result => ?_)
    refine congrArg (throwIfAborted signal >>= ·) (funext fun _ => ?_)
    cases result with
    | none => rfl
    | some chunk =>
      by_cases hsize : chunk.length > maximumBytes - body.length
      · simp only [dif_pos hsize, if_pos hsize]
      · by_cases hempty : chunk = [] ∧ emptyChunks + 1 > 1024
        · simp only [dif_neg hsize, if_neg hsize, dif_pos hempty, if_pos hempty]
        · simp only [dif_neg hsize, if_neg hsize, dif_neg hempty, if_neg hempty]
          refine congrArg (tell host (.received chunk) >>= ·) (funext fun _ => ih _ _ ?_)
          by_cases hchunk : chunk = []
          · rw [hchunk, List.append_nil, if_pos rfl]
            have hfew : emptyChunks < 1025 := Nat.lt_succ_of_le
              (Nat.le_of_succ_le (Nat.not_lt.mp fun hmany => hempty ⟨hchunk, hmany⟩))
            exact roundsLeft_empty hfew h
          · rw [if_neg hchunk, List.length_append]
            have hpos := List.length_pos_iff.mpr hchunk
            exact roundsLeft_bytes (by omega) h

-- The loop from the start of a body.
theorem readChunks_eq {signal : σ → AbortState} {validatorName : String} {maximumBytes : Nat} :
    (readChunks host signal validatorName maximumBytes [] 0 :
      HttpAsync σ α Credential (List UInt8)) =
      readChunksWithin host signal validatorName maximumBytes (roundsLeft maximumBytes 1025 + 1)
        [] 0 :=
  readChunks_eq_within host _ _ _ (Nat.lt_succ_self _)

end Reading

end Http
