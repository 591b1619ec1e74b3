import TeslatlasSdk.Http.BodyBuffer

/-!
# The program of a bounded body

The thread that reads a body chunk by chunk settles as the loop over the buffer does.
-/

open Text Core

namespace Http

section

variable {σ α Credential : Type} {record : σ → α → σ} {host : BodyHost σ α}
  {signal : σ → AbortState} {validatorName : String} {maximumBytes : Nat}

/-- A settled read, and the state when the thread goes on. -/
abbrev ReadEvent (σ : Type) := Except Thrown (Option (List UInt8)) × σ

def ReadEvent.read (signal : σ → AbortState) (e : ReadEvent σ) : BodyRead := ⟨e.1, signal e.2⟩

def ReadEvent.answer (e : ReadEvent σ) : Answer Credential × σ := (.chunk e.1, e.2)

/-- The thread goes on with a result. -/
def GoesOn {β : Type} (record : σ → α → σ) (program : Program σ α Awaited (Answer Credential)) (s : σ)
    (answers : List (Answer Credential × σ))
    (k : Except Thrown β → Program σ α Awaited (Answer Credential)) (r : Except Thrown β) : Prop :=
  ∃ s' later, program.feed record s answers = (k r).feed record s' later

/-- The `catch` clause, as the rest of a thread. -/
def catchBody (signal : σ → AbortState) (validatorName : String)
    (k : Except Thrown JsString → Program σ α Awaited (Answer Credential)) :
    Except Thrown (List UInt8) → Program σ α Awaited (Answer Credential)
  | .ok body => k (.ok (decodeText body))
  | .error error => .get fun s => k (.error (BodyBuffer.caught validatorName (signal s) error))

theorem throwIfAborted_none {k : Except Thrown Unit → Program σ α Awaited (Answer Credential)}
    {s : σ} (h : signal s = none) (answers : List (Answer Credential × σ)) :
    (throwIfAborted signal k).feed record s answers = (k (.ok ())).feed record s answers := by
  unfold throwIfAborted
  simp only [bind, Async.get, Program.feed, h]
  rfl

theorem throwIfAborted_some {k : Except Thrown Unit → Program σ α Awaited (Answer Credential)}
    {s : σ} {reason : Thrown} (h : signal s = some reason)
    (answers : List (Answer Credential × σ)) :
    (throwIfAborted signal k).feed record s answers =
      (k (.error (abortReason reason))).feed record s answers := by
  unfold throwIfAborted
  simp only [bind, Async.get, Program.feed, h]
  rfl

theorem readChunks_feed {k : Except Thrown JsString → Program σ α Awaited (Answer Credential)}
    {b : BodyBuffer} {chunks : List (List UInt8)} (h : Holding maximumBytes b chunks)
    (hadmitted : Admitted maximumBytes chunks) {events : List (ReadEvent σ)} {s : σ}
    {r : Except Thrown JsString}
    (hread : b.readOn validatorName maximumBytes (events.map (ReadEvent.read signal)) = some r) :
    GoesOn record (readChunks host signal validatorName maximumBytes chunks.flatten b.emptyChunks
      (catchBody signal validatorName k)) s (events.map ReadEvent.answer) k r := by
  induction events generalizing b chunks s with
  | nil => cases hread
  | cons e events ih =>
    obtain ⟨result, s'⟩ := e
    rw [List.map_cons, BodyBuffer.readOn] at hread
    rw [readChunks]
    cases result with
    | error error =>
      obtain rfl := Option.some.inj hread
      exact ⟨s', events.map ReadEvent.answer, rfl⟩
    | ok result =>
      simp only [ReadEvent.read] at hread
      cases hsignal : signal s' with
      | some reason =>
        rw [hsignal] at hread
        obtain rfl := Option.some.inj hread
        refine ⟨s', events.map ReadEvent.answer, ?_⟩
        refine (throwIfAborted_some hsignal _).trans ?_
        rw [← hsignal]
        rfl
      | none =>
        rw [hsignal] at hread
        cases result with
        | none =>
          obtain rfl := Option.some.inj hread
          refine ⟨s', events.map ReadEvent.answer, (throwIfAborted_none hsignal _).trans ?_⟩
          rw [h.bytes]
          rfl
        | some chunk =>
          simp only at hread
          by_cases hchunk : Admitted maximumBytes (chunks ++ [chunk])
          · obtain ⟨-, hsize, hrun⟩ := (admitted_concat maximumBytes chunks chunk).mp hchunk
            obtain ⟨next, hnext, hholding⟩ := @Holding.append validatorName _ _ _ h chunk hchunk
            rw [hnext] at hread
            obtain ⟨s'', later, hfeed⟩ :=
              @ih _ _ hholding hchunk (record s' (host.event (.received chunk))) hread
            refine ⟨s'', later, (throwIfAborted_none hsignal _).trans ?_⟩
            have hroom : ¬ chunk.length > maximumBytes - chunks.flatten.length := by omega
            have hfew : ¬ (chunk = [] ∧ b.emptyChunks + 1 > 1024) := by
              rintro ⟨rfl, hmany⟩
              rw [List.length_nil, if_pos rfl, ← h.emptyRun] at hrun
              omega
            simp only
            rw [dif_neg hroom, dif_neg hfew]
            have hempty : (if chunk = [] then b.emptyChunks + 1 else 0) = next.emptyChunks := by
              rw [hholding.emptyRun, emptyRun_concat, h.emptyRun]
              simp only [List.length_eq_zero_iff]
            rw [hempty, ← List.flatten_concat]
            exact hfeed
          · rw [h.append_error hadmitted hchunk] at hread
            obtain rfl := Option.some.inj hread
            refine ⟨s', events.map ReadEvent.answer, (throwIfAborted_none hsignal _).trans ?_⟩
            simp only
            rw [admitted_concat, not_and, not_and, ← h.emptyRun] at hchunk
            have hthrow : ((throw (sizeError validatorName) : HttpAsync σ α Credential (List UInt8))
                (catchBody signal validatorName k)).feed record s' (events.map ReadEvent.answer) =
                (k (.error (BodyBuffer.caught validatorName none (sizeError validatorName)))).feed
                  record s' (events.map ReadEvent.answer) := by
              rw [← hsignal]
              rfl
            by_cases hroom : chunk.length > maximumBytes - chunks.flatten.length
            · rw [dif_pos hroom]
              exact hthrow
            · have hsize := hadmitted.size
              have hrun := hchunk hadmitted (by omega)
              have hmany : chunk = [] ∧ b.emptyChunks + 1 > 1024 := by
                split at hrun
                · next hlength => exact ⟨List.eq_nil_of_length_eq_zero hlength, by omega⟩
                · omega
              rw [dif_neg hroom, dif_pos hmany]
              exact hthrow

theorem rethrowRead_eq (error : Thrown)
    (k : Except Thrown JsString → Program σ α Awaited (Answer Credential)) :
    rethrowRead signal validatorName error k = catchBody signal validatorName k (.error error) := by
  refine congrArg Program.get (funext fun s => ?_)
  simp only [BodyBuffer.caught]
  generalize signal s = aborted
  cases aborted with
  | some reason => rfl
  | none =>
    by_cases hvalidation : error.isProtocolValidationError = true
    · simp only [if_pos hvalidation]
      rfl
    · simp only [if_neg hvalidation]
      rfl

-- The body of a response that nobody reads, as a thread.
theorem readBoundedBody_eq {response : Response} (hbody : response.body = some false)
    (k : Except Thrown JsString → Program σ α Awaited (Answer Credential)) :
    readBoundedBody host signal response validatorName maximumBytes k =
      throwIfAborted signal fun
        | .ok _ => readChunks host signal validatorName maximumBytes [] 0
            (catchBody signal validatorName k)
        | .error error => catchBody signal validatorName k (.error error) := by
  rw [readBoundedBody, hbody]
  refine congrArg (throwIfAborted signal) (funext fun checked => ?_)
  cases checked with
  | ok u =>
    refine congrArg (readChunks host signal validatorName maximumBytes [] 0) (funext fun read => ?_)
    cases read with
    | ok body => rfl
    | error error => exact rethrowRead_eq error k
  | error error => exact rethrowRead_eq error k

-- The thread settles with what the loop over the buffer returns or throws.
theorem readBoundedBody_feed {response : Response} {events : List (ReadEvent σ)} {s : σ}
    {r : Except Thrown JsString}
    {k : Except Thrown JsString → Program σ α Awaited (Answer Credential)}
    (hread : BodyBuffer.readText validatorName maximumBytes response.body (signal s)
      (events.map (ReadEvent.read signal)) = some r) :
    GoesOn record (readBoundedBody host signal response validatorName maximumBytes k) s
      (events.map ReadEvent.answer) k r := by
  match hbody : response.body, hsignal : signal s with
  | none, none =>
    rw [hbody, hsignal] at hread
    obtain rfl := Option.some.inj hread
    rw [readBoundedBody, hbody]
    exact ⟨s, events.map ReadEvent.answer, throwIfAborted_none hsignal _⟩
  | none, some reason =>
    rw [hbody, hsignal] at hread
    obtain rfl := Option.some.inj hread
    rw [readBoundedBody, hbody]
    exact ⟨s, events.map ReadEvent.answer, throwIfAborted_some hsignal _⟩
  | some true, aborted =>
    rw [hbody] at hread
    obtain rfl := Option.some.inj hread
    rw [readBoundedBody, hbody]
    exact ⟨s, events.map ReadEvent.answer, rfl⟩
  | some false, none =>
    rw [hbody, hsignal] at hread
    have hfed : GoesOn record (readChunks host signal validatorName maximumBytes [] 0
        (catchBody signal validatorName k)) s (events.map ReadEvent.answer) k r :=
      readChunks_feed (holding_initial maximumBytes) (admitted_nil maximumBytes) hread
    obtain ⟨s', later, hlater⟩ := hfed
    rw [readBoundedBody_eq hbody]
    exact ⟨s', later, (throwIfAborted_none hsignal _).trans hlater⟩
  | some false, some reason =>
    rw [hbody, hsignal] at hread
    obtain rfl := Option.some.inj hread
    rw [readBoundedBody_eq hbody]
    refine ⟨s, events.map ReadEvent.answer, (throwIfAborted_some hsignal _).trans ?_⟩
    rw [← hsignal]
    rfl

end

end Http
