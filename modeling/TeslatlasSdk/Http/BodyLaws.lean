import TeslatlasSdk.Core.ProgramLogic
import TeslatlasSdk.Http.FetchTransport
import TeslatlasSdk.Http.ResponseDecoder

/-!
# Rules for bodies

What the readers and decoders of responses do to a body, in any system that keeps a view of it and
lets them wait: a body is read to its end or cancelled on every way out, and a body that is taken
for empty had no bytes.
-/

open Text Core Json Events

namespace Http

/-! ## Views -/

/-- Nobody holds the body without having ended or cancelled it. -/
def BodyView.Guarded (view : BodyView) : Prop :=
  view.locked = true → view.ended = true ∨ view.cancelled = true

/-- The body is absent, has been read to its end, or its cancellation has been started; or it was
locked by other code from the start. -/
def Released (response : Response) (view : BodyView) : Prop :=
  response.body = some false → view.ended = true ∨ view.cancelled = true

/-- The body is absent, or has been read to its end. -/
def WasRead (response : Response) (view : BodyView) : Prop :=
  view.Guarded ∧ (response.body = some false → view.ended = true)

/-- The body has been read to its end, and no chunk of it had a byte. -/
def WasEmpty (response : Response) (view : BodyView) : Prop :=
  response.body = none ∨
    response.body = some false ∧ view.ended = true ∧ ∀ chunk ∈ view.received, chunk = []

/-- The text of a body that has been read. -/
def HasText (response : Response) (view : BodyView) (text : JsString) : Prop :=
  match response.body with
  | none => text = []
  | some true => False
  | some false => view.ended = true ∧ text = decodeText view.received.flatten

-- Nothing more comes of a body that has ended.
theorem HasText.record {response : Response} {view : BodyView} {text : JsString}
    (h : HasText response view text) (event : BodyEvent) :
    HasText response (view.record event) text := by
  unfold HasText at h ⊢
  split
  · next hbody =>
    rw [hbody] at h
    exact h
  · next hbody =>
    rw [hbody] at h
    exact h
  · next hbody =>
    rw [hbody] at h
    obtain ⟨hended, rfl⟩ := h
    cases event with
    | received chunk =>
      have hsame : view.record (.received chunk) = view := if_pos hended
      rw [hsame]
      exact ⟨hended, rfl⟩
    | ended => exact ⟨rfl, rfl⟩
    | acquired | readerCancelled | released | cancelled => exact ⟨hended, rfl⟩

theorem WasRead.released {response : Response} {view : BodyView} (h : WasRead response view) :
    Released response view :=
  fun hbody => .inl (h.2 hbody)

theorem WasEmpty.released {response : Response} {view : BodyView} (h : WasEmpty response view) :
    Released response view := by
  intro hbody
  rcases h with hnone | ⟨-, hended, -⟩
  · rw [hnone] at hbody
    cases hbody
  · exact .inl hended

/-! ## Systems with bodies -/

section Laws

variable {σ α Credential κ : Type} {sys : System σ α Awaited (Answer Credential) κ}

/-- The awaits of a decoder. -/
def Awaited.isBodys : Awaited → Bool
  | .tick => true
  | .chunk => true
  | .racedChunk => true
  | _ => false

/-- Thread `i` of a system may read the body of its response, and nobody else changes the view. -/
structure BodyLaws (L : Logic sys) (host : BodyHost σ α) (i : Nat) : Prop where
  actor : ∀ event, L.actor (host.event event) = i
  permits : ∀ {s}, L.Inv s → ∀ event, L.permits s (host.event event)
  view_record : ∀ {s} event,
    host.view (sys.record s (host.event event)) = (host.view s).record event
  view_keeps : ∀ {s s'}, L.Keeps i s s' → host.view s' = host.view s
  parked : ∀ {s request} next, L.Inv s → request.isBodys = true → L.Parked s i request next

/-- An assertion that neither others nor the events of the body change. -/
structure Frame (L : Logic sys) (host : BodyHost σ α) (i : Nat) (F : σ → Prop) : Prop where
  stable : L.Stable i F
  body : ∀ {s} event, F s → F (sys.record s (host.event event))

variable {L : Logic sys} {host : BodyHost σ α} {i : Nat} {F : σ → Prop} {β : Type}

/-- The assertion holds, and the view is as described. -/
def Viewed (host : BodyHost σ α) (F : σ → Prop) (V : BodyView → Prop) (s : σ) : Prop :=
  F s ∧ V (host.view s)

theorem BodyLaws.stable_viewed (laws : BodyLaws L host i) (hF : Frame L host i F)
    (V : BodyView → Prop) : L.Stable i (Viewed host F V) := by
  rintro s s' hkeeps ⟨hf, hv⟩
  refine ⟨hF.stable s s' hkeeps hf, ?_⟩
  rw [laws.view_keeps hkeeps]
  exact hv

-- What is true of a body whatever more is done to it.
theorem BodyLaws.frame_view (laws : BodyLaws L host i) (V : BodyView → Prop)
    (hV : ∀ {view} event, V view → V (view.record event)) :
    Frame L host i fun s => V (host.view s) where
  stable s s' hkeeps hv := by
    have hv : V (host.view s) := hv
    rw [← laws.view_keeps hkeeps] at hv
    exact hv
  body {s} event hv := by
    have hv : V ((host.view s).record event) := hV event hv
    rw [← laws.view_record] at hv
    exact hv

theorem BodyLaws.tell (laws : BodyLaws L host i) (hF : Frame L host i F) {V W : BodyView → Prop}
    (event : BodyEvent) (h : ∀ view, V view → W (view.record event)) :
    L.Triple i (Viewed host F V) (tell host event : HttpAsync σ α Credential Unit)
      fun r s => r = .ok () ∧ Viewed host F W s := by
  refine .perform (laws.actor event) fun s hinv hs => ⟨laws.permits hinv event, rfl,
    hF.body event hs.1, ?_⟩
  rw [laws.view_record]
  exact h _ hs.2

theorem BodyLaws.tell_bind (laws : BodyLaws L host i) (hF : Frame L host i F)
    {V W : BodyView → Prop} (event : BodyEvent) (h : ∀ view, V view → W (view.record event))
    {f : Unit → HttpAsync σ α Credential β} {R : Except Thrown β → σ → Prop}
    (hf : L.Triple i (Viewed host F W) (f ()) R) :
    L.Triple i (Viewed host F V) (Http.tell host event >>= f) R := by
  refine .bind (laws.tell hF event h) (fun _ => hf.weaken (fun s hs => hs.2) fun _ _ hr => hr) ?_
  rintro e s ⟨herror, -⟩
  cases herror

theorem BodyLaws.quiet_await (laws : BodyLaws L host i) {request : Awaited}
    (h : request.isBodys = true) :
    L.Quiet i (Async.await request : HttpAsync σ α Credential (Answer Credential)) :=
  .await fun _ next hinv => laws.parked next hinv h

theorem BodyLaws.tick_bind (laws : BodyLaws L host i) {A : σ → Prop} (hA : L.Stable i A)
    {f : Unit → HttpAsync σ α Credential β} {R : Except Thrown β → σ → Prop}
    (hf : L.Triple i A (f ()) R) : L.Triple i A (tick >>= f) R :=
  .await_bind (fun _ next hinv => laws.parked next hinv rfl) hA fun _ => hf

-- The result of an async function arrives later, and nothing has changed for it.
theorem BodyLaws.awaited (laws : BodyLaws L host i) {P : σ → Prop}
    {t : HttpAsync σ α Credential β} {Q : Except Thrown β → σ → Prop} (ht : L.Triple i P t Q)
    (hQ : ∀ r, L.Stable i (Q r)) : L.Triple i P (awaited t) Q :=
  .attempt_bind ht fun r => laws.tick_bind (hQ r) (.ofExcept fun _ hs => hs)

/-! ## What only reads and waits -/

section Quiet

variable (signal : σ → AbortState)

theorem quiet_throwIfAborted :
    L.Quiet i (throwIfAborted signal : HttpAsync σ α Credential Unit) := by
  refine .get_bind fun s => ?_
  cases signal s with
  | none => exact .pure ()
  | some reason => exact .throw _

theorem rethrowRead_throws {A : σ → Prop} (validatorName : String) (error : Thrown) :
    L.Triple i A (rethrowRead signal validatorName error : HttpAsync σ α Credential β)
      fun r s => (∃ e, r = .error e) ∧ A s := by
  refine .get_bind fun s hinv hs => ?_
  have hstate : ∀ (e : Thrown) s', s' = s →
      (∃ e', (.error e : Except Thrown β) = .error e') ∧ A s' :=
    fun e s' heq => ⟨⟨e, rfl⟩, heq ▸ hs⟩
  cases signal s with
  | some reason => exact .throw (hstate _)
  | none => exact .ite (fun _ => .throw (hstate _)) fun _ => .throw (hstate _)

theorem BodyLaws.quiet_awaitChunk (laws : BodyLaws L host i) :
    L.Quiet i (awaitChunk : HttpAsync σ α Credential (Option (List UInt8))) := by
  refine .bind (laws.quiet_await rfl) fun answer => ?_
  cases answer with
  | chunk result => exact .ofExcept result
  | tick | aborted | authorization | response | credential | mutation => exact .throw _

theorem BodyLaws.quiet_awaitRacedChunk (laws : BodyLaws L host i) :
    L.Quiet i (awaitRacedChunk signal : HttpAsync σ α Credential (Option (List UInt8))) := by
  have hthrow : L.Quiet i (do throw (abortReason ((signal (← Async.get)).getD .undefined)) :
      HttpAsync σ α Credential (Option (List UInt8))) := .get_bind fun s => .throw _
  refine .bind (laws.quiet_await rfl) fun answer => ?_
  cases answer with
  | chunk result => exact .ofExcept result
  | tick | aborted | authorization | response | credential | mutation => exact hthrow

end Quiet

/-! ## Cancelling -/

theorem BodyLaws.cancelReader (laws : BodyLaws L host i) (hF : Frame L host i F)
    {V W : BodyView → Prop} (h : ∀ view thrown, V view → W (view.record (.readerCancelled thrown))) :
    L.Triple i (Viewed host F V) (cancelReader host : HttpAsync σ α Credential Unit)
      fun _ s => Viewed host F W s := by
  refine .get_bind fun s hinv hs => ?_
  refine .weaken (laws.tell_bind hF (V := V) (W := W) _ (fun view => h view _) ?_)
    (fun s' heq => heq ▸ hs) fun _ _ hr => hr
  cases (host.cancellation s).reader with
  | none => exact .pure fun _ hs => hs
  | some error => exact .throw fun _ hs => hs

theorem BodyLaws.cancelBody (laws : BodyLaws L host i) (hF : Frame L host i F)
    {V W : BodyView → Prop} (h : ∀ view thrown, V view → W (view.record (.cancelled thrown))) :
    L.Triple i (Viewed host F V) (cancelBody host : HttpAsync σ α Credential Unit)
      fun _ s => Viewed host F W s := by
  refine .get_bind fun s hinv hs => ?_
  refine .weaken (laws.tell_bind hF (V := V) (W := W) _ (fun view => h view _) ?_)
    (fun s' heq => heq ▸ hs) fun _ _ hr => hr
  cases (host.cancellation s).body with
  | none => exact .pure fun _ hs => hs
  | some error => exact .throw fun _ hs => hs

-- A body that nobody holds is cancelled; one that is held has been released by its holder.
theorem BodyLaws.cancelResponseBody (laws : BodyLaws L host i) (hF : Frame L host i F)
    (response : Response) :
    L.Triple i (Viewed host F BodyView.Guarded)
      (cancelResponseBody host response : HttpAsync σ α Credential Unit)
      fun r s => r = .ok () ∧ Viewed host F (Released response) s := by
  refine .get_bind fun s hinv hs => ?_
  have hstate : ∀ s', s' = s → Viewed host F BodyView.Guarded s' := fun s' heq => heq ▸ hs
  refine .ite (fun hopen => ?_) fun hclosed => ?_
  · refine .bind (Q := fun r s => (∃ result, r = .ok result) ∧ Viewed host F (Released response) s)
      ?_ (fun _ => .pure fun s hs => ⟨rfl, hs.2⟩) ?_
    · refine .attempt ((laws.cancelBody hF (W := Released response) ?_).weaken hstate
        fun _ _ hr => hr) fun r s hs => ⟨⟨r, rfl⟩, hs⟩
      exact fun view thrown _ _ => .inr rfl
    · rintro e s ⟨⟨result, herror⟩, -⟩
      cases herror
  · refine .pure fun s' heq => ⟨rfl, (hstate s' heq).1, fun hbody => ?_⟩
    subst heq
    refine hs.2 ?_
    by_contra hlocked
    exact hclosed ⟨hbody, by simpa using hlocked⟩

/-- What an operation on a response leaves behind: `R` of a value, and of an error that nobody holds
the body any more. -/
def Guards (host : BodyHost σ α) (F : σ → Prop) (R : β → σ → Prop) (r : Except Thrown β) (s : σ) :
    Prop :=
  match r with
  | .ok value => R value s
  | .error _ => Viewed host F BodyView.Guarded s

/-- The same, where the body is released with an error. -/
def Releases (host : BodyHost σ α) (F : σ → Prop) (response : Response) (R : β → σ → Prop)
    (r : Except Thrown β) (s : σ) : Prop :=
  match r with
  | .ok value => R value s
  | .error _ => Viewed host F (Released response) s

theorem BodyLaws.stable_guards (laws : BodyLaws L host i) (hF : Frame L host i F)
    {R : β → σ → Prop} (hR : ∀ value, L.Stable i (R value)) (r : Except Thrown β) :
    L.Stable i (Guards host F R r) := by
  cases r with
  | ok value => exact hR value
  | error e => exact laws.stable_viewed hF _

theorem BodyLaws.stable_releases (laws : BodyLaws L host i) (hF : Frame L host i F)
    {response : Response} {R : β → σ → Prop} (hR : ∀ value, L.Stable i (R value))
    (r : Except Thrown β) : L.Stable i (Releases host F response R r) := by
  cases r with
  | ok value => exact hR value
  | error e => exact laws.stable_viewed hF _

-- Whoever owns a response cancels its body when the consumer throws.
theorem BodyLaws.withResponseOwnership (laws : BodyLaws L host i) (hF : Frame L host i F)
    {response : Response} {P : σ → Prop} {consume : HttpAsync σ α Credential β}
    {R : β → σ → Prop} (hR : ∀ value, L.Stable i (R value))
    (h : L.Triple i P consume (Guards host F R)) :
    L.Triple i P (withResponseOwnership host response consume) (Releases host F response R) := by
  refine .attempt_bind (laws.awaited h (laws.stable_guards hF hR)) fun result => ?_
  cases result with
  | ok value => exact .pure fun s hs => hs
  | error error =>
    refine .bind (laws.cancelResponseBody hF response) (fun _ => ?_) ?_
    · refine .weaken (W := Viewed host F (Released response)) ?_ (fun s hs => hs.2)
        fun _ _ hr => hr
      exact laws.tick_bind (laws.stable_viewed hF _) (.throw fun s hs => hs)
    · rintro e s ⟨herror, -⟩
      cases herror

/-! ## Readers -/

section Readers

variable (signal : σ → AbortState) {response : Response}

/-- Nothing has been done to the body. -/
def Untouched (view : BodyView) : Prop := view = {}

theorem Untouched.guarded {view : BodyView} (h : Untouched view) : view.Guarded := by
  subst h
  exact nofun

theorem Viewed.mono {V W : BodyView → Prop} (h : ∀ view, V view → W view) {s : σ}
    (hs : Viewed host F V s) : Viewed host F W s :=
  ⟨hs.1, h _ hs.2⟩

-- What only reads and waits, in front of what needs an untouched body.
theorem untouched_bind {γ : Type} (laws : BodyLaws L host i) (hF : Frame L host i F)
    {t : HttpAsync σ α Credential β} (ht : L.Quiet i t) {f : β → HttpAsync σ α Credential γ}
    {R : γ → σ → Prop}
    (hf : ∀ b, L.Triple i (Viewed host F Untouched) (f b) (Guards host F R)) :
    L.Triple i (Viewed host F Untouched) (t >>= f) (Guards host F R) :=
  ht.bind_triple (laws.stable_viewed hF _) hf fun _ _ hs => hs.mono fun _ h => h.guarded

/-- Where a task ends, the view is as its value says. -/
def Reads (host : BodyHost σ α) (F : σ → Prop) (V : β → BodyView → Prop) (r : Except Thrown β)
    (s : σ) : Prop :=
  match r with
  | .ok value => Viewed host F (V value) s
  | .error _ => F s

/-- The body has given these bytes, and has not ended. -/
def Received (bytes : List UInt8) (view : BodyView) : Prop :=
  view.ended = false ∧ view.received.flatten = bytes

theorem Received.append {bytes : List UInt8} {view : BodyView} (h : Received bytes view)
    (chunk : List UInt8) : Received (bytes ++ chunk) (view.record (.received chunk)) := by
  have hrecord : view.record (.received chunk) =
      { view with received := view.received ++ [chunk] } :=
    if_neg (by rw [h.1]; exact Bool.false_ne_true)
  rw [hrecord]
  refine ⟨h.1, ?_⟩
  rw [List.flatten_concat, h.2]

-- The loop returns the bytes of the chunks that it has taken.
theorem BodyLaws.readChunks (laws : BodyLaws L host i) (hF : Frame L host i F)
    (validatorName : String) (maximumBytes : Nat) (body : List UInt8) (emptyChunks : Nat) :
    L.Triple i (Viewed host F (Received body))
      (readChunks host signal validatorName maximumBytes body emptyChunks :
        HttpAsync σ α Credential (List UInt8))
      (Reads host F Received) := by
  induction body, emptyChunks using readChunks.induct maximumBytes with
  | case1 body emptyChunks ih =>
    rw [Http.readChunks]
    have hstable : L.Stable i (Viewed host F (Received body)) := laws.stable_viewed hF _
    refine laws.quiet_awaitChunk.bind_triple hstable (fun result => ?_) fun _ s hs => hs.1
    refine (quiet_throwIfAborted signal).bind_triple hstable (fun _ => ?_) fun _ s hs => hs.1
    cases result with
    | none => exact .pure fun s hs => hs
    | some chunk =>
      by_cases hsize : chunk.length > maximumBytes - body.length
      · simp only [dif_pos hsize]
        exact .throw fun s hs => hs.1
      · by_cases hempty : chunk = [] ∧ emptyChunks + 1 > 1024
        · simp only [dif_neg hsize, dif_pos hempty]
          exact .throw fun s hs => hs.1
        · simp only [dif_neg hsize, dif_neg hempty]
          exact laws.tell_bind hF (.received chunk) (fun view h => h.append chunk)
            (ih chunk hsize hempty)

theorem BodyLaws.readBoundedBody (laws : BodyLaws L host i) (hF : Frame L host i F)
    (hbody : response.body = some false) (validatorName : String) (maximumBytes : Nat) :
    L.Triple i (Viewed host F (Received []))
      (readBoundedBody host signal response validatorName maximumBytes :
        HttpAsync σ α Credential JsString)
      (Reads host F fun text view => ∃ bytes, Received bytes view ∧ text = decodeText bytes) := by
  rw [Http.readBoundedBody, hbody]
  refine .tryCatch (Q := Reads host F fun text view =>
    ∃ bytes, Received bytes view ∧ text = decodeText bytes) ?_ (fun error => ?_) fun _ _ hs => hs
  · refine (quiet_throwIfAborted signal).bind_triple (laws.stable_viewed hF _) (fun _ => ?_)
      fun _ s hs => hs.1
    refine .bind (laws.readChunks signal hF validatorName maximumBytes [] 0) (fun bytes => ?_)
      fun _ s hs => hs
    exact .pure fun s hs => ⟨hs.1, bytes, hs.2, rfl⟩
  · refine (rethrowRead_throws signal validatorName error).weaken (fun s hs => hs) ?_
    rintro r s ⟨⟨e, rfl⟩, hs⟩
    exact hs

-- A body that is null has no text, and one that is locked gives none.
theorem BodyLaws.readClosedBody (laws : BodyLaws L host i) (hF : Frame L host i F)
    (hbody : response.body ≠ some false) (validatorName : String) (maximumBytes : Nat) :
    L.Triple i (Viewed host F Untouched)
      (Http.readBoundedBody host signal response validatorName maximumBytes :
        HttpAsync σ α Credential JsString)
      (Guards host F fun text => Viewed host F fun view =>
        WasRead response view ∧ HasText response view text) := by
  rw [Http.readBoundedBody]
  cases hgiven : response.body with
  | none =>
    refine (quiet_throwIfAborted signal).bind_triple (laws.stable_viewed hF _)
      (fun _ => .pure fun s hs => ?_) fun _ s hs => hs.mono fun _ h => h.guarded
    have htext : HasText response (host.view s) [] := by
      rw [HasText, hgiven]
    exact ⟨hs.1, ⟨hs.2.guarded, fun hfalse => absurd hfalse hbody⟩, htext⟩
  | some locked =>
    cases locked with
    | true => exact .throw fun s hs => hs.mono fun _ h => h.guarded
    | false => exact absurd hgiven hbody

theorem BodyLaws.readBoundedText (laws : BodyLaws L host i) (hF : Frame L host i F)
    (response : Response) (validatorName : String) (maximumBytes : Nat) :
    L.Triple i (Viewed host F Untouched)
      (readBoundedText host signal response validatorName maximumBytes :
        HttpAsync σ α Credential JsString)
      (Guards host F fun text => Viewed host F fun view =>
        WasRead response view ∧ HasText response view text) := by
  rw [Http.readBoundedText]
  refine .ite (fun hbody => ?_) fun hbody =>
    laws.readClosedBody signal hF hbody validatorName maximumBytes
  refine laws.tell_bind hF (W := Received []) .acquired ?_ ?_
  · rintro view rfl
    exact ⟨rfl, rfl⟩
  refine .attempt_bind (laws.readBoundedBody signal hF hbody validatorName maximumBytes)
    fun result => ?_
  cases result with
  | ok text =>
    have htext : ∀ view, view.ended = true ∧ text = decodeText view.received.flatten →
        HasText response view text := by
      intro view h
      rw [HasText, hbody]
      exact h
    refine laws.tell_bind hF
      (V := fun view => ∃ bytes, Received bytes view ∧ text = decodeText bytes)
      (W := fun view => view.ended = true ∧ text = decodeText view.received.flatten) .ended ?_ ?_
    · rintro view ⟨bytes, ⟨-, hbytes⟩, rfl⟩
      exact ⟨rfl, congrArg decodeText hbytes.symm⟩
    refine laws.tell_bind hF
      (W := fun view => WasRead response view ∧ HasText response view text) .released ?_ ?_
    · exact fun view h => ⟨⟨fun _ => .inl h.1, fun _ => h.1⟩, htext _ h⟩
    exact .ofExcept fun s hs => hs
  | error error =>
    have hany : ∀ s, F s → Viewed host F (fun _ => True) s := fun s hs => ⟨hs, trivial⟩
    refine .weaken (W := Viewed host F fun _ => True) ?_ hany fun _ _ hr => hr
    refine .bind (Q := fun _ => Viewed host F fun view => view.cancelled = true)
      (laws.cancelReader hF fun _ _ _ => rfl) (fun _ => ?_) fun e s hs =>
        hs.mono fun _ h _ => .inr h
    refine laws.tell_bind hF (W := BodyView.Guarded) .released (fun _ h _ => .inr h) ?_
    exact .ofExcept fun s hs => hs

theorem BodyLaws.stable_read (laws : BodyLaws L host i) (hF : Frame L host i F)
    (response : Response) (r : Except Thrown β) :
    L.Stable i (Guards host F (fun _ => Viewed host F (WasRead response)) r) :=
  laws.stable_guards hF (fun _ => laws.stable_viewed hF _) r

-- Nothing more is done to a body that has been read.
theorem quiet_of_read (laws : BodyLaws L host i) (hF : Frame L host i F)
    {t : HttpAsync σ α Credential β} (ht : L.Quiet i t) :
    L.Triple i (Viewed host F (WasRead response)) t
      (Guards host F fun _ => Viewed host F (WasRead response)) := by
  refine (ht _ (laws.stable_viewed hF _)).weaken (fun s hs => hs) fun r s hs => ?_
  cases r with
  | ok value => exact hs
  | error e => exact hs.mono fun _ h => h.1

theorem BodyLaws.readBoundedJson (laws : BodyLaws L host i) (hF : Frame L host i F)
    (response : Response) (validatorName : String) :
    L.Triple i (Viewed host F Untouched)
      (readBoundedJson host signal response validatorName :
        HttpAsync σ α Credential (Value × NumericLexemes))
      (Guards host F fun _ => Viewed host F (WasRead response)) := by
  have hread : L.Triple i (Viewed host F Untouched)
      (Http.readBoundedText host signal response validatorName maximumJsonResponseBytes :
        HttpAsync σ α Credential JsString)
      (Guards host F fun _ => Viewed host F (WasRead response)) := by
    refine (laws.readBoundedText signal hF response validatorName _).weaken (fun s hs => hs)
      fun r s hs => ?_
    cases r with
    | ok text => exact ⟨hs.1, hs.2.1⟩
    | error e => exact hs
  refine .bind (laws.awaited hread (laws.stable_read hF response))
    (fun body => quiet_of_read laws hF ?_) fun _ _ hs => hs
  cases parseProtocolJson body validatorName with
  | ok parsed => exact .pure parsed
  | error e => exact .throw _

theorem BodyLaws.readJson (laws : BodyLaws L host i) (hF : Frame L host i F)
    (response : Response) (validatorName : String) :
    L.Triple i (Viewed host F Untouched)
      (readJson host signal response validatorName :
        HttpAsync σ α Credential (Value × NumericLexemes))
      (Guards host F fun _ => Viewed host F (WasRead response)) := by
  refine .tryCatch (laws.awaited (laws.readBoundedJson signal hF response validatorName)
    (laws.stable_read hF response)) (fun error => ?_) fun _ _ hs => hs
  refine (rethrowRead_throws signal validatorName error).weaken (fun s hs => hs) ?_
  rintro r s ⟨⟨e, rfl⟩, hs⟩
  exact hs

theorem BodyLaws.decodeBody (laws : BodyLaws L host i) (hF : Frame L host i F)
    (response : Response) (validator : ProtocolValidator) (validatorName : String) :
    L.Triple i (Viewed host F Untouched)
      (decodeBody host signal response validator validatorName : HttpAsync σ α Credential Value)
      (Guards host F fun _ => Viewed host F (WasRead response)) :=
  .bind (laws.awaited (laws.readJson signal hF response validatorName)
    (laws.stable_read hF response))
    (fun _ => quiet_of_read laws hF (.ofExcept _)) fun _ _ hs => hs

/-! ## Empty bodies -/

/-- The chunks so far had no bytes. -/
def NoBytes (view : BodyView) : Prop := ∀ chunk ∈ view.received, chunk = []

/-- The body has been read and had no bytes. -/
def EndedEmpty (view : BodyView) : Prop := view.ended = true ∧ NoBytes view

theorem NoBytes.append {view : BodyView} (h : NoBytes view) {chunk : List UInt8}
    (hempty : chunk = []) : NoBytes (view.record (.received chunk)) := by
  by_cases hended : view.ended = true
  · have hsame : view.record (.received chunk) = view := if_pos hended
    rw [hsame]
    exact h
  · have hrecord : view.record (.received chunk) =
        { view with received := view.received ++ [chunk] } := if_neg hended
    rw [hrecord]
    intro other hother
    rcases List.mem_append.mp hother with hother | hother
    · exact h other hother
    · rw [List.mem_singleton.mp hother]
      exact hempty

theorem BodyLaws.readEmptyChunks (laws : BodyLaws L host i) (hF : Frame L host i F)
    (validatorName : String) (count : Nat) :
    L.Triple i (Viewed host F NoBytes)
      (readEmptyChunks host signal validatorName count : HttpAsync σ α Credential Unit)
      (Reads host F fun _ => EndedEmpty) := by
  induction count with
  | zero => exact .throw fun s hs => hs.1
  | succ count ih =>
    refine (laws.quiet_awaitRacedChunk signal).bind_triple (laws.stable_viewed hF _)
      (fun result => ?_) fun _ s hs => hs.1
    cases result with
    | none =>
      refine (laws.tell hF (W := EndedEmpty) .ended fun _ h => ⟨rfl, h⟩).weaken (fun s hs => hs) ?_
      rintro r s ⟨rfl, hs⟩
      exact hs
    | some chunk =>
      refine laws.tell_bind hF (W := fun view => chunk = [] → NoBytes view) (.received chunk)
        (fun view h hempty => h.append hempty) ?_
      refine .ite (fun _ => .throw fun s hs => hs.1) fun hempty => ?_
      refine ih.weaken (fun s hs => hs.mono fun _ h => h ?_) fun _ _ hr => hr
      by_contra hne
      exact hempty hne

theorem BodyLaws.requireEmptyResponseBody (laws : BodyLaws L host i) (hF : Frame L host i F)
    (response : Response) (validatorName : String) :
    L.Triple i (Viewed host F Untouched)
      (requireEmptyResponseBody host signal response validatorName :
        HttpAsync σ α Credential Unit)
      (Guards host F fun _ => Viewed host F
        fun view => view.Guarded ∧ WasEmpty response view) := by
  refine untouched_bind laws hF (quiet_throwIfAborted signal) fun _ => ?_
  cases hbody : response.body with
  | none => exact .pure fun s hs => ⟨hs.1, hs.2.guarded, .inl hbody⟩
  | some locked =>
    cases locked with
    | true => exact .throw fun s hs => hs.mono fun _ h => h.guarded
    | false =>
      refine laws.tell_bind hF (W := NoBytes) .acquired ?_ ?_
      · rintro view rfl
        exact nofun
      refine .attempt_bind (Q := Reads host F fun _ => EndedEmpty) ?_ fun result => ?_
      · refine .tryCatch (Q := Reads host F fun _ => EndedEmpty) ?_ (fun error => ?_) fun _ _ hs => hs
        · exact (quiet_throwIfAborted signal).bind_triple (laws.stable_viewed hF _)
            (fun _ => laws.readEmptyChunks signal hF validatorName 1024) fun _ s hs => hs.1
        · refine (rethrowRead_throws signal validatorName error).weaken (fun s hs => hs) ?_
          rintro r s ⟨⟨e, rfl⟩, hs⟩
          exact hs
      · cases result with
        | ok u =>
          refine .weaken (W := Viewed host F EndedEmpty) ?_
            (fun s hs => hs) fun _ _ hr => hr
          exact .bind (Q := fun _ => Viewed host F fun view =>
              view.Guarded ∧ WasEmpty response view)
            (laws.cancelReader hF fun view thrown h => ⟨fun _ => .inr rfl, .inr ⟨hbody, h⟩⟩)
            (fun _ => .ofExcept fun s hs => hs) fun e s hs => hs.mono fun _ h => h.1
        | error e =>
          refine .weaken (W := Viewed host F fun _ => True) ?_ (fun s hs => ⟨hs, trivial⟩)
            fun _ _ hr => hr
          exact .bind (Q := fun _ => Viewed host F BodyView.Guarded)
            (laws.cancelReader hF fun view thrown _ _ => .inr rfl)
            (fun _ => .ofExcept fun s hs => hs) fun _ _ hs => hs

/-! ## Decoders -/

variable (decoder : DecoderHost)

theorem BodyLaws.decodeProtocolProblemResponse (laws : BodyLaws L host i)
    (hF : Frame L host i F) (response : Response) (R : β → σ → Prop)
    (hR : ∀ value, L.Stable i (R value)) :
    L.Triple i (Viewed host F Untouched)
      (decodeProtocolProblemResponse host signal decoder response : HttpAsync σ α Credential β)
      (Releases host F response R) := by
  refine laws.withResponseOwnership hF hR ?_
  refine untouched_bind laws hF (.ofExcept _) fun _ => ?_
  refine .bind (laws.decodeBody signal hF response _ _) (fun problem => ?_) fun _ _ hs => hs
  exact .ofExcept_bind (fun error _ => .throw fun s hs => hs.mono fun _ h => h.1)
    fun _ s _ hs => hs.mono fun _ h => h.1

theorem mapM_checked {check : JsString → Except TeslatlasError JsString}
    (hcheck : ∀ {value checked}, check value = .ok checked → checked = value)
    {value checked : Option JsString}
    (h : (value.mapM check).mapError Thrown.teslatlas = .ok checked) : checked = value := by
  cases value with
  | none => exact (Except.ok.inj h).symm
  | some value =>
    rw [Option.mapM_some] at h
    cases hvalue : check value with
    | error e =>
      rw [hvalue] at h
      cases h
    | ok found =>
      rw [hvalue] at h
      rw [← Except.ok.inj h, hcheck hvalue]

theorem asSafeLocation_ok {isSafeAuthority : JsString → Bool} {value checked : Option JsString}
    (h : value.mapM (asSafeLocation isSafeAuthority) = .ok checked) : checked = value := by
  cases value with
  | none => exact (Except.ok.inj h).symm
  | some value =>
    rw [Option.mapM_some, asSafeLocation] at h
    split at h
    · cases h
    · exact (Except.ok.inj h).symm

theorem asEntityTag_ok {value tag : JsString} (h : asEntityTag value = .ok tag) : tag = value := by
  rw [asEntityTag] at h
  split at h
  · exact (Except.ok.inj h).symm
  · cases h

theorem readResponseMetadata_ok {isSafeAuthority : JsString → Bool} {validatorName : String}
    {requirements : ResponseMetadataRequirements} {metadata : ResponseMetadata}
    (h : readResponseMetadata isSafeAuthority response validatorName requirements =
      .ok metadata) :
    metadata.etag = response.entityTag ∧ metadata.location = response.location ∧
      acceptsVersion requirements response.protocolVersion = true := by
  have hcheck : checkResponseMetadata isSafeAuthority response validatorName requirements =
      .ok metadata := by
    rw [readResponseMetadata] at h
    split at h
    · next hok => rw [hok, Except.ok.inj h]
    · split at h
      · cases h
      · cases h
  simp only [checkResponseMetadata, bind_eq_ok] at hcheck
  obtain ⟨_, -, _, -, etag, hetag, requestId, -, _, -, _, haccepts, _, -, location, hlocation,
    hmetadata⟩ := hcheck
  obtain rfl := Except.ok.inj hmetadata
  exact ⟨mapM_checked asEntityTag_ok hetag, asSafeLocation_ok hlocation,
    by simpa using rejectIf_eq_ok.mp haccepts⟩

/-- The body has been read, and the result has the location of the response. -/
def Succeeded (host : BodyHost σ α) (F : σ → Prop) (response : Response) (result : WriteResult)
    (s : σ) : Prop :=
  result.metadata.location = response.location ∧ Viewed host F (WasRead response) s

theorem BodyLaws.stable_succeeded (laws : BodyLaws L host i) (hF : Frame L host i F)
    (result : WriteResult) : L.Stable i (Succeeded host F response result) :=
  fun s s' hkeeps hs => ⟨hs.1, laws.stable_viewed hF _ s s' hkeeps hs.2⟩

theorem BodyLaws.decodeJsonSuccess (laws : BodyLaws L host i) (hF : Frame L host i F)
    (response : Response) (validator : ProtocolValidator) (validatorName : String)
    (requirements : ResponseMetadataRequirements) :
    L.Triple i (Viewed host F Untouched)
      (decodeJsonSuccess host signal decoder response validator validatorName requirements :
        HttpAsync σ α Credential WriteResult)
      (Releases host F response (Succeeded host F response)) := by
  refine laws.withResponseOwnership hF (laws.stable_succeeded hF) ?_
  refine untouched_bind laws hF (quiet_throwIfAborted signal) fun _ => ?_
  refine untouched_bind laws hF (.ofExcept _) fun _ => ?_
  refine .ofExcept_bind (fun metadata hmetadata => ?_) fun _ s _ hs => hs.mono fun _ h => h.guarded
  obtain ⟨-, hlocation, -⟩ := readResponseMetadata_ok hmetadata
  refine .bind (laws.decodeBody signal hF response _ _) (fun value => ?_) fun _ _ hs => hs
  exact (quiet_throwIfAborted signal).bind_triple
    (P := Viewed host F (WasRead response)) (laws.stable_viewed hF _)
    (fun _ => .pure fun s hs => ⟨hlocation, hs⟩) fun _ s hs => hs.mono fun _ h => h.1

/-- What a response of status 304 has to be for a read that is not modified. -/
structure ConfirmsCondition (response : Response) (requirements : ReadResponseRequirements) :
    Prop where
  condition : matchesCondition requirements.ifNoneMatch response.entityTag = true
  version : acceptsVersion requirements.toResponseMetadataRequirements response.protocolVersion =
    true

theorem BodyLaws.decodeNotModified (laws : BodyLaws L host i) (hF : Frame L host i F)
    (response : Response) (validatorName : String) (requirements : ReadResponseRequirements) :
    L.Triple i (Viewed host F Untouched)
      (decodeNotModified host signal decoder response validatorName requirements :
        HttpAsync σ α Credential ReadResult)
      (Releases host F response fun result s =>
        (∃ metadata, result = .notModified metadata) ∧ ConfirmsCondition response requirements ∧
          Viewed host F (WasEmpty response) s) := by
  have hempty : ∀ {s}, Viewed host F (fun view => view.Guarded ∧ WasEmpty response view) s →
      Viewed host F BodyView.Guarded s :=
    fun hs => hs.mono fun _ h => h.1
  have hstable : L.Stable i (Viewed host F fun view => view.Guarded ∧ WasEmpty response view) :=
    laws.stable_viewed hF _
  refine laws.withResponseOwnership hF (fun result s s' hkeeps hs => ?_) ?_
  · exact ⟨hs.1, hs.2.1, laws.stable_viewed hF _ s s' hkeeps hs.2.2⟩
  refine .bind (laws.awaited (laws.requireEmptyResponseBody signal hF response _)
    (laws.stable_guards hF fun _ => hstable)) (fun _ => ?_) fun _ _ hs => hs
  refine .ofExcept_bind (fun metadata hmetadata => ?_) fun _ s _ hs => hempty hs
  obtain ⟨hetag, -, haccepts⟩ := readResponseMetadata_ok hmetadata
  refine .ite (fun _ => .throw fun s hs => hempty hs) fun hcondition => ?_
  refine (quiet_throwIfAborted signal).bind_triple hstable (fun _ => .pure fun s hs => ?_)
    fun _ s hs => hempty hs
  have hs : Viewed host F (fun view => view.Guarded ∧ WasEmpty response view) s := hs
  rw [hetag] at hcondition
  exact ⟨⟨metadata, rfl⟩, ⟨by simpa using hcondition, haccepts⟩, hs.mono fun _ h => h.2⟩

/-- What a read's result says of the response that it was made from. -/
def ReadSound (host : BodyHost σ α) (F : σ → Prop) (response : Response)
    (requirements : ReadResponseRequirements) : ReadResult → σ → Prop
  | .modified result, s => response.status = 200 ∧ Succeeded host F response result s
  | .notModified _, s =>
      response.status = 304 ∧ ConfirmsCondition response requirements ∧
        Viewed host F (WasEmpty response) s

theorem BodyLaws.stable_readSound (laws : BodyLaws L host i) (hF : Frame L host i F)
    {response : Response} {requirements : ReadResponseRequirements} (result : ReadResult) :
    L.Stable i (ReadSound host F response requirements result) := by
  intro s s' hkeeps hs
  cases result with
  | modified result => exact ⟨hs.1, laws.stable_succeeded hF result s s' hkeeps hs.2⟩
  | notModified metadata => exact ⟨hs.1, hs.2.1, laws.stable_viewed hF _ s s' hkeeps hs.2.2⟩

theorem BodyLaws.decodeReadResponse (laws : BodyLaws L host i) (hF : Frame L host i F)
    (response : Response) (validator : ProtocolValidator) (validatorName : String)
    (requirements : ReadResponseRequirements) :
    L.Triple i (Viewed host F Untouched)
      (decodeReadResponse host signal decoder response validator validatorName requirements :
        HttpAsync σ α Credential ReadResult)
      (Releases host F response (ReadSound host F response requirements)) := by
  have hsound : ∀ result, L.Stable i (ReadSound host F response requirements result) :=
    laws.stable_readSound hF
  refine .ite (fun h304 => ?_) fun h304 => .ite (fun h200 => ?_) fun h200 => ?_
  · refine laws.awaited ((laws.decodeNotModified signal decoder hF response validatorName
      requirements).weaken (fun s hs => hs) fun r s hs => ?_)
      (laws.stable_releases hF hsound)
    cases r with
    | ok result =>
      obtain ⟨⟨metadata, rfl⟩, hconfirms, hempty⟩ := hs
      exact ⟨h304, hconfirms, hempty⟩
    | error e => exact hs
  · refine .bind (laws.awaited (laws.decodeJsonSuccess signal decoder hF response validator
      validatorName _) (laws.stable_releases hF (laws.stable_succeeded hF)))
      (fun result => .pure fun s hs => ⟨h200, hs⟩) fun _ _ hs => hs
  · exact laws.awaited (laws.decodeProtocolProblemResponse signal decoder hF response _ hsound)
      (laws.stable_releases hF hsound)

theorem BodyLaws.decodeWriteResponse (laws : BodyLaws L host i) (hF : Frame L host i F)
    (response : Response) (validator : ProtocolValidator) (validatorName : String)
    (requirements : WriteResponseRequirements) :
    L.Triple i (Viewed host F Untouched)
      (decodeWriteResponse host signal decoder response validator validatorName requirements :
        HttpAsync σ α Credential WriteResult)
      (Releases host F response fun result s =>
        response.status = requirements.successStatus ∧ Succeeded host F response result s) := by
  have hsound : ∀ result : WriteResult, L.Stable i fun s =>
      response.status = requirements.successStatus ∧ Succeeded host F response result s :=
    fun result s s' hkeeps hs => ⟨hs.1, laws.stable_succeeded hF result s s' hkeeps hs.2⟩
  refine .ite (fun hsuccess => ?_) fun hother => ?_
  · refine laws.awaited ((laws.decodeJsonSuccess signal decoder hF response validator
      validatorName _).weaken (fun s hs => hs) fun r s hs => ?_) (laws.stable_releases hF hsound)
    cases r with
    | ok result => exact ⟨hsuccess, hs⟩
    | error e => exact hs
  · exact laws.awaited (laws.decodeProtocolProblemResponse signal decoder hF response _ hsound)
      (laws.stable_releases hF hsound)

end Readers

/-! ## Requests -/

/-- What holds of a value, and what holds with an error. -/
def Outcome (R : β → σ → Prop) (E : σ → Prop) (r : Except Thrown β) (s : σ) : Prop :=
  match r with
  | .ok value => R value s
  | .error _ => E s

-- A request: the caller's authorization, then the dispatch, then the response.
theorem BodyLaws.request (laws : BodyLaws L host i) {P W Q E : σ → Prop} (signal : σ → AbortState)
    {authorization : Option (HttpAsync σ α Credential (Option JsString))}
    {onDispatch : HttpAsync σ α Credential Unit}
    {dispatch : Option JsString → HttpAsync σ α Credential Unit} (hP : L.Stable i P)
    (hQ : L.Stable i Q) (hPE : ∀ s, P s → E s) (hQE : ∀ s, Q s → E s)
    (hfetch : ∀ s next, L.Inv s → Q s → L.Parked s i .fetch next)
    (hauthorization : ∀ value ∈ authorization, L.Triple i P value fun _ => P)
    (honDispatch : L.Triple i P onDispatch (Outcome (fun _ => W) E))
    (hdispatch : ∀ value, L.Triple i W (dispatch value) (Outcome (fun _ => Q) E)) :
    L.Triple i P (request signal authorization onDispatch dispatch)
      (Outcome (fun _ : Response => Q) E) := by
  have habort : L.Triple i P (throwIfAborted signal : HttpAsync σ α Credential Unit) fun _ => P :=
    quiet_throwIfAborted signal P hP
  have hwait : L.Triple i P (waitForAuthorization signal authorization) fun _ => P := by
    refine .bind habort (fun _ => ?_) fun _ _ hs => hs
    cases authorization with
    | none => exact laws.tick_bind hP (.pure fun s hs => hs)
    | some value => exact laws.awaited (hauthorization value rfl) fun _ => hP
  have hresponse : L.Triple i Q (awaitResponse .fetch : HttpAsync σ α Credential Response)
      (Outcome (fun _ => Q) E) := by
    refine .bind (Q := fun _ => Q) (.await hfetch fun s s' answer hs hkeeps _ _ =>
      hQ s s' hkeeps hs) (fun answer => ?_) fun e s hs => hQE s hs
    cases answer with
    | response result =>
      refine .ofExcept fun s hs => ?_
      cases result with
      | ok response => exact hs
      | error e => exact hQE s hs
    | tick | aborted | authorization | chunk | credential | mutation =>
      exact .throw fun s hs => hQE s hs
  refine .tryCatch (Q := Outcome (fun _ => Q) E) ?_ (fun error => ?_) fun _ _ hs => hs
  · refine .bind habort (fun _ => ?_) fun _ s hs => hPE s hs
    refine .bind (laws.awaited hwait fun _ => hP) (fun value => ?_) fun _ s hs => hPE s hs
    refine .ofExcept_bind (fun _ _ => ?_) fun _ s _ hs => hPE s hs
    refine .ofExcept_bind (fun header _ => ?_) fun _ s _ hs => hPE s hs
    refine .bind habort (fun _ => ?_) fun _ s hs => hPE s hs
    refine .bind honDispatch (fun _ => ?_) fun _ _ hs => hs
    exact .bind (hdispatch header) (fun _ => hresponse) fun _ _ hs => hs
  · refine .ite (fun _ => .throw fun s hs => hs) fun _ => .get_bind fun s _ hs => ?_
    have hstate : ∀ s', s' = s → E s' := fun s' heq => heq ▸ hs
    cases signal s with
    | some reason => exact .throw hstate
    | none => exact .ite (fun _ => .throw hstate) fun _ => .throw hstate

end Laws

end Http
