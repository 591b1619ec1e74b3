import TeslatlasSdk.Events.ProtocolDecoder
import TeslatlasSdk.Http.RequestLaws

/-!
# What becomes of a response that is not a result

The decoders throw validation errors, the error of a problem, or the reason of an abort.  What a
body's stream throws comes out of them only where that reason is nullish.
-/

open Text Core Json Events

namespace Http

/-- The reason of an abort.  A reason that is nullish may leave what has been thrown. -/
def Aborts (T : Thrown → Prop) (aborted : AbortState) (e : Thrown) : Prop :=
  ∃ reason, aborted = some reason ∧
    (e = reason ∨ (reason = .undefined ∨ reason = .null) ∧ T e)

theorem aborts_abortReason {T : Thrown → Prop} {aborted : AbortState} {reason : Thrown}
    (hT : T newAbortError) (h : aborted = some reason) : Aborts T aborted (abortReason reason) := by
  refine ⟨reason, h, ?_⟩
  cases reason with
  | undefined => exact .inr ⟨.inl rfl, hT⟩
  | null => exact .inr ⟨.inr rfl, hT⟩
  | teslatlas | sseStreamRead | abortError | other => exact .inl rfl

theorem aborts_reasonOr {T : Thrown → Prop} {aborted : AbortState} {reason error : Thrown}
    (h : aborted = some reason) (herror : T error ∨ Aborts T aborted error) :
    Aborts T aborted (reasonOr error reason) := by
  cases reason with
  | undefined => exact herror.elim (fun hT => ⟨_, h, .inr ⟨.inl rfl, hT⟩⟩) id
  | null => exact herror.elim (fun hT => ⟨_, h, .inr ⟨.inr rfl, hT⟩⟩) id
  | teslatlas | sseStreamRead | abortError | other => exact ⟨_, h, .inl rfl⟩

/-- A value that a validator admits has been made of the text of the body. -/
def IsDecoded (response : Response) (view : BodyView) (validator : ProtocolValidator)
    (validatorName : String) (value : Value) : Prop :=
  ∃ text lexemes, HasText response view text ∧
    parseProtocolJson text validatorName = .ok (value, lexemes) ∧ validator value lexemes = true

theorem IsDecoded.record {response : Response} {view : BodyView} {validator : ProtocolValidator}
    {validatorName : String} {value : Value}
    (h : IsDecoded response view validator validatorName value) (event : BodyEvent) :
    IsDecoded response (view.record event) validator validatorName value := by
  obtain ⟨text, lexemes, htext, hdecoded⟩ := h
  exact ⟨text, lexemes, htext.record event, hdecoded⟩

structure IsProblem (decoder : DecoderHost) (response : Response) (view : BodyView)
    (problem : Value) : Prop where
  contentType : response.contentType.map mediaType = some (js "application/problem+json")
  body : IsDecoded response view decoder.validateProblem "validateProblem" problem

/-- The errors of a response, of which some statuses are expected. -/
inductive ResponseError (decoder : DecoderHost) (response : Response) (view : BodyView)
    (expected : List Nat) : Thrown → Prop
  | invalid {e : Thrown} (h : e.isProtocolValidationError = true) :
      ResponseError decoder response view expected e
  | locked (h : response.body = some true) :
      ResponseError decoder response view expected lockedBodyError
  | problem {problem : Value} {e : Thrown} (hstatus : response.status ∉ expected)
      (hproblem : IsProblem decoder response view problem)
      (h : problemError response problem = .ok e ∨ problemError response problem = .error e) :
      ResponseError decoder response view expected e

theorem ResponseError.record {decoder : DecoderHost} {response : Response} {view : BodyView}
    {expected : List Nat} {e : Thrown} (h : ResponseError decoder response view expected e)
    (event : BodyEvent) : ResponseError decoder response (view.record event) expected e := by
  cases h with
  | invalid h => exact .invalid h
  | locked h => exact .locked h
  | problem hstatus hproblem h =>
    exact .problem hstatus ⟨hproblem.contentType, hproblem.body.record event⟩ h

/-! ## What tasks give -/

section Laws

variable {σ α Credential κ : Type} {sys : System σ α Awaited (Answer Credential) κ}
  {L : Logic sys} {host : BodyHost σ α} {i : Nat} {β γ : Type}

/-- What is true where a task ends. -/
def Ends (V : β → σ → Prop) (E : Thrown → σ → Prop) (r : Except Thrown β) (s : σ) : Prop :=
  match r with
  | .ok value => V value s
  | .error e => E e s

/-- From `P`, a task returns what `V` is true of and throws what `E` is true of; it may tell of its
body. -/
def Gives (L : Logic sys) (host : BodyHost σ α) (i : Nat) (P : σ → Prop) (V : β → σ → Prop)
    (E : Thrown → σ → Prop) (t : HttpAsync σ α Credential β) : Prop :=
  ∀ F, Frame L host i F → L.Triple i (fun s => F s ∧ P s) t fun r s => F s ∧ Ends V E r s

variable {P : σ → Prop} {V W : β → σ → Prop} {E E' : Thrown → σ → Prop}

theorem Frame.and {F G : σ → Prop} (hF : Frame L host i F) (hG : Frame L host i G) :
    Frame L host i fun s => F s ∧ G s where
  stable := hF.stable.and hG.stable
  body event hs := ⟨hF.body event hs.1, hG.body event hs.2⟩

theorem Frame.const (c : Prop) : Frame L host i fun _ => c where
  stable _ _ _ hc := hc
  body _ hc := hc

theorem Gives.mono {t : HttpAsync σ α Credential β} (h : Gives L host i P V E t)
    (hvalue : ∀ value s, V value s → W value s) (herror : ∀ e s, E e s → E' e s) :
    Gives L host i P W E' t := by
  refine fun F hF => (h F hF).weaken (fun _ hs => hs) fun r s hs => ⟨hs.1, ?_⟩
  cases r with
  | ok value => exact hvalue value s hs.2
  | error e => exact herror e s hs.2

theorem Gives.pure {value : β} (h : ∀ s, P s → V value s) :
    Gives L host i P V E (pure value : HttpAsync σ α Credential β) :=
  fun _ _ => .pure fun s hs => ⟨hs.1, h s hs.2⟩

theorem Gives.throw {e : Thrown} (h : ∀ s, P s → E e s) :
    Gives L host i P V E (throw e : HttpAsync σ α Credential β) :=
  fun _ _ => .throw fun s hs => ⟨hs.1, h s hs.2⟩

theorem Gives.bind {W : γ → σ → Prop} {t : HttpAsync σ α Credential β}
    {f : β → HttpAsync σ α Credential γ} (ht : Gives L host i P V E t)
    (hf : ∀ value, Gives L host i (V value) W E (f value)) : Gives L host i P W E (t >>= f) :=
  fun F hF => .bind (ht F hF) (fun value => hf value F hF) fun _ _ hs => hs

-- A result that is known in front of a task.
theorem Gives.ofExcept_bind {W : γ → σ → Prop} {r : Except Thrown β}
    {f : β → HttpAsync σ α Credential γ}
    (hf : ∀ value, r = .ok value → Gives L host i P W E (f value))
    (herror : ∀ e s, r = .error e → P s → E e s) :
    Gives L host i P W E (Async.ofExcept r >>= f) :=
  fun F hF => .ofExcept_bind (fun value hvalue => hf value hvalue F hF)
    fun e s he hs => ⟨hs.1, herror e s he hs.2⟩

theorem Gives.ite {c : Prop} [Decidable c] {t u : HttpAsync σ α Credential β}
    (ht : c → Gives L host i P V E t) (hu : ¬ c → Gives L host i P V E u) :
    Gives L host i P V E (if c then t else u) :=
  fun F hF => .ite (fun hc => ht hc F hF) fun hc => hu hc F hF

-- What a handler throws, and what it has been thrown for.
theorem Gives.tryCatch {R : Thrown → Thrown → σ → Prop} {t : HttpAsync σ α Credential β}
    {handler : Thrown → HttpAsync σ α Credential β} (hE : ∀ e, Frame L host i (E e))
    (ht : Gives L host i P V E t) (hhandler : ∀ e, Gives L host i (E e) V (R e) (handler e))
    (herror : ∀ e e' s, E e s → R e e' s → E' e' s) :
    Gives L host i P V E' (tryCatch t handler) := by
  refine fun F hF => .tryCatch (ht F hF) (fun e => ?_) fun _ _ hs => hs
  refine (hhandler e _ (hF.and (hE e))).weaken (fun s hs => ⟨hs, hs.2⟩) fun r s hs => ⟨hs.1.1, ?_⟩
  cases r with
  | ok value => exact hs.2
  | error e' => exact herror e e' s hs.1.2 hs.2

theorem Gives.attempt_bind {W : γ → σ → Prop} {R : Thrown → Thrown → σ → Prop}
    {t : HttpAsync σ α Credential β} {f : Except Thrown β → HttpAsync σ α Credential γ}
    (hE : ∀ e, Frame L host i (E e)) (ht : Gives L host i P V E t)
    (hvalue : ∀ value, Gives L host i (V value) W E' (f (.ok value)))
    (hhandler : ∀ e, Gives L host i (E e) W (R e) (f (.error e)))
    (herror : ∀ e e' s, E e s → R e e' s → E' e' s) :
    Gives L host i P W E' (t.attempt >>= f) := by
  refine fun F hF => .attempt_bind (ht F hF) fun r => ?_
  cases r with
  | ok value => exact hvalue value F hF
  | error e =>
    refine (hhandler e _ (hF.and (hE e))).weaken (fun s hs => ⟨hs, hs.2⟩) fun r s hs => ⟨hs.1.1, ?_⟩
    cases r with
    | ok value => exact hs.2
    | error e' => exact herror e e' s hs.1.2 hs.2

/-- What is given stays given. -/
theorem stable_given {F : σ → Prop} (hF : Frame L host i F) (hV : ∀ value, L.Stable i (V value))
    (hE : ∀ e, Frame L host i (E e)) (r : Except Thrown β) :
    L.Stable i fun s => F s ∧ Ends V E r s := by
  cases r with
  | ok value => exact hF.stable.and (hV value)
  | error e => exact hF.stable.and (hE e).stable

theorem Gives.awaited (laws : BodyLaws L host i) (hV : ∀ value, L.Stable i (V value))
    (hE : ∀ e, Frame L host i (E e)) {t : HttpAsync σ α Credential β}
    (h : Gives L host i P V E t) : Gives L host i P V E (Http.awaited t) :=
  fun F hF => laws.awaited (h F hF) (stable_given hF hV hE)

theorem Gives.tick_bind (laws : BodyLaws L host i) {f : Unit → HttpAsync σ α Credential β}
    (hP : L.Stable i P) (h : Gives L host i P V E (f ())) :
    Gives L host i P V E (tick >>= f) :=
  fun F hF => laws.tick_bind (hF.stable.and hP) (h F hF)

theorem Gives.tell (laws : BodyLaws L host i) (event : BodyEvent) :
    Gives L host i P (fun _ _ => True) E (Http.tell host event : HttpAsync σ α Credential Unit) :=
  fun _ hF => .perform (laws.actor event) fun _ hinv hs =>
    ⟨laws.permits hinv event, hF.body event hs.1, trivial⟩

-- What is told of a body, for what it makes of the view.
theorem Gives.tell_view_bind (laws : BodyLaws L host i) {A B : BodyView → Prop} (event : BodyEvent)
    (h : ∀ view, A view → B (view.record event)) {f : Unit → HttpAsync σ α Credential β}
    (hf : Gives L host i (fun s => B (host.view s)) V E (f ())) :
    Gives L host i (fun s => A (host.view s)) V E (Http.tell host event >>= f) :=
  fun F hF => laws.tell_bind hF event h (hf F hF)

-- What is told of a body in front of another task.
theorem Gives.tell_bind (laws : BodyLaws L host i) (event : BodyEvent)
    {f : Unit → HttpAsync σ α Credential β} (h : Gives L host i (fun _ => True) V E (f ())) :
    Gives L host i P V E (Http.tell host event >>= f) :=
  .bind (.tell laws event) fun _ => h

end Laws

/-! ## Errors of bodies -/

section Errors

variable {σ α Credential κ : Type} {sys : System σ α Awaited (Answer Credential) κ}

/-- What reading a body may throw: `T` is true of errors of its own, of what `cancel()` throws and
of what streams throw. -/
structure ReadErrors (C T : Thrown → Prop) : Prop where
  cancelled : ∀ {e}, C e → T e
  invalid : ∀ {e : Thrown}, e.isProtocolValidationError = true → T e
  locked : T lockedBodyError
  aborted : T newAbortError

/-- A system with bodies where the signal of thread `i` stays aborted, and what `cancel()` of a
reader and the reading of a body may throw. -/
structure ErrorLaws (L : Logic sys) (host : BodyHost σ α) (i : Nat) (signal : σ → AbortState)
    (C T : Thrown → Prop) : Prop extends BodyLaws L host i where
  aborted : ∀ reason, Frame L host i fun s => signal s = some reason
  cancelling : ∀ {s e}, L.Inv s → (host.cancellation s).reader = some e → C e
  errors : ReadErrors C T
  chunk : ∀ {s answer}, sys.accepts s i .chunk answer = true →
    ∃ result, answer = .chunk result ∧ ∀ e, result = .error e → T e
  racedChunk : ∀ {s e}, sys.accepts s i .racedChunk (.chunk (.error e)) = true → T e

variable {L : Logic sys} {host : BodyHost σ α} {i : Nat} {signal : σ → AbortState}
  {C T : Thrown → Prop} {β : Type} {P : σ → Prop} {V : β → σ → Prop} {E : Thrown → σ → Prop}

theorem ErrorLaws.frame_aborts (laws : ErrorLaws L host i signal C T) (e : Thrown) :
    Frame L host i fun s => Aborts T (signal s) e where
  stable := by
    rintro s s' hkeeps ⟨reason, hreason, he⟩
    exact ⟨reason, (laws.aborted reason).stable s s' hkeeps hreason, he⟩
  body event := by
    rintro ⟨reason, hreason, he⟩
    exact ⟨reason, (laws.aborted reason).body event hreason, he⟩

theorem ErrorLaws.gives_throwIfAborted (laws : ErrorLaws L host i signal C T) :
    Gives L host i P (fun _ => P) (fun e s => Aborts T (signal s) e)
      (throwIfAborted signal : HttpAsync σ α Credential Unit) := by
  refine fun F _ => (triple_throwIfAborted signal).weaken (fun _ hs => hs) fun r s hs =>
    ⟨hs.1.1, ?_⟩
  cases r with
  | ok u => exact hs.1.2
  | error e =>
    obtain ⟨reason, hreason, rfl⟩ := hs.2
    exact aborts_abortReason laws.errors.aborted hreason

/-- A body that cannot be read: it breaks a rule, or the operation is aborted. -/
def Unreadable (T : Thrown → Prop) (signal : σ → AbortState) (e : Thrown) (s : σ) : Prop :=
  e.isProtocolValidationError = true ∨ Aborts T (signal s) e

/-- What is thrown in front of a handler. -/
def Broken (T : Thrown → Prop) (signal : σ → AbortState) (e : Thrown) (s : σ) : Prop :=
  T e ∨ Aborts T (signal s) e

theorem ErrorLaws.frame_unreadable (laws : ErrorLaws L host i signal C T) (e : Thrown) :
    Frame L host i (Unreadable T signal e) where
  stable s s' hkeeps := Or.imp id ((laws.frame_aborts e).stable s s' hkeeps)
  body event := Or.imp id ((laws.frame_aborts e).body event)

theorem ErrorLaws.frame_broken (laws : ErrorLaws L host i signal C T) (e : Thrown) :
    Frame L host i (Broken T signal e) where
  stable s s' hkeeps := Or.imp id ((laws.frame_aborts e).stable s s' hkeeps)
  body event := Or.imp id ((laws.frame_aborts e).body event)

theorem Unreadable.broken (laws : ErrorLaws L host i signal C T) {e : Thrown} {s : σ}
    (h : Unreadable T signal e s) : Broken T signal e s :=
  h.imp laws.errors.invalid id

-- The handler of a reader hides what its body's stream has thrown, unless the reason is nullish.
theorem gives_rethrowRead (validatorName : String) (error : Thrown) :
    Gives L host i (Broken T signal error) V (Unreadable T signal)
      (rethrowRead signal validatorName error : HttpAsync σ α Credential β) := by
  intro F _
  refine .get_bind fun s _ hs => ?_
  cases hsignal : signal s with
  | some reason =>
    exact .throw fun s' heq => heq ▸ ⟨hs.1, .inr (aborts_reasonOr hsignal hs.2)⟩
  | none =>
    refine .ite (fun hvalid => .throw fun s' heq => heq ▸ ⟨hs.1, .inl hvalid⟩)
      fun _ => .throw fun s' heq => heq ▸ ⟨hs.1, .inl rfl⟩

theorem ErrorLaws.gives_cancelReader (laws : ErrorLaws L host i signal C T) :
    Gives L host i P (fun _ _ => True) (fun e _ => C e)
      (cancelReader host : HttpAsync σ α Credential Unit) := by
  intro F hF
  refine .get_bind fun s hinv hs => ?_
  have hcancel : Gives L host i (fun _ => True) (fun (_ : Unit) _ => True) (fun e _ => C e) (do
      tell host (.readerCancelled (host.cancellation s).reader)
      orThrow (host.cancellation s).reader) := by
    refine .tell_bind laws.toBodyLaws _ ?_
    cases hreader : (host.cancellation s).reader with
    | none => exact .pure fun _ _ => trivial
    | some e => exact .throw fun _ _ => laws.cancelling hinv hreader
  exact (hcancel F hF).weaken (fun s' heq => heq ▸ ⟨hs.1, trivial⟩) fun _ _ hr => hr

theorem BodyLaws.frame_text (laws : BodyLaws L host i) (response : Response) (text : JsString) :
    Frame L host i fun s => HasText response (host.view s) text :=
  laws.frame_view (HasText response · text) fun event h => h.record event

theorem BodyLaws.frame_decoded (laws : BodyLaws L host i) (response : Response)
    (validator : ProtocolValidator) (validatorName : String) (value : Value) :
    Frame L host i fun s => IsDecoded response (host.view s) validator validatorName value :=
  laws.frame_view (IsDecoded response · validator validatorName value) fun event h => h.record event

theorem BodyLaws.stable_untouched (laws : BodyLaws L host i) :
    L.Stable i fun s => Untouched (host.view s) := by
  intro s s' hkeeps hs
  rw [laws.view_keeps hkeeps]
  exact hs

/-! ## Readers -/

theorem BodyLaws.stable_view (laws : BodyLaws L host i) (A : BodyView → Prop) :
    L.Stable i fun s => A (host.view s) := by
  intro s s' hkeeps hs
  rw [laws.view_keeps hkeeps]
  exact hs

theorem ErrorLaws.gives_awaitChunk (laws : ErrorLaws L host i signal C T) (hP : L.Stable i P) :
    Gives L host i P (fun _ => P) (Broken T signal)
      (awaitChunk : HttpAsync σ α Credential (Option (List UInt8))) := by
  intro F hF
  refine .bind (Q := fun r s => (F s ∧ P s) ∧ ∃ result, r = .ok (.chunk result) ∧
      ∀ e, result = .error e → T e)
    (.await (fun _ next hinv _ => laws.parked next hinv rfl)
      fun s s' answer hs hkeeps _ haccepts => ?_) (fun answer => ?_) ?_
  · obtain ⟨result, rfl, hresult⟩ := laws.chunk haccepts
    exact ⟨(hF.stable.and hP) s s' hkeeps hs, result, rfl, hresult⟩
  · cases answer with
    | chunk result =>
      refine .ofExcept fun s hs => ⟨hs.1.1, ?_⟩
      obtain ⟨hs, other, hanswer, hother⟩ := hs
      obtain rfl := Answer.chunk.inj (Except.ok.inj hanswer)
      cases result with
      | ok chunk => exact hs.2
      | error e => exact .inl (hother e rfl)
    | tick | aborted | authorization | response | credential | mutation =>
      refine .throw fun s hs => ?_
      obtain ⟨-, other, hanswer, -⟩ := hs
      cases hanswer
  · rintro e s ⟨-, result, herror, -⟩
    cases herror

-- The race against the signal throws what the stream has thrown, or the reason of the abort.
theorem ErrorLaws.gives_awaitRacedChunk (laws : ErrorLaws L host i signal C T)
    (hP : L.Stable i P) :
    Gives L host i P (fun _ => P) (Broken T signal)
      (awaitRacedChunk signal : HttpAsync σ α Credential (Option (List UInt8))) := by
  intro F hF
  have hlost : L.Triple i F
      (do throw (abortReason ((signal (← Async.get)).getD .undefined)) :
        HttpAsync σ α Credential (Option (List UInt8)))
      fun r s => F s ∧ Ends (fun _ => P) (Broken T signal) r s := by
    refine .get_bind fun s _ hs => .throw fun s' heq => ⟨heq ▸ hs, ?_⟩
    subst heq
    cases hsignal : signal s' with
    | none => exact .inl laws.errors.aborted
    | some reason => exact .inr (aborts_abortReason laws.errors.aborted hsignal)
  refine .bind (Q := fun r s => (F s ∧ P s) ∧ ∃ answer, r = .ok answer ∧
      ∀ e, answer = .chunk (.error e) → T e)
    (.await (fun _ next hinv _ => laws.parked next hinv rfl)
      fun s s' answer hs hkeeps _ haccepts => ?_) (fun answer => ?_) ?_
  · refine ⟨(hF.stable.and hP) s s' hkeeps hs, answer, rfl, ?_⟩
    rintro e rfl
    exact laws.racedChunk haccepts
  · cases answer with
    | chunk result =>
      refine .ofExcept fun s hs => ⟨hs.1.1, ?_⟩
      obtain ⟨hs, other, hanswer, hother⟩ := hs
      obtain rfl := Except.ok.inj hanswer
      cases result with
      | ok chunk => exact hs.2
      | error e => exact .inl (hother e rfl)
    | tick | aborted | authorization | response | credential | mutation =>
      exact hlost.weaken (fun s hs => hs.1.1) fun _ _ hr => hr
  · rintro e s ⟨-, answer, herror, -⟩
    cases herror

-- The loop returns the bytes that it has taken, and throws for a reason.
theorem ErrorLaws.gives_readChunks (laws : ErrorLaws L host i signal C T) (validatorName : String)
    (maximumBytes : Nat) (body : List UInt8) (emptyChunks : Nat) :
    Gives L host i (fun s => Received body (host.view s))
      (fun bytes s => Received bytes (host.view s)) (Broken T signal)
      (readChunks host signal validatorName maximumBytes body emptyChunks :
        HttpAsync σ α Credential (List UInt8)) := by
  induction body, emptyChunks using readChunks.induct maximumBytes with
  | case1 body emptyChunks ih =>
    rw [Http.readChunks]
    refine .bind (laws.gives_awaitChunk (laws.stable_view _)) fun result => ?_
    refine .bind (laws.gives_throwIfAborted.mono (fun _ _ h => h) fun _ _ h => .inr h) fun _ => ?_
    cases result with
    | none => exact .pure fun _ h => h
    | some chunk =>
      by_cases hsize : chunk.length > maximumBytes - body.length
      · simp only [dif_pos hsize]
        exact .throw fun _ _ => .inl (laws.errors.invalid rfl)
      · by_cases hempty : chunk = [] ∧ emptyChunks + 1 > 1024
        · simp only [dif_neg hsize, dif_pos hempty]
          exact .throw fun _ _ => .inl (laws.errors.invalid rfl)
        · simp only [dif_neg hsize, dif_neg hempty]
          exact .tell_view_bind laws.toBodyLaws (.received chunk) (fun _ h => h.append chunk)
            (ih chunk hsize hempty)

/-- The text of the bytes that a body has given so far. -/
def Gave (text : JsString) (view : BodyView) : Prop :=
  ∃ bytes, Received bytes view ∧ text = decodeText bytes

theorem ErrorLaws.gives_readBoundedBody (laws : ErrorLaws L host i signal C T) {response : Response}
    (hbody : response.body = some false) (validatorName : String) (maximumBytes : Nat) :
    Gives L host i (fun s => Received [] (host.view s)) (fun text s => Gave text (host.view s))
      (Unreadable T signal)
      (readBoundedBody host signal response validatorName maximumBytes :
        HttpAsync σ α Credential JsString) := by
  rw [Http.readBoundedBody, hbody]
  refine .tryCatch laws.frame_broken ?_ (gives_rethrowRead validatorName) fun _ _ _ _ h => h
  refine .bind (laws.gives_throwIfAborted.mono (fun _ _ h => h) fun _ _ h => .inr h) fun _ => ?_
  refine .bind (laws.gives_readChunks validatorName maximumBytes [] 0) fun bytes => ?_
  exact .pure fun s h => ⟨bytes, h, rfl⟩

theorem ErrorLaws.gives_readBoundedText (laws : ErrorLaws L host i signal C T) (response : Response)
    (validatorName : String) (maximumBytes : Nat) :
    Gives L host i (fun s => Untouched (host.view s))
      (fun text s => HasText response (host.view s) text) (Broken T signal)
      (readBoundedText host signal response validatorName maximumBytes :
        HttpAsync σ α Credential JsString) := by
  refine .ite (fun hbody => ?_) fun hbody => ?_
  · refine .tell_view_bind laws.toBodyLaws (B := Received []) .acquired ?_ ?_
    · rintro view rfl
      exact ⟨rfl, rfl⟩
    refine .attempt_bind (R := fun e e' s => e' = e ∨ Broken T signal e' s) laws.frame_unreadable
      (laws.gives_readBoundedBody hbody validatorName maximumBytes) (fun text => ?_)
      (fun e => ?_) ?_
    · refine .tell_view_bind laws.toBodyLaws
        (B := fun view => view.ended = true ∧ text = decodeText view.received.flatten) .ended ?_ ?_
      · rintro view ⟨bytes, ⟨-, hbytes⟩, rfl⟩
        exact ⟨rfl, congrArg decodeText hbytes.symm⟩
      have hreleased : ∀ view : BodyView, view.ended = true ∧
          text = decodeText view.received.flatten →
          HasText response (view.record .released) text := by
        intro view h
        rw [HasText, hbody]
        exact h
      have hread : Gives L host i (fun s => HasText response (host.view s) text)
          (fun text s => HasText response (host.view s) text) (Broken T signal)
          (Async.ofExcept (.ok text) : HttpAsync σ α Credential JsString) := .pure fun _ h => h
      exact .tell_view_bind laws.toBodyLaws (B := (HasText response · text)) .released hreleased
        hread
    · refine .bind (laws.gives_cancelReader.mono (fun _ _ h => h) fun _ _ h =>
        .inr (.inl (laws.errors.cancelled h))) fun _ => ?_
      exact .tell_bind laws.toBodyLaws _ (.throw fun _ _ => .inl rfl)
    · rintro e e' s he (rfl | he')
      · exact he.broken laws
      · exact he'
  · rw [Http.readBoundedBody]
    cases hgiven : response.body with
    | none =>
      refine .bind (laws.gives_throwIfAborted.mono (fun _ _ h => h) fun _ _ h => .inr h)
        fun _ => .pure fun s _ => ?_
      rw [HasText, hgiven]
    | some locked =>
      cases locked with
      | true => exact .throw fun _ _ => .inl laws.errors.locked
      | false => exact absurd hgiven hbody

/-- What is read as JSON is the text of the body. -/
def Parses (response : Response) (validatorName : String) (host : BodyHost σ α)
    (parsed : Value × NumericLexemes) (s : σ) : Prop :=
  ∃ text, HasText response (host.view s) text ∧
    parseProtocolJson text validatorName = .ok parsed

theorem BodyLaws.frame_parses (laws : BodyLaws L host i) (response : Response)
    (validatorName : String) (parsed : Value × NumericLexemes) :
    Frame L host i (Parses response validatorName host parsed) where
  stable := by
    rintro s s' hkeeps ⟨text, htext, hparse⟩
    exact ⟨text, (laws.frame_text response text).stable s s' hkeeps htext, hparse⟩
  body event := by
    rintro ⟨text, htext, hparse⟩
    exact ⟨text, (laws.frame_text response text).body event htext, hparse⟩

theorem ErrorLaws.gives_readJson (laws : ErrorLaws L host i signal C T) (response : Response)
    (validatorName : String) :
    Gives L host i (fun s => Untouched (host.view s)) (Parses response validatorName host)
      (Unreadable T signal)
      (readJson host signal response validatorName :
        HttpAsync σ α Credential (Value × NumericLexemes)) := by
  have hparses : ∀ parsed, L.Stable i (Parses response validatorName host parsed) :=
    fun parsed => (laws.frame_parses response validatorName parsed).stable
  refine .tryCatch laws.frame_broken (.awaited laws.toBodyLaws hparses laws.frame_broken ?_)
    (gives_rethrowRead validatorName) fun _ _ _ _ h => h
  refine .bind (.awaited laws.toBodyLaws (fun text => (laws.frame_text response text).stable)
    laws.frame_broken (laws.gives_readBoundedText response validatorName _)) fun text => ?_
  cases hparse : parseProtocolJson text validatorName with
  | ok parsed => exact .pure fun s hs => ⟨text, hs, hparse⟩
  | error e => exact .throw fun _ _ => .inl (laws.errors.invalid rfl)

theorem ErrorLaws.gives_decodeBody (laws : ErrorLaws L host i signal C T) (response : Response)
    (validator : ProtocolValidator) (validatorName : String) :
    Gives L host i (fun s => Untouched (host.view s))
      (fun value s => IsDecoded response (host.view s) validator validatorName value)
      (Unreadable T signal)
      (decodeBody host signal response validator validatorName :
        HttpAsync σ α Credential Value) := by
  refine .bind (.awaited laws.toBodyLaws
    (fun parsed => (laws.frame_parses response validatorName parsed).stable) laws.frame_unreadable
    (laws.gives_readJson response validatorName)) fun parsed => ?_
  intro F hF fresh s k hinv hfresh hi hs
  obtain ⟨hf, text, htext, hparse⟩ := hs
  have hdecode : decodeProtocolValue parsed.1 parsed.2 validator validatorName =
      if !validator parsed.1 parsed.2 then .error (protocolValidationError validatorName)
      else .ok parsed.1 := by
    rw [decodeProtocolValue, assertFiniteNumbers_of_parse hparse]
  have hresult : L.Triple i (fun s => F s ∧ HasText response (host.view s) text)
      (Async.ofExcept (decodeProtocolValue parsed.1 parsed.2 validator validatorName) :
        HttpAsync σ α Credential Value) fun r s => F s ∧
      Ends (fun value s => IsDecoded response (host.view s) validator validatorName value)
        (Unreadable T signal) r s := by
    rw [hdecode]
    by_cases hvalid : validator parsed.1 parsed.2 = true
    · rw [hvalid]
      exact .pure fun s hs => ⟨hs.1, text, parsed.2, hs.2, hparse, hvalid⟩
    · rw [if_pos (by simpa using hvalid)]
      exact .throw fun s hs => ⟨hs.1, .inl rfl⟩
  exact hresult fresh s k hinv hfresh hi ⟨hf, htext⟩

/-! ## Errors of decoders -/

variable {decoder : DecoderHost} {response : Response} {expected : List Nat}

/-- What a decoder throws: a response's error, or the reason of an abort. -/
def Refuses (host : BodyHost σ α) (decoder : DecoderHost) (response : Response)
    (expected : List Nat) (T : Thrown → Prop) (signal : σ → AbortState) (e : Thrown) (s : σ) :
    Prop :=
  ResponseError decoder response (host.view s) expected e ∨ Aborts T (signal s) e

/-- The same, where the reader of an empty body may throw as it is cancelled. -/
def RefusesOr (host : BodyHost σ α) (decoder : DecoderHost) (response : Response)
    (expected : List Nat) (T : Thrown → Prop) (signal : σ → AbortState) (C : Thrown → Prop)
    (e : Thrown) (s : σ) : Prop :=
  Refuses host decoder response expected T signal e s ∨ C e

theorem ErrorLaws.frame_refuses (laws : ErrorLaws L host i signal C T) (e : Thrown) :
    Frame L host i (Refuses host decoder response expected T signal e) :=
  have hresponse : Frame L host i fun s =>
      ResponseError decoder response (host.view s) expected e :=
    laws.frame_view (ResponseError decoder response · expected e) fun event h => h.record event
  { stable := fun s s' hkeeps => Or.imp (hresponse.stable s s' hkeeps)
      ((laws.frame_aborts e).stable s s' hkeeps)
    body := fun event => Or.imp (hresponse.body event) ((laws.frame_aborts e).body event) }

theorem ErrorLaws.frame_refusesOr (laws : ErrorLaws L host i signal C T) (e : Thrown) :
    Frame L host i (RefusesOr host decoder response expected T signal C e) where
  stable s s' hkeeps := Or.imp ((laws.frame_refuses e).stable s s' hkeeps) id
  body event := Or.imp ((laws.frame_refuses e).body event) id

theorem Unreadable.refuses {e : Thrown} {s : σ} (h : Unreadable T signal e s) :
    Refuses host decoder response expected T signal e s :=
  h.imp .invalid id

-- Cancelling the body of a response never throws.
theorem ErrorLaws.gives_cancelResponseBody (laws : ErrorLaws L host i signal C T)
    (response : Response) :
    Gives L host i P (fun _ _ => True) E
      (cancelResponseBody host response : HttpAsync σ α Credential Unit) := by
  have hcancel : Gives L host i (fun _ => True) (fun _ _ => True) (fun _ _ => True)
      (cancelBody host : HttpAsync σ α Credential Unit) := by
    refine fun F hF => .get_bind fun s _ hs => ?_
    refine .weaken (W := fun s => F s ∧ True) ?_ (fun s' heq => heq ▸ hs) fun _ _ hr => hr
    refine Gives.tell_bind laws.toBodyLaws _ ?_ F hF
    cases (host.cancellation s).body with
    | none => exact .pure fun _ _ => trivial
    | some e => exact .throw fun _ _ => trivial
  refine fun F hF => .get_bind fun s _ hs => ?_
  refine .weaken (W := fun s => F s ∧ True) ?_ (fun s' heq => heq ▸ ⟨hs.1, trivial⟩)
    fun _ _ hr => hr
  refine Logic.Triple.ite (fun _ => ?_) fun _ => .pure fun _ hs => hs
  exact .attempt_bind (hcancel F hF) fun _ => .pure fun _ hs => ⟨hs.1, trivial⟩

-- Ownership changes nothing about what is returned and thrown.
theorem ErrorLaws.gives_ownership (laws : ErrorLaws L host i signal C T)
    (hV : ∀ value, L.Stable i (V value)) (hE : ∀ e, Frame L host i (E e))
    {consume : HttpAsync σ α Credential β} (h : Gives L host i P V E consume) :
    Gives L host i P V E (withResponseOwnership host response consume) := by
  refine .attempt_bind (R := fun e e' _ => e' = e) hE (.awaited laws.toBodyLaws hV hE h)
    (fun value => .pure fun s hs => hs) (fun e => ?_) fun e e' s he heq => heq ▸ he
  refine .bind (laws.gives_cancelResponseBody response) fun _ => ?_
  exact .tick_bind laws.toBodyLaws (fun _ _ _ hc => hc) (.throw fun _ _ => rfl)

theorem requireMediaType_error {type : JsString} {validatorName : String} {e : Thrown}
    (h : requireMediaType response type validatorName = .error e) :
    e.isProtocolValidationError = true := by
  rw [requireMediaType] at h
  split at h
  · cases h
  · obtain rfl := Except.error.inj h
    rfl

theorem requireMediaType_ok {type : JsString} {validatorName : String} {u : Unit}
    (h : requireMediaType response type validatorName = .ok u) :
    response.contentType.map mediaType = some type := by
  rw [requireMediaType] at h
  split at h
  · next htype => exact htype
  · cases h

theorem ErrorLaws.gives_problem (laws : ErrorLaws L host i signal C T)
    (hV : ∀ value, L.Stable i (V value)) (hstatus : response.status ∉ expected) :
    Gives L host i (fun s => Untouched (host.view s)) V
      (Refuses host decoder response expected T signal)
      (decodeProtocolProblemResponse host signal decoder response :
        HttpAsync σ α Credential β) := by
  refine laws.gives_ownership hV laws.frame_refuses ?_
  refine .ofExcept_bind (fun _ htype => ?_) fun e s he _ =>
    .inl (.invalid (requireMediaType_error he))
  refine .bind ((laws.gives_decodeBody response _ _).mono (fun _ _ h => h) fun _ _ h => h.refuses)
    fun problem => ?_
  have hproblem : ∀ s, IsDecoded response (host.view s) decoder.validateProblem "validateProblem"
      problem → IsProblem decoder response (host.view s) problem :=
    fun s hbody => ⟨requireMediaType_ok htype, hbody⟩
  refine .ofExcept_bind (fun e he => ?_) fun e s he hs =>
    .inl (.problem hstatus (hproblem s hs) (.inr he))
  exact .throw fun s hs => .inl (.problem hstatus (hproblem s hs) (.inl he))

theorem readResponseMetadata_error {isSafeAuthority : JsString → Bool} {validatorName : String}
    {requirements : ResponseMetadataRequirements} {e : Thrown}
    (h : readResponseMetadata isSafeAuthority response validatorName requirements = .error e) :
    e.isProtocolValidationError = true := by
  rw [readResponseMetadata] at h
  split at h
  · cases h
  · split at h
    · next hvalid =>
      obtain rfl := Except.error.inj h
      exact hvalid
    · obtain rfl := Except.error.inj h
      rfl

/-- A result with a value of the body that the validator admits and the location of its response. -/
def HasDecoded (response : Response) (view : BodyView) (validator : ProtocolValidator)
    (validatorName : String) (result : WriteResult) : Prop :=
  IsDecoded response view validator validatorName result.value ∧
    result.metadata.location = response.location

theorem BodyLaws.stable_decoded (laws : BodyLaws L host i) (validator : ProtocolValidator)
    (validatorName : String) (result : WriteResult) :
    L.Stable i fun s => HasDecoded response (host.view s) validator validatorName result :=
  (laws.frame_decoded response validator validatorName result.value).stable.and fun _ _ _ hc => hc

theorem ErrorLaws.gives_decodeJsonSuccess (laws : ErrorLaws L host i signal C T)
    (response : Response) (validator : ProtocolValidator) (validatorName : String)
    (requirements : ResponseMetadataRequirements) :
    Gives L host i (fun s => Untouched (host.view s))
      (fun result s => HasDecoded response (host.view s) validator validatorName result)
      (Unreadable T signal)
      (decodeJsonSuccess host signal decoder response validator validatorName requirements :
        HttpAsync σ α Credential WriteResult) := by
  have habort : ∀ {P : σ → Prop}, Gives L host i P (fun _ => P) (Unreadable T signal)
      (throwIfAborted signal : HttpAsync σ α Credential Unit) :=
    laws.gives_throwIfAborted.mono (fun _ _ h => h) fun _ _ h => .inr h
  refine laws.gives_ownership (laws.stable_decoded validator validatorName)
    laws.frame_unreadable ?_
  refine .bind habort fun _ => ?_
  refine .ofExcept_bind (fun _ _ => ?_) fun e s he _ => .inl (requireMediaType_error he)
  refine .ofExcept_bind (fun metadata hmetadata => ?_) fun e s he _ =>
    .inl (readResponseMetadata_error he)
  refine .bind (laws.gives_decodeBody response _ _) fun value => ?_
  exact .bind habort fun _ => .pure fun s hs => ⟨hs, (readResponseMetadata_ok hmetadata).2.1⟩

-- A loop over chunks that have to be empty.
theorem ErrorLaws.gives_readEmptyChunks (laws : ErrorLaws L host i signal C T)
    (validatorName : String) (count : Nat) :
    Gives L host i (fun _ => True) (fun _ _ => True) (Broken T signal)
      (readEmptyChunks host signal validatorName count : HttpAsync σ α Credential Unit) := by
  induction count with
  | zero => exact .throw fun _ _ => .inl (laws.errors.invalid rfl)
  | succ count ih =>
    refine .bind (laws.gives_awaitRacedChunk fun _ _ _ hc => hc) fun result => ?_
    cases result with
    | none => exact .tell laws.toBodyLaws _
    | some chunk =>
      exact .tell_bind laws.toBodyLaws _ (.ite
        (fun _ => .throw fun _ _ => .inl (laws.errors.invalid rfl)) fun _ => ih)

theorem ErrorLaws.gives_requireEmptyResponseBody (laws : ErrorLaws L host i signal C T)
    (response : Response) (validatorName : String) :
    Gives L host i P (fun _ _ => True) (RefusesOr host decoder response expected T signal C)
      (requireEmptyResponseBody host signal response validatorName :
        HttpAsync σ α Credential Unit) := by
  have habort : Gives L host i P (fun _ _ => True) (fun e s => Aborts T (signal s) e)
      (throwIfAborted signal : HttpAsync σ α Credential Unit) :=
    laws.gives_throwIfAborted.mono (fun _ _ _ => trivial) fun _ _ h => h
  refine .bind (habort.mono (fun _ _ h => h) fun _ _ h => .inl (.inr h)) fun _ => ?_
  cases hbody : response.body with
  | none => exact .pure fun _ h => h
  | some locked =>
    cases locked with
    | true => exact .throw fun _ _ => .inl (.inl (.locked hbody))
    | false =>
      refine .tell_bind laws.toBodyLaws _ ?_
      refine .attempt_bind (V := fun _ _ => True) (E := Unreadable T signal)
        (R := fun e e' s => e' = e ∨ Unreadable T signal e' s ∨ C e')
        laws.frame_unreadable ?_ (fun u => ?_) (fun e => ?_) ?_
      · refine .tryCatch laws.frame_broken ?_ (gives_rethrowRead validatorName) fun _ _ _ _ h => h
        refine .bind (laws.gives_throwIfAborted.mono (fun _ _ h => h) fun _ _ h => .inr h)
          fun _ => ?_
        exact laws.gives_readEmptyChunks validatorName 1024
      · exact .bind (laws.gives_cancelReader.mono (fun _ _ h => h) fun _ _ h => .inr h)
          fun _ => .pure fun _ h => h
      · refine .bind (laws.gives_cancelReader.mono (fun _ _ h => h) fun _ _ h => .inr (.inr h))
          fun _ => .throw fun _ _ => .inl rfl
      · rintro e e' s he (rfl | he' | hc)
        · exact .inl he.refuses
        · exact .inl he'.refuses
        · exact .inr hc

theorem ErrorLaws.gives_decodeNotModified (laws : ErrorLaws L host i signal C T)
    (response : Response) (validatorName : String) (requirements : ReadResponseRequirements) :
    Gives L host i P (fun result _ => ∃ metadata, result = .notModified metadata)
      (RefusesOr host decoder response expected T signal C)
      (decodeNotModified host signal decoder response validatorName requirements :
        HttpAsync σ α Credential ReadResult) := by
  have hconst : ∀ c : Prop, L.Stable i fun _ => c := fun _ _ _ _ hc => hc
  refine laws.gives_ownership (fun _ => hconst _) laws.frame_refusesOr ?_
  refine .bind (.awaited laws.toBodyLaws (fun _ => hconst True) laws.frame_refusesOr
    (laws.gives_requireEmptyResponseBody response _)) fun _ => ?_
  refine .ofExcept_bind (fun metadata _ => ?_) fun e s he _ =>
    .inl (.inl (.invalid (readResponseMetadata_error he)))
  refine .ite (fun _ => .throw fun _ _ => .inl (.inl (.invalid rfl))) fun _ => ?_
  exact .bind (laws.gives_throwIfAborted.mono (fun _ _ h => h) fun _ _ h => .inl (.inr h))
    fun _ => .pure fun _ _ => ⟨metadata, rfl⟩

/-- The status and the value of what a read makes of a response. -/
def HasRead (response : Response) (view : BodyView) (validator : ProtocolValidator)
    (validatorName : String) : ReadResult → Prop
  | .modified result =>
      response.status = 200 ∧ HasDecoded response view validator validatorName result
  | .notModified _ => response.status = 304

theorem BodyLaws.stable_hasRead (laws : BodyLaws L host i) (validator : ProtocolValidator)
    (validatorName : String) (result : ReadResult) :
    L.Stable i fun s => HasRead response (host.view s) validator validatorName result := by
  intro s s' hkeeps hs
  rw [laws.view_keeps hkeeps]
  exact hs

theorem ErrorLaws.gives_decodeReadResponse (laws : ErrorLaws L host i signal C T)
    (response : Response) (validator : ProtocolValidator) (validatorName : String)
    (requirements : ReadResponseRequirements) :
    Gives L host i (fun s => Untouched (host.view s))
      (fun result s => HasRead response (host.view s) validator validatorName result)
      (RefusesOr host decoder response [200, 304] T signal C)
      (decodeReadResponse host signal decoder response validator validatorName requirements :
        HttpAsync σ α Credential ReadResult) := by
  have hread : ∀ result, L.Stable i fun s =>
      HasRead response (host.view s) validator validatorName result :=
    laws.stable_hasRead validator validatorName
  refine .ite (fun hmodified => ?_) fun hmodified => .ite (fun hok => ?_) fun hok => ?_
  · refine .awaited laws.toBodyLaws hread laws.frame_refusesOr
      ((laws.gives_decodeNotModified response _ _).mono ?_ fun _ _ h => h)
    rintro _ s ⟨metadata, rfl⟩
    exact hmodified
  · refine .bind (.awaited laws.toBodyLaws (laws.stable_decoded validator validatorName)
      laws.frame_refusesOr
      ((laws.gives_decodeJsonSuccess response _ _ _).mono (fun _ _ h => h)
        fun _ _ h => .inl h.refuses))
      fun result => .pure fun s hs => ⟨hok, hs⟩
  · refine .awaited laws.toBodyLaws hread laws.frame_refusesOr
      ((laws.gives_problem hread fun hexpected => ?_).mono (fun _ _ h => h) fun _ _ h => .inl h)
    rcases List.mem_cons.mp hexpected with h | h
    · exact hok h
    · exact hmodified (List.mem_singleton.mp h)

theorem BodyLaws.stable_written (laws : BodyLaws L host i) (status : Nat)
    (validator : ProtocolValidator) (validatorName : String) (result : WriteResult) :
    L.Stable i fun s => response.status = status ∧
      HasDecoded response (host.view s) validator validatorName result :=
  fun s s' hkeeps hs => ⟨hs.1, laws.stable_decoded validator validatorName result s s' hkeeps hs.2⟩

theorem ErrorLaws.gives_decodeWriteResponse (laws : ErrorLaws L host i signal C T)
    (response : Response) (validator : ProtocolValidator) (validatorName : String)
    (requirements : WriteResponseRequirements) :
    Gives L host i (fun s => Untouched (host.view s))
      (fun result s => response.status = requirements.successStatus ∧
        HasDecoded response (host.view s) validator validatorName result)
      (Refuses host decoder response [requirements.successStatus] T signal)
      (decodeWriteResponse host signal decoder response validator validatorName requirements :
        HttpAsync σ α Credential WriteResult) := by
  have hwritten : ∀ result, L.Stable i fun s => response.status = requirements.successStatus ∧
      HasDecoded response (host.view s) validator validatorName result :=
    laws.stable_written _ validator validatorName
  refine .ite (fun hstatus => ?_) fun hstatus => ?_
  · exact .awaited laws.toBodyLaws hwritten laws.frame_refuses
      ((laws.gives_decodeJsonSuccess response _ _ _).mono (fun _ _ h => ⟨hstatus, h⟩)
        fun _ _ h => h.refuses)
  · exact .awaited laws.toBodyLaws hwritten laws.frame_refuses
      (laws.gives_problem hwritten (by simpa using hstatus))

end Errors

end Http
