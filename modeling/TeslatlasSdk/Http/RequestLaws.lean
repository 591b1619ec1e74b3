import TeslatlasSdk.Http.BodyLaws

/-!
# What a request throws

A request that is not dispatched throws what its caller's authorization does, what the value is
refused with, or the reason of an abort, each through the handler at its end.
-/

open Text Core

namespace Http

/-- What the handler of a request makes of an error. -/
def requestError (aborted : AbortState) (error : Thrown) : Thrown :=
  if error.isTeslatlasError then error
  else
    match aborted with
    | some reason => reasonOr error reason
    | none => if error.isAbortError then error else .teslatlas .transport

theorem requestError_typed {error : Thrown} (h : error.isTeslatlasError = true)
    (aborted : AbortState) : requestError aborted error = error := if_pos h

theorem requestError_some {error : Thrown} (h : ¬ error.isTeslatlasError = true)
    (reason : Thrown) : requestError (some reason) error = reasonOr error reason := if_neg h

theorem requestError_none {error : Thrown} (h : ¬ error.isTeslatlasError = true) :
    requestError none error = if error.isAbortError then error else .teslatlas .transport :=
  if_neg h

section

variable {σ α Credential κ : Type} {sys : System σ α Awaited (Answer Credential) κ}
  {L : Logic sys} {host : BodyHost σ α} {i : Nat}

-- A task goes on only where the signal is not aborted.
theorem triple_throwIfAborted {P : σ → Prop} (signal : σ → AbortState) :
    L.Triple i P (throwIfAborted signal : HttpAsync σ α Credential Unit) fun r s =>
      P s ∧ match r with
        | .ok _ => signal s = none
        | .error e => ∃ reason, signal s = some reason ∧ e = abortReason reason := by
  refine .get_bind fun s _ hs => ?_
  cases hsignal : signal s with
  | none => exact .pure fun s' heq => heq ▸ ⟨hs, hsignal⟩
  | some reason => exact .throw fun s' heq => heq ▸ ⟨hs, reason, hsignal, rfl⟩

/-- What is left of a request: it has been sent, and fetch has failed if there is an error, or its
error is refused. -/
def SentOr (Q : σ → Prop) (D : Thrown → Prop) (A : Thrown → σ → Prop) {β : Type}
    (r : Except Thrown β) (s : σ) : Prop :=
  match r with
  | .ok _ => Q s
  | .error e => (Q s ∧ D e) ∨ A e s

/-- The same behind the handler, where an error after the dispatch has gone through it. -/
def HandledOr (signal : σ → AbortState) (Q : σ → Prop) (D : Thrown → Prop) (A : Thrown → σ → Prop)
    {β : Type} (r : Except Thrown β) (s : σ) : Prop :=
  match r with
  | .ok _ => Q s
  | .error e => (Q s ∧ ∃ error, D error ∧ e = requestError (signal s) error) ∨ A e s

/-- What an answer of fetch comes to. -/
def fetched : Answer Credential → Except Thrown Response
  | .response result => result
  | _ => .error .undefined

-- A request, with what its errors are when it has not been sent.
theorem BodyLaws.request_refused (laws : BodyLaws L host i) {P Q : σ → Prop}
    {V W : Option JsString → σ → Prop} {A B : Thrown → σ → Prop} {D : Thrown → Prop}
    (signal : σ → AbortState)
    {authorization : Option (HttpAsync σ α Credential (Option JsString))}
    {onDispatch : HttpAsync σ α Credential Unit}
    {dispatch : Option JsString → HttpAsync σ α Credential Unit}
    (hP : L.Stable i P) (hV : ∀ value, L.Stable i (V value)) (hQ : L.Stable i Q)
    (hA : ∀ e, L.Stable i (A e))
    (hfetch : ∀ s next, L.Inv s → Q s → L.Parked s i .fetch next)
    (habort : ∀ s reason, L.Inv s → P s ∨ (∃ value, V value s) → signal s = some reason →
      A (abortReason reason) s)
    (hnone : authorization = none → ∀ s, P s → V none s)
    (hauthorization : ∀ t ∈ authorization, L.Triple i P t fun r s =>
      match r with
      | .ok value => V value s
      | .error e => A e s)
    (hvalue : ∀ value e s, V value s → requireAuthorizationValue value = .error e → A e s)
    (hheader : ∀ value e s, V value s → value.mapM headerValue = .error e → A e s)
    (honDispatch : ∀ value header, value.mapM headerValue = .ok header →
      L.Triple i (fun s => V value s ∧ signal s = none) onDispatch fun r s =>
        match r with
        | .ok _ => W header s
        | .error e => A e s)
    (hdispatch : ∀ value, L.Triple i (W value) (dispatch value) fun r s => r = .ok () ∧ Q s)
    (hfetched : ∀ s answer e, sys.accepts s i .fetch answer = true → fetched answer = .error e → D e)
    (hcatch : ∀ s e, L.Inv s → A e s → B (requestError (signal s) e) s) :
    L.Triple i P (Http.request signal authorization onDispatch dispatch)
      (HandledOr signal Q D B) := by
  have hcheck : ∀ {R : σ → Prop}, (∀ s, R s → P s ∨ ∃ value, V value s) →
      L.Triple i R (throwIfAborted signal : HttpAsync σ α Credential Unit) fun r s =>
        match r with
        | .ok _ => R s ∧ signal s = none
        | .error e => A e s := by
    intro R hR
    refine (triple_throwIfAborted signal).with_inv.weaken (fun _ hs => hs) ?_
    rintro r s ⟨hinv, hs, hr⟩
    cases r with
    | ok u => exact ⟨hs, hr⟩
    | error e =>
      obtain ⟨reason, hreason, rfl⟩ := hr
      exact habort s reason hinv (hR s hs) hreason
  have hwait : L.Triple i P (waitForAuthorization signal authorization) fun r s =>
      match r with
      | .ok value => V value s
      | .error e => A e s := by
    refine .bind (hcheck fun s hs => .inl hs) (fun _ => ?_) fun _ _ hs => hs
    refine .weaken (W := P) ?_ (fun _ hs => hs.1) fun _ _ hr => hr
    cases authorization with
    | none => exact laws.tick_bind hP (.pure fun s hs => hnone rfl s hs)
    | some t =>
      refine laws.awaited (hauthorization t rfl) fun r => ?_
      cases r with
      | ok value => exact hV value
      | error e => exact hA e
  have hresponse : L.Triple i Q (awaitResponse .fetch : HttpAsync σ α Credential Response)
      fun r s => Q s ∧ ∀ e, r = .error e → D e := by
    refine .bind (Q := fun r s => Q s ∧ ∃ answer, r = .ok answer ∧
        ∀ e, fetched answer = .error e → D e)
      (.await hfetch fun s s' answer hs hkeeps _ haccepts => ⟨hQ s s' hkeeps hs, answer, rfl,
        fun e he => hfetched s' answer e haccepts he⟩) (fun answer => ?_) ?_
    · cases answer with
      | response result =>
        refine .ofExcept fun s hs => ⟨hs.1, ?_⟩
        obtain ⟨-, other, hanswer, hother⟩ := hs
        obtain rfl := Except.ok.inj hanswer
        exact hother
      | tick | aborted | authorization | chunk | credential | mutation =>
        refine .throw fun s hs => ⟨hs.1, ?_⟩
        obtain ⟨-, other, hanswer, hother⟩ := hs
        obtain rfl := Except.ok.inj hanswer
        exact hother
    · rintro e s ⟨-, answer, herror, -⟩
      cases herror
  refine .tryCatch (Q := SentOr Q D A) ?_ (fun error => ?_) fun _ _ hs => hs
  · refine .bind (hcheck fun s hs => .inl hs) (fun _ => ?_) fun _ s hs => .inr hs
    refine .weaken (W := P) ?_ (fun _ hs => hs.1) fun _ _ hr => hr
    refine .bind (laws.awaited hwait fun r => ?_) (fun value => ?_) fun _ s hs => .inr hs
    · cases r with
      | ok value => exact hV value
      | error e => exact hA e
    refine .ofExcept_bind (fun _ _ => ?_) fun e s he hs => .inr (hvalue value e s hs he)
    refine .ofExcept_bind (fun header hset => ?_) fun e s he hs => .inr (hheader value e s hs he)
    refine .bind (hcheck fun s hs => .inr ⟨value, hs⟩) (fun _ => ?_) fun _ s hs => .inr hs
    refine .bind (honDispatch value header hset) (fun _ => ?_) fun _ s hs => .inr hs
    refine .bind (hdispatch header) (fun _ => ?_) ?_
    · refine hresponse.weaken (fun s hs => hs.2) fun r s hs => ?_
      cases r with
      | ok response => exact hs.1
      | error e => exact .inl ⟨hs.1, hs.2 e rfl⟩
    · rintro e s ⟨herror, -⟩
      cases herror
  · -- an error that is refused is refused by the handler too
    have hpost : ∀ s, L.Inv s → (Q s ∧ D error) ∨ A error s →
        (Q s ∧ ∃ thrown, D thrown ∧
            requestError (signal s) error = requestError (signal s) thrown) ∨
          B (requestError (signal s) error) s := fun s hinv hs =>
      hs.imp (fun hq => ⟨hq.1, error, hq.2, rfl⟩) (hcatch s error hinv)
    refine .ite (fun h => ?_) fun h => ?_
    · intro fresh s k hinv hfresh hi hs hk
      have hs' := hpost s hinv hs
      rw [requestError_typed h] at hs'
      exact hk fresh s (.error error) hinv hfresh hi hs'
    · refine .get_bind fun s hinv hs => ?_
      have hs' := hpost s hinv hs
      cases hsignal : signal s with
      | some reason =>
        rw [hsignal, requestError_some h] at hs'
        refine .throw fun s' heq => ?_
        subst heq
        rw [HandledOr, hsignal]
        exact hs'
      | none =>
        rw [hsignal, requestError_none h] at hs'
        refine .ite (fun habort => ?_) fun habort => ?_
        · rw [if_pos habort] at hs'
          refine .throw fun s' heq => ?_
          subst heq
          rw [HandledOr, hsignal]
          exact hs'
        · rw [if_neg habort] at hs'
          refine .throw fun s' heq => ?_
          subst heq
          rw [HandledOr, hsignal]
          exact hs'

end

end Http
