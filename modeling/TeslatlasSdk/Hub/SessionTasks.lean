import TeslatlasSdk.Http.RequestLaws
import TeslatlasSdk.Hub.SessionInvariant

/-!
# The tasks of a hub session

What an operation has obtained, step by step, and the rules for the tasks that its calls are made
of: checks, credentials, requests, bodies and the store.
-/

open Text Core Http

namespace Hub

/-! ## What an operation has -/

/-- An assertion about the operation of a thread. -/
def At (i : Nat) (A : Operation → Prop) (s : Session) : Prop := A (s.operations i)

/-- An operation that has sent nothing yet. -/
structure Unsent (opened : Bool) (K : Option (Option HubCredential) → Prop) (x : Operation) :
    Prop where
  begun : x.begun = true
  refused : x.refused = false
  opened : x.opened = opened
  result : x.result = none
  loaded : K x.loaded
  sent : x.sent = none
  claimed : x.claimed = none
  response : x.response = none
  body : x.body = {}
  claim : x.claim = none
  mutation : x.mutation = .none
  bound : x.bound = none

/-- A discovery that the route may be used with has admitted the operation. -/
def Admitted (config : HubConfig) (route : HubRoute) (x : Operation) : Prop :=
  route.isAuthenticated = true → ∃ discovery, AdmittedBy config x discovery ∧
    ∀ capability, route.capability = some capability → capability ∈ discovery.capabilities

/-- A cursor of the route was not bound to another query when it was looked at. -/
def CursorKept (i : Nat) (route : HubRoute) (s : Session) : Prop :=
  (s.operations i).epoch ≤ s.epoch ∧ ∀ query, route.cursor? = some query →
    (s.operations i).epoch = s.epoch → query.1 ∈ (s.operations i).bindings.map (·.1) →
      query ∈ s.issued

/-- What an operation needs to send its request. -/
structure Granted (config : HubConfig) (i : Nat) (opened : Bool)
    (K : Option (Option HubCredential) → Prop) (route : HubRoute) (s : Session) : Prop where
  unsent : Unsent opened K (s.operations i)
  asked : route.WellAsked
  admitted : Admitted config route (s.operations i)
  cursor : CursorKept i route s

/-- The header of the operation's own credential. -/
def Bears (route : HubRoute) (authorization : Option JsString) (x : Operation) : Prop :=
  ∀ value, authorization = some value → route.isAuthenticated = true ∧
    ∃ credential, HasLoaded x credential ∧ value = credential.bearer

/-- An operation that has sent a request or a claim, and what it has been answered. -/
structure Given (opened : Bool) (K : Option (Option HubCredential) → Prop) (sent : Option HubRoute)
    (response : Option Response) (x : Operation) : Prop where
  begun : x.begun = true
  refused : x.refused = false
  opened : x.opened = opened
  result : x.result = none
  loaded : K x.loaded
  sent : x.sent = sent
  answered : x.sent ≠ none ∨ x.claimed ≠ none
  response : x.response = response
  claim : x.claim = none
  mutation : x.mutation = .none
  bound : x.bound = none

/-- An operation that has a response. -/
structure Holding (opened : Bool) (response : Response) (x : Operation) : Prop where
  opened : x.opened = opened
  result : x.result = none
  response : x.response = some response
  bound : x.bound = none

/-- An operation that ends with an error. -/
structure Failed (opened : Bool) (x : Operation) : Prop where
  opened : x.opened = opened
  result : x.result = none
  released : ∀ response, x.response = some response → Released response x.body
  bound : x.bound = none

theorem Unsent.failed {opened : Bool} {K : Option (Option HubCredential) → Prop} {x : Operation}
    (h : Unsent opened K x) : Failed opened x where
  opened := h.opened
  result := h.result
  released response hresponse := by
    rw [h.response] at hresponse
    cases hresponse
  bound := h.bound

theorem Given.failed {opened : Bool} {K : Option (Option HubCredential) → Prop}
    {sent : Option HubRoute} {x : Operation} (h : Given opened K sent none x) : Failed opened x where
  opened := h.opened
  result := h.result
  released response hresponse := by
    rw [h.response] at hresponse
    cases hresponse
  bound := h.bound

theorem Given.holding {opened : Bool} {K : Option (Option HubCredential) → Prop}
    {sent : Option HubRoute} {response : Response} {x : Operation}
    (h : Given opened K sent (some response) x) : Holding opened response x :=
  ⟨h.opened, h.result, h.response, h.bound⟩

theorem Holding.failed {opened : Bool} {response : Response} {x : Operation}
    (h : Holding opened response x) (hreleased : Released response x.body) : Failed opened x where
  opened := h.opened
  result := h.result
  released other hother := by
    rw [h.response, Option.some.injEq] at hother
    exact hother ▸ hreleased
  bound := h.bound

section Tasks

variable {config : HubConfig} {start : HubStart} {i : Nat} {β : Type} {opened : Bool}
  {K : Option (Option HubCredential) → Prop} {route : HubRoute}

theorem stable_at (A : Operation → Prop) : (hubLogic config start).Stable i (At i A) := by
  intro s s' hkeeps hs
  have hoperation : s'.operations i = s.operations i := Keeps.operation hkeeps
  rw [At, hoperation]
  exact hs

theorem stable_cursorKept (route : HubRoute) :
    (hubLogic config start).Stable i (CursorKept i route) := by
  intro s s' hkeeps ⟨hle, hcursor⟩
  have hkeeps : Keeps i s s' := hkeeps
  have hepoch := hkeeps.epoch
  rw [CursorKept, hkeeps.operation]
  refine ⟨Nat.le_trans hle hepoch, fun query hquery heq hmem => ?_⟩
  have hsame : s'.epoch = s.epoch := by omega
  exact hkeeps.issued hsame query (hcursor query hquery (heq.trans hsame) hmem)

theorem stable_granted : (hubLogic config start).Stable i (Granted config i opened K route) := by
  intro s s' hkeeps hs
  have hoperation : s'.operations i = s.operations i := Keeps.operation hkeeps
  refine ⟨?_, hs.asked, ?_, stable_cursorKept route s s' hkeeps hs.cursor⟩
  · rw [hoperation]
    exact hs.unsent
  · rw [hoperation]
    exact hs.admitted

theorem Granted.failed {s : Session} (h : Granted config i opened K route s) :
    At i (Failed opened) s :=
  h.unsent.failed

theorem at_record {A B : Operation → Prop} {s : Session} (action : HubAction) (h : At i A s)
    (hchange : ∀ x, A x → B (action.change s x)) : At i B (s.record ⟨i, action⟩) := by
  rw [At, record_self]
  exact hchange _ h

theorem failed_refused {s : Session} (h : At i (Failed opened) s) :
    At i (Failed opened) (s.record ⟨i, .refused⟩) :=
  at_record .refused h fun _ hx => ⟨hx.opened, hx.result, hx.released, hx.bound⟩

/-! ## Checks -/

theorem CheckError.not_current {s : Session} {e : Thrown} (h : CheckError s i e) :
    ¬ Current s i := by
  intro hcurrent
  cases h with
  | expired hexpired =>
    rw [hcurrent.unexpired] at hexpired
    cases hexpired
  | aborted _ hreason =>
    rw [hcurrent.signal] at hreason
    cases hreason

theorem CheckError.refused {s : Session} {e : Thrown} (h : CheckError s i e) :
    CheckError (s.record ⟨i, .refused⟩) i e := by
  have hsame : (s.record ⟨i, .refused⟩).isExpired i = s.isExpired i := by
    rw [Session.isExpired, record_self]
    rfl
  cases h with
  | expired hexpired => exact .expired (hsame.trans hexpired)
  | aborted hexpired hreason => exact .aborted (hsame.trans hexpired) hreason

-- A check that fails is told to the session.
theorem triple_check {P : Session → Prop} {E : Thrown → Session → Prop}
    (hrefused : ∀ s e, P s → CheckError s i e → E e (s.record ⟨i, .refused⟩)) :
    (hubLogic config start).Triple i P (assertOperation i) fun r s =>
      match r with
      | .ok _ => P s ∧ Current s i
      | .error e => E e s := by
  have hfail : ∀ (s : Session) (error : Thrown), P s → CheckError s i error →
      (hubLogic config start).Triple i (· = s) (do
        act i .refused
        throw error : HubAsync Unit) fun r s =>
          match r with
          | .ok _ => P s ∧ Current s i
          | .error e => E e s := by
    intro s error hs hchecked
    refine .perform_bind (W := E error) rfl (fun s' _ heq => ?_) (.throw fun _ he => he)
    subst heq
    exact ⟨hchecked.not_current, hrefused s' error hs hchecked⟩
  refine .get_bind fun s _ hs => ?_
  refine .ite (fun hexpired => hfail s _ hs (.expired hexpired)) fun hcurrent => ?_
  have hunexpired : s.isExpired i = false := by simpa using hcurrent
  cases hsignal : s.signal i with
  | some reason => exact hfail s _ hs (.aborted hunexpired hsignal)
  | none =>
    have hcurrent : Current s i := ⟨hunexpired, hsignal⟩
    exact .perform rfl fun s' _ heq => heq ▸ ⟨hcurrent, hs, hcurrent⟩

theorem triple_assertOperation {P E : Session → Prop}
    (hrefused : ∀ s, P s → ¬ Current s i → E (s.record ⟨i, .refused⟩)) :
    (hubLogic config start).Triple i P (assertOperation i)
      (Outcome (fun _ s => P s ∧ Current s i) E) := by
  refine (triple_check (E := fun _ => E) fun s e hs hchecked =>
    hrefused s hs hchecked.not_current).weaken (fun _ hs => hs) fun r s hs => ?_
  cases r with
  | ok u => exact hs
  | error e => exact hs

-- A check in front of another task.
theorem assert_bind {P E : Session → Prop} {f : Unit → HubAsync β}
    {R : Except Thrown β → Session → Prop}
    (hrefused : ∀ s, P s → ¬ Current s i → E (s.record ⟨i, .refused⟩))
    (hf : (hubLogic config start).Triple i (fun s => P s ∧ Current s i) (f ()) R)
    (herror : ∀ e s, E s → R (.error e) s) :
    (hubLogic config start).Triple i P (assertOperation i >>= f) R :=
  .bind (triple_assertOperation hrefused) (fun _ => hf) herror

theorem bodyLaws : BodyLaws (hubLogic config start) (bodyHost i) i where
  actor _ := rfl
  permits _ _ := trivial
  view_record {s} event := congrArg Operation.body (record_self s i (.body event))
  view_keeps h := congrArg Operation.body (Keeps.operation h)
  parked _ _ _ := trivial

/-! ## Credentials -/

theorem triple_rethrow (error : Thrown) :
    (hubLogic config start).Triple i (At i (Failed opened)) (rethrow i error : HubAsync β)
      (Outcome (fun _ _ => False) (At i (Failed opened))) := by
  refine .get_bind fun s _ hs => .weaken (W := At i (Failed opened)) ?_ (fun s' heq => heq ▸ hs)
    fun _ _ hr => hr
  refine .ite (fun _ => ?_) fun _ => .throw fun s hs => hs
  exact assert_bind (fun s hs _ => failed_refused hs) (.throw fun s hs => hs.1) fun _ _ hs => hs

theorem granted_loaded {s : Session} (h : Granted config i opened K route s)
    (credential : Option HubCredential) :
    Granted config i opened (· = some credential) route
      (s.record ⟨i, .loaded credential⟩) where
  unsent := by
    rw [record_self]
    exact { h.unsent with loaded := rfl }
  asked := h.asked
  admitted := by
    rw [record_self]
    exact h.admitted
  cursor := by
    rw [CursorKept, record_self]
    exact h.cursor

theorem quiet_awaitCredential : (hubLogic config start).Quiet i awaitCredential := by
  refine .bind (.await fun _ _ _ => trivial) fun answer => ?_
  cases answer with
  | credential result => exact .ofExcept result
  | tick | aborted | authorization | response | chunk | mutation => exact .throw _

theorem triple_loadCredential :
    (hubLogic config start).Triple i (Granted config i opened K route) (loadCredential i)
      (Outcome (fun credential => Granted config i opened (· = some credential) route)
        (At i (Failed opened))) := by
  refine assert_bind (E := At i (Failed opened)) (fun s hs _ => failed_refused hs.failed) ?_
    fun _ _ hs => hs
  refine .tryCatch (Q := Outcome (fun credential => Granted config i opened
      (· = some credential) route) (At i (Failed opened))) ?_ (fun error => ?_) fun _ _ hs => hs
  · refine .perform_bind (W := Granted config i opened K route) rfl
      (fun s _ hs => ⟨⟨hs.2, hs.1.unsent.begun⟩, hs.1⟩) ?_
    refine quiet_awaitCredential.bind_triple stable_granted (fun credential => ?_)
      fun _ s hs => hs.failed
    refine assert_bind (E := At i (Failed opened)) (fun s hs _ => failed_refused hs.failed) ?_
      fun _ _ hs => hs
    refine .perform_bind (W := Granted config i opened (· = some credential) route) rfl
      (fun s _ hs => ⟨⟨⟨hs.2, hs.1.unsent.begun⟩, hs.1.unsent.sent, hs.1.unsent.claimed⟩,
        granted_loaded hs.1 credential⟩) (.pure fun s hs => hs)
  · refine (triple_rethrow error).weaken (fun s hs => hs) fun r s hs => ?_
    cases r with
    | ok value => exact hs.elim
    | error e => exact hs

theorem validateCredential_ok {now : Int} {credential : HubCredential}
    (h : validateCredential now credential = .ok ()) :
    isToken credential.accessToken = true ∧ isUuid credential.deviceId = true := by
  unfold validateCredential at h
  split at h
  · cases h
  · next hvalid =>
    simp only [Bool.or_eq_true, Bool.not_eq_true', not_or, Bool.not_eq_false] at hvalid
    exact ⟨hvalid.1.1, hvalid.1.2⟩

-- The header of a request is that of a credential that the operation has loaded.
theorem triple_authorization {snapshot : Option HubCredential}
    (hroute : route.isAuthenticated = true) (hload : snapshot = none → ∀ c, K (some c))
    (hsnapshot : ∀ c, snapshot = some c → ∀ l, K l → l = some (some c)) :
    (hubLogic config start).Triple i (Granted config i opened K route) (authorization i snapshot)
      (Outcome (fun value s => Granted config i opened K route s ∧ At i (Bears route value) s)
        (At i (Failed opened))) := by
  have hbearless : ∀ s, Granted config i opened K route s →
      Granted config i opened K route s ∧ At i (Bears route none) s := fun s hs => ⟨hs, nofun⟩
  refine .bind (Q := Outcome (fun credential s => Granted config i opened K route s ∧
      At i (fun x => ∀ c, credential = some c → x.loaded = some (some c)) s)
      (At i (Failed opened))) ?_ (fun credential => ?_) fun _ _ hs => hs
  · cases snapshot with
    | some credential =>
      refine .pure fun s hs => ⟨hs, ?_⟩
      rintro c ⟨⟩
      exact hsnapshot credential rfl _ hs.unsent.loaded
    | none =>
      refine bodyLaws.awaited (triple_loadCredential.weaken (fun _ hs => hs) fun r s hs => ?_)
        fun r => ?_
      · cases r with
        | error e => exact hs
        | ok credential =>
          have hs : Granted config i opened (· = some credential) route s := hs
          refine ⟨⟨{ hs.unsent with loaded := ?_ }, hs.asked, hs.admitted, hs.cursor⟩, ?_⟩
          · rw [hs.unsent.loaded]
            exact hload rfl credential
          · rintro c rfl
            exact hs.unsent.loaded
      · cases r with
        | error e => exact stable_at _
        | ok credential => exact stable_granted.and (stable_at _)
  · cases credential with
    | none => exact .pure fun s hs => hbearless s hs.1
    | some credential =>
      refine .get_bind fun s _ hs => ?_
      refine .ofExcept_bind (fun u hvalid => .pure fun s' heq => ?_) fun e s' _ heq =>
        heq ▸ hs.1.failed
      obtain ⟨htoken, huuid⟩ := validateCredential_ok hvalid
      subst heq
      refine ⟨hs.1, ?_⟩
      rintro value ⟨⟩
      exact ⟨hroute, credential, ⟨hs.2 credential rfl, htoken, huuid⟩, rfl⟩

/-! ## Requests -/

theorem isLowerHex_bounds {u : CodeUnit} (h : isLowerHex u = true) : 0x20 < u ∧ u < 0x7F := by
  simp only [isLowerHex, isDigit, Bool.or_eq_true, Bool.and_eq_true, decide_eq_true_eq] at h
  grind

-- The header of a well-formed credential is set as it is.
theorem headerValue_bearer {credential : HubCredential}
    (h : isToken credential.accessToken = true) :
    headerValue credential.bearer = .ok credential.bearer := by
  simp only [isToken, Bool.and_eq_true, decide_eq_true_eq, List.all_eq_true] at h
  have hscheme : (js "Bearer ").all (fun u => 0x1F < u && u < 0x7F) = true := by decide
  have hunits : ∀ u ∈ credential.bearer, 0x1F < u ∧ u < 0x7F := by
    intro u hu
    rcases List.mem_append.mp hu with hfirst | hlast
    · simpa using List.all_eq_true.mp hscheme u hfirst
    · have hbounds := isLowerHex_bounds (h.2 u hlast)
      grind
  have hne : credential.accessToken ≠ [] := by
    intro hnil
    rw [hnil] at h
    cases h.1
  have hlast : credential.bearer.getLast? = some (credential.accessToken.getLast hne) := by
    rw [HubCredential.bearer, List.getLast?_append, List.getLast?_eq_some_getLast hne,
      Option.some_or]
  have hfirst : credential.bearer.head? = some 0x42 := rfl
  have hplain : isHttpWhitespace (credential.accessToken.getLast hne) = false :=
    isHttpWhitespace_visible (isLowerHex_bounds (h.2 _ (List.getLast_mem hne))).1
  exact headerValue_visible hunits hfirst hlast ⟨by decide, hplain⟩

theorem Bears.header {value : Option JsString} {x : Operation} (h : Bears route value x) :
    value.mapM headerValue = .ok value := by
  cases value with
  | none => rfl
  | some value =>
    obtain ⟨-, credential, hloaded, rfl⟩ := h value rfl
    rw [Option.mapM_some, headerValue_bearer hloaded.2.1]
    rfl

theorem granted_dispatch {s : Session} {value : Option JsString}
    (h : Granted config i opened K route s) (hbears : At i (Bears route value) s)
    (hcurrent : Current s i) : MayDispatch config s i route value where
  live := ⟨hcurrent, h.unsent.begun⟩
  sent := h.unsent.sent
  claimed := h.unsent.claimed
  asked := h.asked
  admitted := h.admitted
  bearer := hbears
  cursor := h.cursor.2

/-- An operation whose request has not been answered. -/
def Asked (opened : Bool) (K : Option (Option HubCredential) → Prop) (sent : Option HubRoute)
    (x : Operation) : Prop :=
  Given opened K sent none x ∧ x.body = {}

theorem Unsent.dispatched {x : Operation} (h : Unsent opened K x) (route : HubRoute) :
    Asked opened K (some route) { x with sent := some route } where
  left :=
    { begun := h.begun, refused := h.refused, opened := h.opened, result := h.result, loaded := h.loaded,
      sent := rfl, answered := .inl nofun, response := h.response, claim := h.claim,
      mutation := h.mutation, bound := h.bound }
  right := h.body

-- The response of a request or a claim is that of the operation.
theorem respond_bind {sent : Option HubRoute} {response : Response} {f : Unit → HubAsync β}
    {R : Except Thrown β → Session → Prop}
    (hf : (hubLogic config start).Triple i
      (Viewed (bodyHost i) (At i (Given opened K sent (some response))) Untouched) (f ()) R) :
    (hubLogic config start).Triple i (At i (Asked opened K sent))
      (act i (.responded response) >>= f) R := by
  refine .perform_bind rfl (fun s _ hs => ⟨Given.response hs.1, ?_, ?_⟩) hf
  · exact at_record (.responded response) hs fun x hx => { hx.1 with response := rfl }
  · exact at_record (B := fun x => x.body = {}) (.responded response) hs fun x hx => hx.2

theorem triple_send {authorization : Option (HubAsync (Option JsString))}
    (hauthorization : ∀ t ∈ authorization,
      (hubLogic config start).Triple i (Granted config i opened K route) t
        (Outcome (fun value s => Granted config i opened K route s ∧ At i (Bears route value) s)
          (At i (Failed opened)))) :
    (hubLogic config start).Triple i (Granted config i opened K route) (send i authorization route)
      (Outcome (fun response =>
          Viewed (bodyHost i) (At i (Given opened K (some route) (some response))) Untouched)
        (At i (Failed opened))) := by
  have hasked : ∀ s, At i (Asked opened K (some route)) s → At i (Failed opened) s :=
    fun s hs => Given.failed hs.1
  have hrequest : (hubLogic config start).Triple i (Granted config i opened K route)
      (Http.request (Session.signal i) authorization (assertOperation i)
        fun value => act i (.dispatched route value))
      (Outcome (fun _ : Response => At i (Asked opened K (some route)))
        (At i (Failed opened))) := by
    refine (bodyLaws.request_refused (Session.signal i) (A := fun _ => At i (Failed opened))
      (B := fun _ => At i (Failed opened))
      (V := fun value s => Granted config i opened K route s ∧ At i (Bears route value) s)
      (W := fun value s =>
        (Granted config i opened K route s ∧ At i (Bears route value) s) ∧ Current s i)
      (Q := At i (Asked opened K (some route))) (D := fun _ => True)
      stable_granted (fun _ => stable_granted.and (stable_at _)) (stable_at _)
      (fun _ => stable_at _) (fun _ _ _ _ => trivial) ?_ ?_ (fun t ht => ?_) ?_ ?_
      (fun value header hset => ?_) (fun value => ?_) (fun _ _ _ _ _ => trivial)
      (fun _ _ _ hs => hs)).weaken (fun _ hs => hs) fun r s hs => ?_
    · intro s reason _ hs _
      rcases hs with hs | ⟨value, hs⟩
      · exact hs.failed
      · exact hs.1.failed
    · exact fun _ s hs => ⟨hs, nofun⟩
    · refine (hauthorization t ht).weaken (fun _ hs => hs) fun r s hs => ?_
      cases r with
      | ok value => exact hs
      | error e => exact hs
    · exact fun value e s hs _ => hs.1.failed
    · exact fun value e s hs _ => hs.1.failed
    · refine (triple_assertOperation (P := fun s => Granted config i opened K route s ∧
        At i (Bears route value) s) (E := At i (Failed opened))
        fun s hs _ => failed_refused hs.1.failed).weaken (fun _ hs => hs.1) fun r s hs => ?_
      cases r with
      | ok u =>
        obtain rfl : value = header := Except.ok.inj ((Bears.header hs.1.2).symm.trans hset)
        exact hs
      | error e => exact hs
    · refine .perform rfl fun s _ hs => ⟨granted_dispatch hs.1.1 hs.1.2 hs.2, rfl, ?_⟩
      exact at_record (A := Unsent opened K) (.dispatched route value) hs.1.1.unsent
        fun x hx => hx.dispatched route
    · cases r with
      | ok response => exact hs
      | error e => exact hs.elim (fun hsent => hasked s hsent.1) id
  refine .bind (bodyLaws.awaited hrequest fun r => ?_)
    (fun response => respond_bind (.pure fun s hs => hs)) fun _ _ hs => hs
  cases r with
  | ok response => exact stable_at (Asked opened K (some route))
  | error e => exact stable_at (Failed opened)

/-! ## Bodies -/

/-- The operation has a response, and its body is as described. -/
def Answered (i : Nat) (opened : Bool) (K : Option (Option HubCredential) → Prop)
    (sent : Option HubRoute) (response : Response) (V : BodyView → Prop) : Session → Prop :=
  Viewed (bodyHost i) (At i (Given opened K sent (some response))) V

/-- What is left of a response when its consumer throws. -/
def Lost (i : Nat) (opened : Bool) (response : Response) : Session → Prop :=
  Viewed (bodyHost i) (At i (Holding opened response)) BodyView.Guarded

variable {sent : Option HubRoute} {response : Response} {V : BodyView → Prop}

theorem Answered.lost {s : Session} (h : Answered i opened K sent response V s)
    (hV : ∀ view, V view → view.Guarded) : Lost i opened response s :=
  ⟨Given.holding h.1, hV _ h.2⟩

theorem lost_refused {s : Session} (h : Lost i opened response s) :
    Lost i opened response (s.record ⟨i, .refused⟩) := by
  refine ⟨at_record .refused h.1 fun _ hx => ⟨hx.opened, hx.result, hx.response, hx.bound⟩, ?_⟩
  exact at_record (A := fun x => x.body.Guarded) (B := fun x => x.body.Guarded) .refused h.2
    fun _ hx => hx

theorem frame_given : Frame (hubLogic config start) (bodyHost i) i
    (At i (Given opened K sent (some response))) where
  stable := stable_at _
  body event hs := at_record (.body event) hs fun _ hx => { hx with }

theorem frame_holding : Frame (hubLogic config start) (bodyHost i) i
    (At i (Holding opened response)) where
  stable := stable_at _
  body event hs := at_record (.body event) hs fun _ hx => { hx with }

theorem guards_holding {R : β → Session → Prop} {r : Except Thrown β} {s : Session}
    (h : Guards (bodyHost i) (At i (Given opened K sent (some response))) R r s) :
    Guards (bodyHost i) (At i (Holding opened response)) R r s := by
  cases r with
  | ok value => exact h
  | error e => exact ⟨Given.holding h.1, h.2⟩

theorem stable_answered (V : BodyView → Prop) :
    (hubLogic config start).Stable i (Answered i opened K sent response V) :=
  bodyLaws.stable_viewed frame_given V

theorem stable_consumed {R : β → Session → Prop}
    (hR : ∀ value, (hubLogic config start).Stable i (R value)) (r : Except Thrown β) :
    (hubLogic config start).Stable i
      (Guards (bodyHost i) (At i (Holding opened response)) R r) :=
  bodyLaws.stable_guards frame_holding hR r

-- A check of the session while the body is in hand.
theorem answered_bind {f : Unit → HubAsync β} {R : β → Session → Prop}
    (hV : ∀ view, V view → view.Guarded)
    (hf : (hubLogic config start).Triple i
      (fun s => Answered i opened K sent response V s ∧ Current s i) (f ())
      (Guards (bodyHost i) (At i (Holding opened response)) R)) :
    (hubLogic config start).Triple i (Answered i opened K sent response V)
      (assertOperation i >>= f) (Guards (bodyHost i) (At i (Holding opened response)) R) :=
  assert_bind (E := Lost i opened response) (fun _ hs _ => lost_refused (hs.lost hV)) hf
    fun _ _ hs => hs

/-- The body of the operation's response has been read and decoded. -/
def Decoded (i : Nat) (opened : Bool) (K : Option (Option HubCredential) → Prop)
    (sent : Option HubRoute) (response : Response) (decode : JsString → Except Thrown β)
    (value : β) : Session → Prop :=
  Answered i opened K sent response fun view =>
    WasRead response view ∧ ReadAs response view decode value

theorem stable_decoded {decode : JsString → Except Thrown β} (value : β) :
    (hubLogic config start).Stable i (Decoded i opened K sent response decode value) :=
  stable_answered _

-- A check of the session with what has been decoded in hand.
theorem decoded_bind {γ : Type} {decode : JsString → Except Thrown γ} {value : γ}
    {f : Unit → HubAsync β} {R : β → Session → Prop}
    (hf : (hubLogic config start).Triple i
      (fun s => Decoded i opened K sent response decode value s ∧ Current s i) (f ())
      (Guards (bodyHost i) (At i (Holding opened response)) R)) :
    (hubLogic config start).Triple i (Decoded i opened K sent response decode value)
      (assertOperation i >>= f) (Guards (bodyHost i) (At i (Holding opened response)) R) :=
  assert_bind (E := Lost i opened response)
    (fun _ hs _ => lost_refused (Answered.lost hs fun _ h => h.1.1)) hf fun _ _ hs => hs

theorem triple_readBody (response : Response) (validatorName : String) :
    (hubLogic config start).Triple i (Answered i opened K sent response Untouched)
      (readBody i response validatorName)
      (Guards (bodyHost i) (At i (Holding opened response)) fun text =>
        Answered i opened K sent response fun view =>
          WasRead response view ∧ HasText response view text) :=
  (bodyLaws.readBoundedText _ frame_given response validatorName _).weaken (fun _ hs => hs)
    fun _ _ hs => guards_holding hs

theorem triple_decodeResponse (response : Response) (decode : JsString → Except Thrown β)
    (validatorName : String) :
    (hubLogic config start).Triple i (Answered i opened K sent response Untouched)
      (decodeResponse i response decode validatorName)
      (Guards (bodyHost i) (At i (Holding opened response)) fun value =>
        Decoded i opened K sent response decode value) := by
  refine .ofExcept_bind (fun _ _ => ?_) fun e s _ hs => hs.lost fun _ h => h.guarded
  refine .bind (bodyLaws.awaited (triple_readBody response validatorName)
    (stable_consumed fun _ => stable_answered _)) (fun body => ?_) fun _ _ hs => hs
  refine .ofExcept fun s hs => ?_
  cases hdecode : decode body with
  | ok value => exact ⟨hs.1, hs.2.1, body, hs.2.2, hdecode⟩
  | error e => exact Answered.lost hs fun _ h => h.1.1

theorem triple_throwHubError (response : Response) (errorRoute : HubErrorRoute)
    (R : β → Session → Prop) :
    (hubLogic config start).Triple i (Answered i opened K sent response Untouched)
      (throwHubError config i response errorRoute : HubAsync β)
      (Guards (bodyHost i) (At i (Holding opened response)) R) := by
  refine .bind (bodyLaws.awaited (triple_readBody response _)
    (stable_consumed fun _ => stable_answered _)) (fun body => ?_) fun _ _ hs => hs
  have hlost : ∀ s, Answered i opened K sent response (fun view => WasRead response view ∧
      HasText response view body) s ∧ Current s i → Lost i opened response s :=
    fun s hs => hs.1.lost fun _ h => h.1.1
  refine answered_bind (fun _ h => h.1.1) (.ite (fun _ => .throw fun s hs => hlost s hs) fun _ => ?_)
  refine .ofExcept_bind (fun _ _ => ?_) fun e s _ hs => hlost s hs
  exact .ofExcept_bind (fun code _ => .throw fun s hs => hlost s hs) fun e s _ hs => hlost s hs

theorem triple_throwClaimExtractorError (response : Response) (R : β → Session → Prop) :
    (hubLogic config start).Triple i (Answered i opened K sent response Untouched)
      (throwClaimExtractorError i response : HubAsync β)
      (Guards (bodyHost i) (At i (Holding opened response)) R) := by
  refine .bind (bodyLaws.awaited (triple_readBody response _)
    (stable_consumed fun _ => stable_answered _)) (fun body => ?_) fun _ _ hs => hs
  have hlost : ∀ s, Answered i opened K sent response (fun view => WasRead response view ∧
      HasText response view body) s ∧ Current s i → Lost i opened response s :=
    fun s hs => hs.1.lost fun _ h => h.1.1
  refine answered_bind (fun _ h => h.1.1) ?_
  refine .ofExcept_bind (fun _ _ => ?_) fun e s _ hs => hlost s hs
  exact .ite (fun _ => .throw fun s hs => hlost s hs) fun _ => .throw fun s hs => hlost s hs

theorem releases_failed {R : β → Session → Prop} {r : Except Thrown β} {s : Session}
    (h : Releases (bodyHost i) (At i (Holding opened response)) response R r s) :
    Outcome R (At i (Failed opened)) r s := by
  cases r with
  | ok value => exact h
  | error e => exact Holding.failed h.1 h.2

-- Whoever owns a response leaves its body released.
theorem triple_owned {consume : HubAsync β} {R : β → Session → Prop}
    (hR : ∀ value, (hubLogic config start).Stable i (R value))
    (h : (hubLogic config start).Triple i (Answered i opened K sent response Untouched) consume
      (Guards (bodyHost i) (At i (Holding opened response)) R)) :
    (hubLogic config start).Triple i (Answered i opened K sent response Untouched)
      (withResponseOwnership (bodyHost i) response consume)
      (Outcome R (At i (Failed opened))) :=
  (bodyLaws.withResponseOwnership frame_holding hR h).weaken (fun _ hs => hs)
    fun _ _ hs => releases_failed hs

/-- A value has been read from a response of one of the statuses. -/
def ReadFrom (i : Nat) (opened : Bool) (K : Option (Option HubCredential) → Prop)
    (route : HubRoute) (statuses : List Nat) (decode : JsString → Except Thrown β) (value : β)
    (s : Session) : Prop :=
  ∃ response, response.status ∈ statuses ∧ Decoded i opened K (some route) response decode value s

theorem stable_readFrom (statuses : List Nat) (decode : JsString → Except Thrown β) (value : β) :
    (hubLogic config start).Stable i (ReadFrom i opened K route statuses decode value) := by
  rintro s s' hkeeps ⟨response, hstatus, hs⟩
  have hstable : (hubLogic config start).Stable i
    (Decoded i opened K (some route) response decode value) := stable_decoded value
  exact ⟨response, hstatus, hstable s s' hkeeps hs⟩

theorem triple_read {authorization : Option (HubAsync (Option JsString))}
    (hauthorization : ∀ t ∈ authorization,
      (hubLogic config start).Triple i (Granted config i opened K route) t
        (Outcome (fun value s => Granted config i opened K route s ∧ At i (Bears route value) s)
          (At i (Failed opened))))
    (errorRoute : HubErrorRoute) (decode : JsString → Except Thrown β) (validatorName : String)
    (statuses : List Nat) :
    (hubLogic config start).Triple i (Granted config i opened K route)
      (read config i authorization route errorRoute decode validatorName statuses)
      (Outcome (fun result => ReadFrom i opened K route statuses decode result.value)
        (At i (Failed opened))) := by
  refine assert_bind (E := At i (Failed opened)) (fun s hs _ => failed_refused hs.failed) ?_
    fun _ _ hs => hs
  refine .bind ((triple_send hauthorization).weaken (fun _ hs => hs.1) fun _ _ hr => hr)
    (fun response => ?_) fun _ _ hs => hs
  refine triple_owned (fun _ => stable_readFrom statuses decode _) (answered_bind (fun _ h => h.guarded) ?_)
  refine .weaken (W := Answered i opened K (some route) response Untouched) ?_ (fun _ hs => hs.1)
    fun _ _ hr => hr
  refine .ite (fun hother => ?_) fun hsuccess => ?_
  · exact bodyLaws.awaited (triple_throwHubError response errorRoute _)
      (stable_consumed fun _ => stable_readFrom statuses decode _)
  · refine .bind (bodyLaws.awaited (triple_decodeResponse response decode validatorName)
      (stable_consumed fun _ => stable_decoded _)) (fun value => ?_) fun _ _ hs => hs
    refine decoded_bind (.ofExcept_bind (fun metadata _ => .pure fun s hs => ?_)
      fun e s _ hs => Answered.lost hs.1 fun _ h => h.1.1)
    exact ⟨response, by simpa using hsuccess, hs.1⟩

end Tasks

end Hub
