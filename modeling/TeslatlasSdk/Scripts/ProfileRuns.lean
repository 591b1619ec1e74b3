import TeslatlasSdk.Scripts.ProfileAttempts

/-!
# Runs of the profile cleanup

The invocation makes and uses a profile before there is a cleanup, and its own attempt is the first
one.  With that, every run of an invocation and of any retries keeps to the rules.
-/

open Text Core

namespace FirefoxProfile

/-! ## Making a profile -/

/-- The invocation before anything has gone wrong.  What it has captured, if anything, is its own. -/
structure Invoking (i : Nat) (own : Capture → Prop) (s : ProfileState) : Prop where
  inviting : Inviting s i
  free : Free s i
  captured : ∀ capture, s.captured = some capture → own capture
  operationError : s.operationError = none
  primaryError : s.primaryError = none

/-- Nothing has been captured. -/
def Nothing (_ : Capture) : Prop := False

/-- A capture is that of a profile. -/
def OfProfile (prepared : PreparedProfile) (capture : Capture) : Prop :=
  capture.profilePath = prepared.profilePath ∧ capture.temporaryParent = prepared.temporaryParent

variable {i : Nat} {own : Capture → Prop} {s s' : ProfileState}

theorem Inviting.keeps (h : Inviting s i) (hkeeps : Keeps i s s') : Inviting s' i := by
  obtain ⟨-, -, -, -, hcleanup⟩ := hkeeps.setup h.1
  exact ⟨hkeeps.invoker.mpr h.1, hcleanup.trans h.2⟩

theorem Inviting.gone (h : Inviting s i) (hinv : Inv s) : s.gone = false :=
  Bool.eq_false_iff.mpr fun htrue => hinv.attempt.gone htrue h.2

theorem Invoking.keeps (h : Invoking i own s) (hkeeps : Keeps i s s') : Invoking i own s' := by
  obtain ⟨hcaptured, -, hprimary, hoperation, -⟩ := hkeeps.setup h.inviting.1
  refine ⟨h.inviting.keeps hkeeps, h.free.keeps hkeeps, fun capture hsome => ?_,
    hoperation.trans h.operationError, hprimary.trans h.primaryError⟩
  exact h.captured capture (hcaptured.symm.trans hsome)

theorem Free.transfer (h : Free s i) (hattempt : s'.attempt = s.attempt)
    (hentered : s'.entered i = s.entered i) (hawaited : s'.awaited i = s.awaited i)
    (hresults : s'.results i = s.results i) : Free s' i where
  attempt := by
    rw [hattempt]
    exact h.attempt
  entered := hentered.trans h.entered
  awaited := hawaited.trans h.awaited
  results := hresults.trans h.results

theorem Invoking.transfer (h : Invoking i own s) (hinviting : Inviting s' i) (hfree : Free s' i)
    (hcaptured : s'.captured = s.captured) (hoperation : s'.operationError = s.operationError)
    (hprimary : s'.primaryError = s.primaryError) : Invoking i own s' where
  inviting := hinviting
  free := hfree
  captured capture hsome := h.captured capture (hcaptured.symm.trans hsome)
  operationError := hoperation.trans h.operationError
  primaryError := hprimary.trans h.primaryError

section Triples

variable {env : Environment} {options : ProfileOptions}

/-- The invocation, with what it knows besides. -/
def InvokingWith (i : Nat) (own : Capture → Prop) (A : ProfileState → Prop) (s : ProfileState) :
    Prop :=
  Invoking i own s ∧ A s

theorem calm_invoking {A : ProfileState → Prop} (hstable : (profileLogic env options).Stable i A)
    (hgrow : ∀ s entries, A s → A (s.grow i entries)) :
    Calm env options i (InvokingWith i own A) where
  stable s s' hkeeps hs := ⟨hs.1.keeps hkeeps, hstable s s' hkeeps hs.2⟩
  gone _ hinv hs := hs.1.inviting.gone hinv
  results _ hs := hs.1.free.results
  grow s entries hs := ⟨hs.1.transfer hs.1.inviting (hs.1.free.transfer rfl rfl rfl rfl) rfl rfl rfl,
    hgrow s entries hs.2⟩

theorem calm_alone : Calm env options i (InvokingWith i own fun _ => True) :=
  calm_invoking (fun _ _ _ _ => trivial) fun _ _ _ => trivial

/-- The invocation has been given a path by `mkdtemp`. -/
def Made (i : Nat) (path : JsString) (s : ProfileState) : Prop := s.made i = some path

theorem calm_made (path : JsString) : Calm env options i (InvokingWith i own (Made i path)) := by
  refine calm_invoking (fun s s' hkeeps hs => ?_) fun _ _ hs => hs
  have hkept : Keeps i s s' := hkeeps
  exact hkept.made.trans hs

theorem triple_mkdtemp (path : JsString) :
    (profileLogic env options).Triple i (InvokingWith i own fun _ => True)
      (callAll i [.mkdtemp path]) fun r s => Invoking i own s ∧
        ∀ made, r = .ok [.path made] → s.made i = some made := by
  refine triple_callAll (W := Invoking i own) (fun s hinv hs => ?_)
    (fun _ _ hkeeps hs => hs.keeps hkeeps) (fun _ hs => hs.free.results) fun s result _ hs _ => ?_
  · refine ⟨⟨hs.1.inviting.gone hinv, nofun, nofun⟩, nofun, ?_⟩
    exact hs.1.transfer hs.1.inviting (hs.1.free.transfer rfl rfl rfl rfl) rfl rfl rfl
  · have hoperation : (operationFailure [.mkdtemp path] result).or s.operationError =
        s.operationError := by
      rw [operationFailure_eq_none rfl, Option.none_or]
    refine ⟨⟨nofun, nofun, nofun⟩, hs.transfer hs.inviting (hs.free.transfer rfl rfl rfl rfl) rfl
      hoperation rfl, ?_⟩
    rintro made rfl
    exact update_self _ _ _

/-- What the invocation has before its `try`. -/
def Makes (i : Nat) (r : Except Failure PreparedProfile) (s : ProfileState) : Prop :=
  Invoking i Nothing s ∧ ∀ prepared, r = .ok prepared → Made i prepared.profilePath s

theorem triple_makeProfile :
    (profileLogic env options).Triple i (Invoking i Nothing) (makeProfile env options i)
      (Makes i) := by
  have hcalm : Calm env options i (InvokingWith i Nothing fun _ => True) := calm_alone
  have herror : ∀ (e : Failure) (s : ProfileState), InvokingWith i Nothing (fun _ => True) s →
      Makes i (.error e) s := fun _ _ hs => ⟨hs.1, nofun⟩
  refine .weaken (P := Invoking i Nothing) (W := InvokingWith i Nothing fun _ => True) ?_
    (fun _ hs => ⟨hs, trivial⟩) fun _ _ hr => hr
  refine .ite (fun _ => .throw fun s hs => herror _ s hs) fun _ => ?_
  refine .ofExcept_bind (fun closeTimeoutMs _ => ?_) fun e s _ hs => herror e s hs
  refine .ofExcept_bind (fun certutilTimeoutMs _ => ?_) fun e s _ hs => herror e s hs
  refine .bind (hcalm.resolvePath _) (fun temporaryParent => ?_) herror
  refine .bind (hcalm.requireOwnerOnlyPath _ _ _) (fun _ => ?_) herror
  refine .bind (hcalm.requireOwnerOnlyPath _ _ _) (fun _ => ?_) herror
  refine .bind (hcalm.command {}) (fun _ => ?_) herror
  refine .bind (triple_mkdtemp _) (fun values => ?_) fun e s hs => ⟨hs.1, nofun⟩
  split
  · next profilePath =>
    refine .ite (fun _ => .throw fun s hs => ⟨hs.1, nofun⟩) fun _ => .pure fun s hs => ⟨hs.1, ?_⟩
    intro prepared hprepared
    obtain rfl := Except.ok.inj hprepared
    exact hs.2 profilePath rfl
  · exact .throw fun s hs => ⟨hs.1, nofun⟩

/-! ## Using it -/

theorem triple_captureProfileAuthority (profilePath parent : JsString) :
    (profileLogic env options).Triple i (InvokingWith i own (Made i profilePath))
      (captureProfileAuthority env i profilePath parent) fun r s =>
        InvokingWith i own (Made i profilePath) s ∧ ∀ authority, r = .ok authority →
          Saw (s.found i) profilePath authority.profile ∧
            Saw (s.found i) parent authority.parent := by
  refine .bind ((calm_made profilePath).callAll {}) (fun values => ?_) fun e s hs => ⟨hs.1, nofun⟩
  split
  · next canonicalProfile canonicalParent profileStat parentStat =>
    refine .ofExcept fun s hs => ⟨hs.1, fun authority hauthority => ?_⟩
    unfold profileAuthority at hauthority
    split at hauthority
    · cases hauthority
    · cases hprofile : directoryIdentity env profileStat with
      | error e =>
        rw [hprofile] at hauthority
        cases hauthority
      | ok profileIdentity =>
        cases hparent : directoryIdentity env parentStat with
        | error e =>
          rw [hprofile, hparent] at hauthority
          cases hauthority
        | ok parentIdentity =>
          rw [hprofile, hparent] at hauthority
          obtain rfl := Except.ok.inj hauthority
          exact ⟨⟨profileStat, hs.2 _ List.mem_cons_self, directoryIdentity_eq_ok hprofile⟩,
            ⟨parentStat, hs.2 _ (List.mem_cons_of_mem _ List.mem_cons_self),
              directoryIdentity_eq_ok hparent⟩⟩
  · exact .throw fun s hs => ⟨hs.1, nofun⟩

theorem triple_runCertutil (timeout : Int) (calls : List (List JsString)) :
    (profileLogic env options).Triple i (InvokingWith i own fun _ => True)
      (runCertutil i timeout calls) fun _ => InvokingWith i own fun _ => True := by
  induction calls with
  | nil => exact .pure fun _ hs => hs
  | cons arguments rest ih =>
    exact .bind (calm_alone.command {}) (fun _ => ih) fun _ _ hs => hs

theorem triple_restrictDatabases (profilePath : JsString) (names : List JsString) :
    (profileLogic env options).Triple i (InvokingWith i own fun _ => True)
      (restrictDatabases env i profilePath names) fun _ => InvokingWith i own fun _ => True := by
  induction names with
  | nil => exact .pure fun _ hs => hs
  | cons name names ih =>
    refine .bind (calm_alone.command {}) (fun _ => ?_) fun _ _ hs => hs
    exact .bind (calm_alone.requireOwnerOnlyPath _ _ _) (fun _ => ih) fun _ _ hs => hs

/-- The error that an invocation catches. -/
def caughtError {β : Type} : Except Failure β → Option Failure
  | .ok _ => none
  | .error error => some error

/-- The invocation at the end of its `try`. -/
structure Used (i : Nat) (own : Capture → Prop) (caught : Option Failure) (s : ProfileState) :
    Prop where
  inviting : Inviting s i
  free : Free s i
  captured : ∀ capture, s.captured = some capture → own capture
  operationError : ∀ error, s.operationError = some error → caught = some error
  primaryError : s.primaryError = none

theorem Invoking.used (h : Invoking i own s) (caught : Option Failure) : Used i own caught s where
  inviting := h.inviting
  free := h.free
  captured := h.captured
  operationError error hsome := by
    rw [h.operationError] at hsome
    cases hsome
  primaryError := h.primaryError

/-- The browser may be asked to launch. -/
def LaunchReady (s : ProfileState) : Prop := s.launchAttempted = true

theorem triple_launch (path : JsString) (launchOptions : LaunchOptions) :
    (profileLogic env options).Triple i (InvokingWith i own LaunchReady)
      (callAll i [.launchPersistentContext path launchOptions]) fun _ => Invoking i own := by
  refine triple_callAll (W := Invoking i own) (fun s hinv hs => ?_)
    (fun _ _ hkeeps hs => hs.keeps hkeeps) (fun _ hs => hs.free.results) fun s result _ hs _ => ?_
  · refine ⟨⟨hs.1.inviting.gone hinv, nofun, nofun⟩, fun _ => hs.2, ?_⟩
    exact hs.1.transfer hs.1.inviting (hs.1.free.transfer rfl rfl rfl rfl) rfl rfl rfl
  · have hoperation : (operationFailure [.launchPersistentContext path launchOptions] result).or
        s.operationError = s.operationError := by
      rw [operationFailure_eq_none rfl, Option.none_or]
    exact ⟨⟨nofun, nofun, nofun⟩, hs.transfer hs.inviting (hs.free.transfer rfl rfl rfl rfl) rfl
      hoperation rfl⟩

theorem triple_operation :
    (profileLogic env options).Triple i (Invoking i own) (callAll i [.operation]) fun r =>
      Used i own (caughtError r) := by
  refine triple_callAll (W := Invoking i own) (fun s hinv hs => ?_)
    (fun _ _ hkeeps hs => hs.keeps hkeeps) (fun _ hs => hs.free.results) fun s result _ hs _ => ?_
  · refine ⟨⟨hs.inviting.gone hinv, nofun, nofun⟩, nofun, ?_⟩
    exact hs.transfer hs.inviting (hs.free.transfer rfl rfl rfl rfl) rfl rfl rfl
  · refine ⟨⟨nofun, nofun, fun _ => hs.inviting⟩, hs.inviting, hs.free.transfer rfl rfl rfl rfl,
      hs.captured, fun error hsome => ?_, hs.primaryError⟩
    have hfailure : (operationFailure [.operation] result).or s.operationError = some error := hsome
    rw [hs.operationError, Option.or_none] at hfailure
    cases result with
    | ok values => cases hfailure
    | error other => exact hfailure

-- The invocation uses the profile, and keeps track of what goes wrong in the operation.
theorem triple_useProfile (prepared : PreparedProfile) :
    (profileLogic env options).Triple i (InvokingWith i Nothing (Made i prepared.profilePath))
      (useProfile env options i prepared) fun r => Used i (OfProfile prepared) (caughtError r) := by
  have hmade : Calm env options i (InvokingWith i Nothing (Made i prepared.profilePath)) :=
    calm_made prepared.profilePath
  have hnothing : ∀ {s : ProfileState}, Invoking i Nothing s → Invoking i (OfProfile prepared) s :=
    fun hs => ⟨hs.inviting, hs.free, fun capture hsome => (hs.captured capture hsome).elim,
      hs.operationError, hs.primaryError⟩
  have herror : ∀ (e : Failure) (s : ProfileState),
      InvokingWith i Nothing (Made i prepared.profilePath) s →
        Used i (OfProfile prepared) (caughtError (.error e : Except Failure Nat)) s :=
    fun _ _ hs => (hnothing hs.1).used _
  have herror' : ∀ (e : Failure) (s : ProfileState),
      InvokingWith i (OfProfile prepared) (fun _ => True) s →
        Used i (OfProfile prepared) (caughtError (.error e : Except Failure Nat)) s :=
    fun _ _ hs => hs.1.used _
  refine .bind (hmade.command {}) (fun _ => ?_) herror
  refine .bind (hmade.requireOwnerOnlyPath _ _ _) (fun _ => ?_) herror
  refine .bind (triple_captureProfileAuthority prepared.profilePath prepared.temporaryParent)
    (fun authority => ?_) fun e s hs => herror e s hs.1
  refine act_bind (W := InvokingWith i (OfProfile prepared) fun _ => True) (fun s _ hs => ?_) ?_
  · obtain ⟨⟨hinvoking, hpath⟩, hsaw⟩ := hs
    refine ⟨⟨hpath, hsaw authority rfl⟩, hinvoking.inviting, ⟨hinvoking.inviting,
      hinvoking.free.transfer rfl rfl rfl rfl, fun capture hsome => ?_, hinvoking.operationError,
      hinvoking.primaryError⟩, trivial⟩
    obtain rfl := Option.some.inj hsome
    exact ⟨rfl, rfl⟩
  refine .bind (triple_runCertutil _ _) (fun _ => ?_) herror'
  refine .bind (triple_restrictDatabases _ _) (fun _ => ?_) herror'
  refine act_bind (W := InvokingWith i (OfProfile prepared) LaunchReady) (fun s _ hs => ?_) ?_
  · exact ⟨trivial, hs.1.inviting, hs.1.transfer hs.1.inviting
      (hs.1.free.transfer rfl rfl rfl rfl) rfl rfl rfl, rfl⟩
  refine .bind (triple_launch _ _) (fun values => ?_) fun e s hs => hs.used _
  split
  · refine act_bind (W := Invoking i (OfProfile prepared)) (fun s _ hs => ?_) ?_
    · exact ⟨trivial, hs.inviting, hs.transfer hs.inviting (hs.free.transfer rfl rfl rfl rfl) rfl
        rfl rfl⟩
    · refine .bind triple_operation (fun values => ?_) fun e s hs => hs
      split
      · exact .pure fun s hs => hs
      · refine .throw fun s hs => ⟨hs.inviting, hs.free, hs.captured, fun error hsome => ?_,
          hs.primaryError⟩
        cases hs.operationError error hsome
  · exact .throw fun s hs => hs.used _

/-! ## Reports -/

-- Before an attempt has settled there is nothing to report.
theorem reports_unsettled (h : s.results i = none) (outcome : Outcome) : Reports s i outcome where
  own hne := absurd h hne
  rethrown hok := by
    rw [h] at hok
    cases hok
  listed error herror := by
    rw [h] at herror
    cases herror

-- A settled attempt is reported with the invocation's own error in front, or alone.
theorem Done.reports {cleanup : ProfileCleanup} {main : Prop} {result : Except Failure Unit}
    {outcome : Outcome} (h : Done i cleanup main result s) (hinv : Inv s) (reason : JsString)
    (hfailed : ∀ error, retryError cleanup reason result = some error →
      outcome = .cleanupFailed error)
    (hrethrown : retryError cleanup reason result = none → main →
      ∀ error, cleanup.primaryError = some error → outcome = .threw error) :
    Reports s i outcome := by
  have hlinked := hinv.setup.linked cleanup h.created
  refine ⟨fun _ => hlinked.own, fun hok hi error herror => ?_, fun error herror => ?_⟩
  · rw [h.results] at hok
    obtain rfl := Option.some.inj hok
    exact hrethrown rfl (h.role hi) error (hlinked.primaryError.trans herror)
  · rw [h.results] at herror
    obtain rfl := Option.some.inj herror
    refine ⟨_, hfailed _ rfl, ?_⟩
    rw [← hlinked.primaryError]
    rfl

theorem caughtError_eq_some {β : Type} {result : Except Failure β} {error : Failure}
    (h : caughtError result = some error) : result = .error error := by
  cases result with
  | ok b => cases h
  | error other => rw [Option.some.inj h]

/-- The invocation after its `catch`. -/
structure Caught (i : Nat) (own : Capture → Prop) (caught : Option Failure) (s : ProfileState) :
    Prop where
  inviting : Inviting s i
  free : Free s i
  captured : ∀ capture, s.captured = some capture → own capture
  operationError : ∀ error, s.operationError = some error → s.primaryError = some error
  primaryError : s.primaryError = caught

theorem triple_catchPrimary (result : Except Failure Nat) :
    (profileLogic env options).Triple i (Used i own (caughtError result)) (catchPrimary i result)
      fun r s => r = .ok () ∧ Caught i own (caughtError result) s := by
  cases result with
  | ok value =>
    refine .pure fun s hs => ⟨rfl, hs.inviting, hs.free, hs.captured, fun error hsome => ?_,
      hs.primaryError⟩
    cases hs.operationError error hsome
  | error error =>
    refine triple_act fun s _ hs => ⟨trivial, hs.inviting, ?_⟩
    exact ⟨hs.inviting, hs.free.transfer rfl rfl rfl rfl, hs.captured, hs.operationError, rfl⟩

-- The cleanup is made from the variables of the invocation.
theorem Caught.linked {prepared : PreparedProfile} {caught : Option Failure}
    (h : Caught i (OfProfile prepared) caught s) : Linked s (createProfileCleanup s prepared) where
  primaryError := rfl
  launchAttempted := rfl
  authority authority hauthority := by
    obtain ⟨capture, hcapture, rfl⟩ := Option.map_eq_some_iff.mp hauthority
    obtain ⟨hprofile, hparent⟩ := h.captured capture hcapture
    rw [hcapture]
    show some capture = some ⟨prepared.profilePath, prepared.temporaryParent, capture.authority⟩
    rw [← hprofile, ← hparent]
  own := h.operationError

/-- A call has an outcome to report. -/
def Concludes (i : Nat) (r : Except Failure Outcome) (s : ProfileState) : Prop :=
  ∃ outcome, r = .ok outcome ∧ Reports s i outcome

/-! ## Calls -/

theorem triple_withFirefoxNssProfile :
    (profileLogic env options).Triple i (Invoking i Nothing)
      (withFirefoxNssProfile env options i) (Concludes i) := by
  refine .attempt_bind triple_makeProfile fun made => ?_
  cases made with
  | error error =>
    exact .pure fun s hs => ⟨_, rfl, reports_unsettled hs.1.free.results _⟩
  | ok prepared =>
    refine .attempt_bind ((triple_useProfile prepared).weaken
      (fun s hs => ⟨hs.1, hs.2 prepared rfl⟩) fun _ _ hr => hr) fun result => ?_
    refine .bind (triple_catchPrimary result) (fun _ => ?_) ?_
    · refine .get_bind fun s₀ _ hs₀ => ?_
      obtain ⟨-, hcaught⟩ := hs₀
      refine act_bind (W := fun s => Owing i (createProfileCleanup s₀ prepared) True s ∧ Free s i)
        (fun s _ hs => ?_) ?_
      · rw [hs]
        exact ⟨trivial, ⟨hcaught.inviting, hcaught.linked⟩,
          ⟨rfl, hcaught.free.results, fun _ => trivial⟩, hcaught.free.transfer rfl rfl rfl rfl⟩
      · refine .bind triple_retry.with_inv (fun cleanupError => .pure fun s hs => ?_) ?_
        · obtain ⟨hinv, settled, reason, hsettled, hdone⟩ := hs
          obtain rfl := Except.ok.inj hsettled
          refine ⟨_, rfl, hdone.reports hinv reason ?_ ?_⟩
          · intro error herror
            rw [herror]
            rfl
          · intro hnone _ error herror
            have hresult := caughtError_eq_some (hcaught.primaryError.symm.trans herror)
            rw [hnone, hresult]
            rfl
        · rintro e s ⟨-, settled, reason, hsettled, -⟩
          cases hsettled
    · rintro e s ⟨herror, -⟩
      cases herror

theorem triple_ended (outcome : Outcome) :
    (profileLogic env options).Triple i (fun s => Reports s i outcome) (act i (.ended outcome))
      fun _ s => Reported s i := by
  have hact : (profileLogic env options).Triple i (fun s => Reports s i outcome)
      (act i (.ended outcome)) fun r s => r = .ok () ∧ Reported s i := by
    refine triple_act fun s _ hs => ⟨hs, trivial, fun _ => ?_⟩
    have houtcome : (s.record ⟨i, .ended outcome⟩).outcomes i = some outcome := update_self _ _ _
    rw [houtcome]
    exact Option.some_ne_none outcome
  exact hact.weaken (fun _ hs => hs) fun _ _ hs => hs.2

theorem triple_invoke :
    (profileLogic env options).Triple i (fun s => Unbegun s i) (invoke env options i) fun _ s =>
      Reported s i := by
  refine .get_bind fun s₀ hinv₀ hs₀ => .ite (fun _ => .pure fun s hs => ?_) fun hnone => ?_
  · rw [hs]
    exact reported hs₀.results
  · have hinvoker : s₀.invoker = none := Option.not_isSome_iff_eq_none.mp hnone
    obtain ⟨hcleanup, hcaptured, hoperation, hprimary⟩ := hinv₀.setup.begun hinvoker
    refine act_bind (W := Invoking i Nothing) (fun s _ hs => ?_) ?_
    · rw [hs]
      refine ⟨trivial, hinvoker, ⟨rfl, hcleanup⟩,
        ⟨hs₀.attempt, hs₀.entered, hs₀.awaited, hs₀.results⟩, fun capture hsome => ?_, hoperation,
        hprimary⟩
      have hcapture : s₀.captured = some capture := hsome
      rw [hcaptured] at hcapture
      cases hcapture
    · refine .bind triple_withFirefoxNssProfile (fun outcome => ?_) ?_
      · refine (triple_ended outcome).weaken (fun s hs => ?_) fun _ _ hr => hr
        obtain ⟨other, hother, hreports⟩ := hs
        obtain rfl := Except.ok.inj hother
        exact hreports
      · rintro e s ⟨outcome, houtcome, -⟩
        cases houtcome

theorem triple_callRetry :
    (profileLogic env options).Triple i (fun s => Unbegun s i) (callRetry env i) fun _ s =>
      Reported s i := by
  refine .get_bind fun s₀ _ hs₀ => ?_
  cases hcleanup : s₀.cleanup with
  | none =>
    refine .pure fun s hs => ?_
    rw [hs]
    exact reported hs₀.results
  | some cleanup =>
    have hretry : (profileLogic env options).Triple i (fun s => s = s₀) (retry env cleanup i)
        fun r s => Inv s ∧ ∃ result reason, r = .ok (retryError cleanup reason result) ∧
          Done i cleanup False result s := by
      refine triple_retry.with_inv.weaken (fun s hs => ?_) fun _ _ hr => hr
      rw [hs]
      exact ⟨⟨hcleanup, hs₀.results, hs₀.invoker⟩, hs₀.attempt, hs₀.entered, hs₀.awaited, hs₀.results⟩
    refine .bind hretry (fun cleanupError => ?_) ?_
    · refine (triple_ended (retryOutcome cleanupError)).weaken (fun s hs => ?_) fun _ _ hr => hr
      obtain ⟨hinv, result, reason, hresult, hdone⟩ := hs
      obtain rfl := Except.ok.inj hresult
      refine hdone.reports hinv reason (fun error herror => ?_) fun _ hmain => hmain.elim
      rw [herror]
      rfl
    · rintro e s ⟨-, result, reason, hresult, -⟩
      cases hresult

end Triples

theorem calls_hold (env : Environment) (options : ProfileOptions) :
    (profileLogic env options).CallsHold := by
  intro call i s hinv hfresh
  have hunbegun : Unbegun s i := hfresh i (Nat.le_refl i)
  have hfresh' : (profileLogic env options).FreshFrom (i + 1) s := fun j hj => hfresh j (by omega)
  cases call with
  | withFirefoxNssProfile =>
    exact triple_invoke.toProgram (fun _ _ hs => hs) hinv hfresh' (Nat.lt_succ_self i) hunbegun
  | retry =>
    exact triple_callRetry.toProgram (fun _ _ hs => hs) hinv hfresh' (Nat.lt_succ_self i) hunbegun

-- A thread that has stopped somewhere has reported, if its attempt has settled.
theorem reported_of_sane {env : Environment} {options : ProfileOptions}
    {w : World ProfileState ProfileEvent ProfileAwait ProfileAnswer}
    (h : (profileLogic env options).Sane w) (i : Nat) : Reported w.state i := by
  cases hthread : w.threads[i]? with
  | none =>
    have hunbegun : Unbegun w.state i := h.fresh i (List.getElem?_eq_none_iff.mp hthread)
    exact reported hunbegun.results
  | some p =>
    have hresumable := h.threads i p hthread
    cases p with
    | halt => exact hresumable
    | await request next => exact hresumable.1
    | get | perform | fork => exact hresumable.elim

-- In every run of an invocation and of retries, whatever the system, the browser and the operation
-- answer and whenever they do, the cleanup keeps to its rules: it removes only what it owns, after
-- the close, and once; only an attempt that runs has a waiter or a timer; and every call whose attempt
-- has settled has ended.
theorem profileCleanup_owned (env : Environment) (options : ProfileOptions)
    (inputs : List (SystemInput ProfileAnswer ProfileCall)) :
    profileMonitor.Permitted {} ((profileSystem env options).machine.run inputs).2 ∧
      let s := ((profileSystem env options).machine.run inputs).1.state
      (∀ i, i ∈ s.waiters ∨ i ∈ s.timers → s.attempt = some i ∧ s.awaited i = none) ∧
        ∀ i, s.results i ≠ none → s.outcomes i ≠ none := by
  obtain ⟨hpermitted, hsane, -⟩ := Logic.follows_run (calls_hold env options) inputs
  refine ⟨hpermitted.weaken rfl fun _ _ h => h.1, fun i hi => ?_, fun i => ?_⟩
  · have hinv : Inv ((profileSystem env options).machine.run inputs).1.state := hsane.inv
    have hwaiting := hi.elim (hinv.wait.waiters i) (hinv.wait.timers i)
    exact ⟨hwaiting.attempt, hwaiting.awaited⟩
  · exact reported_of_sane hsane i

end FirefoxProfile
