import TeslatlasSdk.Hub.SessionTasks

/-!
# Shared discoveries

An operation begins, joins the discovery that is pending or starts one, and is admitted by what it
settles with.
-/

open Text Core Http

namespace Hub

/-- An operation that has begun and loaded nothing, and the invitation that it has checked. -/
structure Begun (i : Nat) (validated : Option (Nat × HubInvitation)) (s : Session) : Prop where
  unsent : Unsent false (· = none) (s.operations i)
  validated : (s.operations i).validated = validated
  epoch : (s.operations i).epoch ≤ s.epoch

/-- The same, before it has waited for a discovery. -/
def Ready (i : Nat) (validated : Option (Nat × HubInvitation)) (s : Session) : Prop :=
  Begun i validated s ∧ s.waits i = .none

/-- An operation whose discovery is pending. -/
def Waits (i : Nat) (validated : Option (Nat × HubInvitation)) (pending : Nat) (s : Session) :
    Prop :=
  Begun i validated s ∧ (s.waits i = .waiting pending ∨ ∃ result, s.waits i = .left pending result)

section Discovery

variable {config : HubConfig} {start : HubStart} {i : Nat}
  {validated : Option (Nat × HubInvitation)}

-- What is vouched for stays so, whatever the others do.
theorem Vouched.keeps {s s' : Session} {discovery : HubDiscovery}
    (h : Vouched config s i discovery) (hkeeps : Keeps i s s') : Vouched config s' i discovery := by
  have hle := hkeeps.generation
  have hold := h.generation
  refine h.transfer (fun ⟨p, hp⟩ => ⟨p, hkeeps.fetched p _ _ _ hp⟩) ?_ fun hcurrent => ?_
  · rw [hkeeps.operation]
    omega
  · rw [hkeeps.operation] at hcurrent
    exact ⟨by omega, hkeeps.published (by omega)⟩

theorem stable_expected (result : Discovered) :
    (hubLogic config start).Stable i fun s => Expected config s i result :=
  fun _ _ hkeeps hs response hok => (hs response hok).keeps hkeeps

-- The operation is one of the generation that has published the document.
theorem vouched_published {s : Session} {discovery : HubDiscovery} (hlive : Current s i)
    (hfetched : Documented config s discovery) (hhub : discovery.hubId = config.expectedHubId)
    (hmem : discovery ∈ s.published) : Vouched config s i discovery :=
  ⟨hfetched, hhub, Nat.le_of_eq hlive.generation, fun _ => hmem⟩

theorem Begun.failed {s : Session} (h : Begun i validated s) : At i (Failed false) s :=
  h.unsent.failed

theorem Begun.keeps {s s' : Session} (h : Begun i validated s) (hkeeps : Keeps i s s') :
    Begun i validated s' where
  unsent := by
    rw [hkeeps.operation]
    exact h.unsent
  validated := by
    rw [hkeeps.operation]
    exact h.validated
  epoch := by
    rw [hkeeps.operation]
    exact Nat.le_trans h.epoch hkeeps.epoch

theorem Ready.keeps {s s' : Session} (h : Ready i validated s) (hkeeps : Keeps i s s') :
    Ready i validated s' := by
  refine ⟨h.1.keeps hkeeps, ?_⟩
  rcases hkeeps.wait with hsame | ⟨d, reason, hwaiting, -⟩
  · exact hsame.trans h.2
  · rw [h.2] at hwaiting
    cases hwaiting

theorem stable_begun : (hubLogic config start).Stable i (Begun i validated) :=
  fun _ _ hkeeps hs => hs.keeps hkeeps

theorem stable_waits (pending : Nat) :
    (hubLogic config start).Stable i (Waits i validated pending) := by
  intro s s' hkeeps hs
  refine ⟨hs.1.keeps hkeeps, ?_⟩
  rcases Keeps.wait hkeeps with hsame | ⟨d, reason, hwaiting, hleft⟩
  · rw [hsame]
    exact hs.2
  · rcases hs.2 with hpending | ⟨result, hresult⟩
    · rw [hwaiting, Wait.waiting.injEq] at hpending
      exact .inr ⟨_, hpending ▸ hleft⟩
    · rw [hwaiting] at hresult
      cases hresult

/-! ## Beginnings -/

/-- The thread has done nothing. -/
def Idle (i : Nat) (s : Session) : Prop := s.operations i = {} ∧ s.waits i = .none

theorem Idle.failed {s : Session} (h : Idle i s) : At i (Failed false) s := by
  rw [At, h.1]
  refine ⟨rfl, rfl, fun response hnone => ?_, rfl⟩
  cases hnone

theorem triple_requireActive {P : Session → Prop} :
    (hubLogic config start).Triple i P requireActive
      (Outcome (fun _ s => P s ∧ s.disposed = false) P) := by
  refine .get_bind fun s _ hs => ?_
  refine .ite (fun _ => .throw fun s' heq => heq ▸ hs) fun hdisposed => .pure fun s' heq => ?_
  exact heq ▸ ⟨hs, by simpa using hdisposed⟩

theorem idle_began {s : Session} (h : Idle i s) (caller : Option Nat) :
    Ready i none (s.record ⟨i, .began caller⟩) := by
  refine ⟨⟨?_, ?_, ?_⟩, h.2⟩
  · rw [record_self, h.1]
    exact ⟨rfl, rfl, rfl, rfl, rfl, rfl, rfl, rfl, rfl, rfl, rfl, rfl⟩
  · rw [record_self, h.1]
    rfl
  · rw [record_self]
    exact Nat.le_refl _

theorem triple_beginOperation {C : Session → Prop} (signal : Option Nat)
    (hC : ∀ s, C s → C (s.record ⟨i, .began signal⟩)) :
    (hubLogic config start).Triple i (fun s => Idle i s ∧ C s) (beginOperation i signal)
      (Outcome (fun _ s => (Ready i none s ∧ C s) ∧ Current s i) (At i (Failed false))) := by
  refine .bind triple_requireActive (fun _ => ?_) fun e s hs => hs.1.failed
  refine .perform_bind (W := fun s => Ready i none s ∧ C s) rfl (fun s _ hs =>
    ⟨⟨hs.1.1.1, hs.1.1.2, hs.2⟩, idle_began hs.1.1 signal, hC s hs.1.2⟩) ?_
  exact triple_assertOperation fun s hs _ => failed_refused hs.1.1.failed

/-! ## The shared fetch -/

theorem opened_granted {s : Session} (h : Ready i validated s) :
    Granted config i true (· = none) .discovery (s.record ⟨i, .opened⟩) where
  unsent := by
    rw [record_self]
    exact { h.1.unsent with opened := rfl }
  asked := trivial
  admitted hdiscovery := absurd hdiscovery Bool.false_ne_true
  cursor := by
    rw [CursorKept, record_self]
    refine ⟨h.1.epoch, fun query hnone => ?_⟩
    cases hnone

/-- A document has been read from the response of a shared fetch. -/
structure Discovery (config : HubConfig) (document : HubDiscovery) (x : Operation) : Prop where
  begun : x.begun = true
  kept : Failed true x
  fetched : Fetched x .discovery [200] config.decoders.discovery document

theorem ReadFrom.discovery {document : HubDiscovery} {s : Session}
    (h : ReadFrom i true (· = none) .discovery [200] config.decoders.discovery document s) :
    At i (Discovery config document) s := by
  obtain ⟨response, hstatus, hgiven, hread, hdecoded⟩ := h
  exact ⟨hgiven.begun, hgiven.holding.failed hread.released,
    hgiven.sent, response, hgiven.response, hstatus, hdecoded⟩

/-- What a shared fetch leaves behind. -/
def Fetches (config : HubConfig) (i : Nat) (result : Discovered) (s : Session) : Prop :=
  Expected config s i result ∧ At i (Failed true) s

theorem stable_fetches (result : Discovered) :
    (hubLogic config start).Stable i (Fetches config i result) :=
  (stable_expected result).and (stable_at _)

theorem fetches_error (e : Thrown) (s : Session) (h : At i (Failed true) s) :
    Fetches config i (.error e) s :=
  ⟨expected_error config s i e, h⟩

-- A discovery that is alive is the pending one when it is published.
theorem triple_fetchDiscovery :
    (hubLogic config start).Triple i (Granted config i true (· = none) .discovery)
      (fetchDiscovery config i) (Fetches config i) := by
  refine .bind (bodyLaws.awaited (triple_read (fun t ht => absurd ht (Option.not_mem_none t)) .discovery
    config.decoders.discovery "HubDiscovery" [200]) fun r => ?_) (fun result => ?_) fetches_error
  · cases r with
    | ok result => exact stable_readFrom [200] config.decoders.discovery result.value
    | error e => exact stable_at (Failed true)
  · refine .weaken (W := At i (Discovery config result.value)) ?_ (fun _ hs => hs.discovery)
      fun _ _ hr => hr
    refine assert_bind (E := At i (Failed true)) (fun s hs _ => failed_refused hs.kept) ?_
      fetches_error
    refine .ite (fun _ => .throw fun s hs => fetches_error _ s hs.1.kept) fun hhub => ?_
    have hexpected : result.value.hubId = config.expectedHubId := by simpa using hhub
    refine .perform_bind (W := Fetches config i (.ok result)) rfl (fun s hinv hs =>
      ⟨⟨⟨hs.2, hs.1.begun⟩, ?_, hexpected, hs.1.fetched⟩, ?_, hs.1.kept⟩) (.pure fun s hs => hs)
    · exact hinv.sharing.live i hs.1.kept.opened hs.1.kept.result hs.2.signal
    · rintro response ⟨⟩
      have hlive : Current (s.record ⟨i, .published result.value⟩) i := hs.2.congr rfl rfl rfl id
      exact vouched_published hlive ⟨i, hs.1.fetched⟩ hexpected List.mem_cons_self

theorem triple_sharedDiscovery :
    (hubLogic config start).Triple i (fun s => Idle i s ∧ s.discoveryPending = none)
      (sharedDiscovery config i) fun _ _ => True := by
  refine .bind (triple_beginOperation none fun _ hs => hs) (fun _ => ?_) fun _ _ _ => trivial
  refine .perform_bind (W := Granted config i true (· = none) .discovery) rfl
    (fun s _ hs => ⟨⟨⟨hs.2, hs.1.1.1.unsent.begun⟩, hs.1.2, hs.1.1.2, ?_⟩, opened_granted hs.1.1⟩) ?_
  · exact ⟨hs.1.1.1.unsent.opened, hs.1.1.1.unsent.result⟩
  refine .attempt_bind triple_fetchDiscovery fun result => ?_
  refine bodyLaws.tick_bind (stable_fetches result) ?_
  refine .bind (Q := fun _ => Fetches config i result) ?_ (fun _ => ?_) fun _ _ _ => trivial
  · cases result with
    | ok response => exact .pure fun s hs => hs
    | error e =>
      refine .get_bind fun s _ hs => .ite (fun hpending => ?_) fun _ => .pure fun s' heq => heq ▸ hs
      exact .perform rfl fun s' _ heq => heq ▸ ⟨hpending, expected_error config _ i e, hs.2⟩
  · exact bodyLaws.tick_bind (stable_fetches result)
      (.perform rfl fun s _ hs => ⟨⟨hs.2.result, hs.1, hs.2.released⟩, trivial⟩)

/-! ## The first segment of a shared fetch -/

variable {s : Session} {fresh : Nat}

theorem assertOperation_run (h : Current s i)
    (k : Except Thrown Unit → Program Session HubEvent Awaited (Answer HubCredential)) :
    ((assertOperation i k).run Session.record fresh s).state =
      ((k (.ok ())).run Session.record fresh s).state := by
  have hsignal : s.signal i = none := h.signal
  unfold assertOperation
  simp only [bind, Async.get, Program.run, hsignal]
  rw [h.unexpired]
  rfl

theorem requireActive_run (h : s.disposed = false)
    (k : Except Thrown Unit → Program Session HubEvent Awaited (Answer HubCredential)) :
    ((requireActive k).run Session.record fresh s).state =
      ((k (.ok ())).run Session.record fresh s).state := by
  show (Program.run Session.record ((if s.disposed then throw (.teslatlas .hubClientDisposed)
    else return () : HubAsync Unit) k) fresh s).state = _
  rw [h]
  rfl

theorem throwIfAborted_run (h : s.reasons i = none)
    (k : Except Thrown Unit → Program Session HubEvent Awaited (Answer HubCredential)) :
    ((throwIfAborted (Session.signal i) k).run Session.record fresh s).state =
      ((k (.ok ())).run Session.record fresh s).state := by
  have hsignal : s.signal i = none := h
  unfold throwIfAborted
  simp only [bind, Async.get, Program.run, hsignal]
  rfl

theorem began_live (hdisposed : s.disposed = false) (howner : s.owner = none) :
    Current (s.record ⟨i, .began none⟩) i where
  unexpired := by
    rw [Session.isExpired, record_self]
    show (decide (s.sessionGeneration ≠ s.sessionGeneration) || s.disposed) = false
    rw [hdisposed, Bool.or_false]
    exact decide_eq_false fun h => h rfl
  signal := by
    show (if i = i then s.combinedReason none else s.reasons i) = none
    rw [if_pos rfl, Session.combinedReason, howner]
    rfl

theorem sharedDiscovery_run (hdisposed : s.disposed = false) (howner : s.owner = none) :
    ((sharedDiscovery config i).toProgram.run Session.record fresh s).state =
      (s.record ⟨i, .began none⟩).record ⟨i, .opened⟩ := by
  have hbegan : Current (s.record ⟨i, .began none⟩) i := began_live hdisposed howner
  have hopened : Current ((s.record ⟨i, .began none⟩).record ⟨i, .opened⟩) i :=
    hbegan.congr (record_part Operation.generation (fun _ => rfl) i i).symm rfl rfl id
  refine (requireActive_run hdisposed _).trans ?_
  refine (assertOperation_run hbegan _).trans ?_
  refine (assertOperation_run hopened _).trans ?_
  refine (throwIfAborted_run hopened.signal _).trans ?_
  refine (throwIfAborted_run hopened.signal _).trans ?_
  rfl

/-! ## Callers -/

/-- An operation that may join the discovery. -/
def Joins (i : Nat) (validated : Option (Nat × HubInvitation)) (pending : Nat) (s : Session) :
    Prop :=
  Ready i validated s ∧ Current s i ∧ s.discoveryPending = some pending

/-- What a caller gets of a shared discovery. -/
def Discovers (config : HubConfig) (i : Nat) (validated : Option (Nat × HubInvitation)) :
    Discovered → Session → Prop :=
  Outcome (fun response s => Vouched config s i response.value ∧ Begun i validated s)
    (At i (Failed false))

theorem stable_discovers (r : Discovered) :
    (hubLogic config start).Stable i (Discovers config i validated r) := by
  cases r with
  | ok response => exact fun s s' hkeeps hs => ⟨hs.1.keeps hkeeps, stable_begun s s' hkeeps hs.2⟩
  | error e => exact stable_at (Failed false)

theorem begun_left {result : Discovered} (h : Begun i validated s) (hleave : MayLeave s i result) :
    Begun i validated (s.record ⟨i, .left result⟩) := by
  obtain ⟨d, -, -, hrecord⟩ := record_left hleave
  have hepoch : (s.record ⟨i, .left result⟩).epoch = s.epoch := by
    rw [hrecord, (Aborts.abandon _ d).epoch]
    rfl
  have hself : (s.record ⟨i, .left result⟩).operations i = s.operations i :=
    record_self s i (.left result)
  refine ⟨?_, ?_, ?_⟩
  · rw [hself]
    exact h.unsent
  · rw [hself]
    exact h.validated
  · rw [hself, hepoch]
    exact h.epoch

-- A caller that leaves with a document has one that is vouched for.
theorem vouched_left {response : HubResponse HubDiscovery} (hinv : Inv config s)
    (hleave : MayLeave s i (.ok response)) :
    Vouched config (s.record ⟨i, .left (.ok response)⟩) i response.value := by
  have hinv' : Inv config (s.record ⟨i, .left (.ok response)⟩) := hinv.record hleave
  obtain ⟨d, -, -, hrecord⟩ := record_left hleave
  refine hinv'.identity.left i d (.ok response) ?_ response rfl
  rw [hrecord, abandon_waits]
  exact if_pos rfl

-- A caller whose promise may be settled with an error.
theorem triple_leave_error {P : Session → Prop} (error : Thrown) {R : Discovered → Session → Prop}
    (h : ∀ s, P s → MayLeave s i (.error error) ∧ At i (Failed false) s)
    (hR : ∀ s, At i (Failed false) s → R (.error error) s) :
    (hubLogic config start).Triple i P (do
      act i (.left (.error error))
      throw error) R :=
  .perform_bind (W := At i (Failed false)) rfl
    (fun s _ hs => ⟨(h s hs).1, at_record (.left (.error error)) (h s hs).2 fun _ hx => hx⟩)
    (.throw hR)

theorem triple_leaveDiscovery (pending : Nat) :
    (hubLogic config start).Triple i (Waits i validated pending) (leaveDiscovery pending i)
      (Discovers config i validated) := by
  refine .get_bind fun s hinv hs => ?_
  have hfailed : ∀ s', s' = s → At i (Failed false) s' := fun s' heq => heq ▸ hs.1.failed
  cases hwait : s.waits i with
  | none => exact .throw fun s' heq => hfailed s' heq
  | left d result =>
    refine .ofExcept fun s' heq => ?_
    cases result with
    | ok response =>
      exact heq ▸ ⟨hinv.identity.left i d _ hwait response rfl, hs.1⟩
    | error e => exact hfailed s' heq
  | waiting d =>
    obtain rfl : d = pending := by
      rcases hs.2 with hpending | ⟨result, hleft⟩
      · exact Wait.waiting.inj (hwait.symm.trans hpending)
      · rw [hwait] at hleft
        cases hleft
    cases hresult : (s.operations d).result with
    | none => exact .throw fun s' heq => hfailed s' heq
    | some result =>
      cases result with
      | error error =>
        refine triple_leave_error error (fun s' heq => ?_) fun _ hs => hs
        subst heq
        exact ⟨⟨⟨d, hwait, .inl hresult⟩, nofun⟩, hs.1.failed⟩
      | ok response =>
        refine .attempt_bind (triple_check (P := (· = s)) (E := fun e s' =>
          (CheckError s' i e ∧ s'.waits i = .waiting d) ∧ At i (Failed false) s')
          fun s' e heq hchecked => ?_) fun checked => ?_
        · subst heq
          exact ⟨⟨hchecked.refused, hwait⟩, failed_refused hs.1.failed⟩
        · cases checked with
          | ok u =>
            have hmay : ∀ s', s' = s ∧ Current s' i → MayLeave s' i (.ok response) := by
              rintro s' ⟨rfl, hlive⟩
              exact ⟨⟨d, hwait, .inl hresult⟩, fun _ _ => hlive⟩
            refine .perform_bind
              (W := fun s => Vouched config s i response.value ∧ Begun i validated s) rfl
              (fun s' hinv' hs' => ⟨hmay s' hs', ?_, begun_left (hs'.1 ▸ hs.1) (hmay s' hs')⟩)
              (.pure fun s' hs' => hs')
            exact vouched_left hinv' (hmay s' hs')
          | error error =>
            refine triple_leave_error error (fun s' hs' => ⟨?_, hs'.2⟩) fun _ hs => hs
            exact ⟨⟨d, hs'.1.2, .inr ⟨error, rfl, hs'.1.1⟩⟩, nofun⟩

theorem begun_joined (h : Begun i validated s) (pending : Nat) :
    Begun i validated (s.record ⟨i, .joined pending⟩) where
  unsent := by
    rw [record_self]
    exact h.unsent
  validated := by
    rw [record_self]
    exact h.validated
  epoch := by
    rw [record_self]
    exact h.epoch

theorem triple_waitForDiscovery (pending : Nat) :
    (hubLogic config start).Triple i (Joins i validated pending) (waitForDiscovery pending i)
      (Discovers config i validated) := by
  refine .perform_bind (W := fun s => Waits i validated pending s ∧ s.reasons i = none) rfl
    (fun s _ hs => ⟨⟨⟨hs.2.1, hs.1.1.unsent.begun⟩, hs.2.2, hs.1.2, hs.1.1.unsent.opened⟩,
      ⟨begun_joined hs.1.1 pending, .inl (if_pos rfl)⟩, hs.2.1.signal⟩) ?_
  refine .bind (Q := fun r s => r = .ok () ∧ Waits i validated pending s) ?_ (fun _ => ?_) ?_
  · refine .get_bind fun s _ hs => ?_
    have hsignal : s.signal i = none := hs.2
    rw [hsignal]
    exact .pure fun s' heq => heq ▸ ⟨rfl, hs.1⟩
  · refine .weaken (W := Waits i validated pending) ?_ (fun s hs => hs.2) fun _ _ hr => hr
    exact .await_bind (fun _ _ _ => trivial) (stable_waits pending)
      fun _ => triple_leaveDiscovery pending
  · rintro e s ⟨herror, -⟩
    cases herror

-- A live operation that has begun shows that the owner's signal is not aborted.
theorem live_owner (hinv : Inv config s) (hlive : Current s i)
    (hbegun : (s.operations i).begun = true) : s.owner = none := by
  by_contra howner
  exact hinv.signals.owner howner i hbegun hlive.signal

-- The caller of a discovery that has just been started may join it.
theorem forked_joins {k : Nat} {s' : Session} (hready : Ready i validated s) (hlive : Current s i)
    (hinv : Inv config s) (hkeeps : Keeps i s s')
    (hs' : s' = ((sharedDiscovery config k).toProgram.run Session.record (k + 1) s).state) :
    Joins i validated k s' := by
  rw [sharedDiscovery_run hlive.disposed (live_owner hinv hlive hready.1.unsent.begun)] at hs'
  have hready' : Ready i validated s' := hready.keeps hkeeps
  have hne : i ≠ k := by
    rintro rfl
    have hopened : (s'.operations i).opened = true := by
      rw [hs', record_self]
      rfl
    rw [hready'.1.unsent.opened] at hopened
    cases hopened
  refine ⟨hready', ?_, by rw [hs']; rfl⟩
  refine hlive.congr (by rw [hkeeps.operation]) (by rw [hs']; rfl) (by rw [hs']; rfl) fun hnone => ?_
  rw [hs']
  exact (if_neg hne).trans hnone

theorem triple_discover :
    (hubLogic config start).Triple i (Ready i validated) (discover config i)
      (Discovers config i validated) := by
  refine assert_bind (E := At i (Failed false)) (fun s hs _ => failed_refused hs.1.failed) ?_
    fun _ _ hs => hs
  refine .get_bind fun s hinv hs => ?_
  cases hpending : s.discoveryPending with
  | some pending =>
    exact (triple_waitForDiscovery pending).weaken (fun s' heq => heq ▸ ⟨hs.1, hs.2, hpending⟩)
      fun _ _ hr => hr
  | none =>
    refine .bind (Q := fun r s' => ∃ k, r = .ok k ∧ Joins i validated k s') (.fork (fun k => ?_)
      fun k s₀ s' heq hs' hkeeps _ => ?_) (fun k => ?_) ?_
    · refine triple_sharedDiscovery.weaken (fun s' hs' => ⟨hs'.1, ?_⟩) fun _ _ hr => hr
      rw [hs'.2]
      exact hpending
    · subst heq
      exact ⟨k, rfl, forked_joins hs.1 hs.2 hinv hkeeps hs'⟩
    · refine (triple_waitForDiscovery k).weaken ?_ fun _ _ hr => hr
      rintro s' ⟨k', hk, hjoins⟩
      obtain rfl := Except.ok.inj hk
      exact hjoins
    · rintro e s' ⟨k, hk, -⟩
      cases hk

/-! ## Admission -/

theorem begun_admitted {A : Operation → Prop} {discovery : HubDiscovery} (h : Begun i validated s)
    (hA : A { s.operations i with admitted := some discovery }) :
    Begun i validated (s.record ⟨i, .admitted discovery⟩) ∧ At i A (s.record ⟨i, .admitted discovery⟩) := by
  refine ⟨⟨?_, ?_, ?_⟩, ?_⟩
  · rw [record_self]
    exact { h.unsent with }
  · rw [record_self]
    exact h.validated
  · rw [record_self]
    exact h.epoch
  · rw [At, record_self]
    exact hA

theorem triple_ensureDiscovery :
    (hubLogic config start).Triple i (Ready i validated) (ensureDiscovery config i)
      (Outcome (fun discovery s => Begun i validated s ∧ At i (AdmittedBy config · discovery) s)
        (At i (Failed false))) := by
  refine assert_bind (E := At i (Failed false)) (fun s hs _ => failed_refused hs.1.failed) ?_
    fun _ _ hs => hs
  refine .get_bind fun s hinv hs => ?_
  cases hdiscovery : s.discovery with
  | some discovery =>
    have hmem := hinv.identity.discovery discovery hdiscovery
    obtain ⟨hfetched, hhub⟩ := hinv.identity.published discovery hmem
    have hvouched := vouched_published hs.2 hfetched hhub hmem
    refine .perform_bind (W := fun s => Begun i validated s ∧ At i (AdmittedBy config · discovery) s) rfl
      (fun s' _ heq => ⟨heq ▸ hvouched, ?_⟩) (.pure fun s hs => hs)
    exact begun_admitted (heq ▸ hs.1.1) ⟨rfl, hvouched.hub⟩
  | none =>
    refine .bind ((bodyLaws.awaited triple_discover stable_discovers).weaken
      (fun s' heq => heq ▸ hs.1) fun _ _ hr => hr) (fun response => ?_) fun _ _ hs => hs
    refine .perform_bind (W := fun s => Begun i validated s ∧ At i (AdmittedBy config · response.value) s)
      rfl (fun s' _ hs' => ⟨hs'.1, ?_⟩) (.pure fun s hs => hs)
    exact begun_admitted hs'.2 ⟨rfl, hs'.1.hub⟩

theorem stable_ensured (r : Except Thrown HubDiscovery) :
    (hubLogic config start).Stable i
      (Outcome (fun discovery s => Begun i validated s ∧ At i (AdmittedBy config · discovery) s)
        (At i (Failed false)) r) := by
  cases r with
  | ok discovery => exact stable_begun.and (stable_at _)
  | error e => exact stable_at (Failed false)

/-- What a method with a capability begins with. -/
def Capable (config : HubConfig) (capability : JsString) (x : Operation) : Prop :=
  ∃ discovery, AdmittedBy config x discovery ∧ capability ∈ discovery.capabilities

theorem triple_requireCapability (capability : JsString) :
    (hubLogic config start).Triple i (Ready i validated) (requireCapability config i capability)
      (Outcome (fun _ s => Begun i validated s ∧ At i (Capable config capability) s)
        (At i (Failed false))) := by
  refine assert_bind (E := At i (Failed false)) (fun s hs _ => failed_refused hs.1.failed) ?_
    fun _ _ hs => hs
  refine .bind ((bodyLaws.awaited triple_ensureDiscovery stable_ensured).weaken
    (fun _ hs => hs.1) fun _ _ hr => hr) (fun discovery => ?_) fun _ _ hs => hs
  refine assert_bind (E := At i (Failed false)) (fun s hs _ => failed_refused hs.1.failed) ?_
    fun _ _ hs => hs
  refine .ite (fun hcapable => .pure fun s hs => ?_) fun _ => .throw fun s hs => hs.1.1.failed
  exact ⟨hs.1.1, discovery, hs.1.2, hcapable⟩

end Discovery

end Hub
