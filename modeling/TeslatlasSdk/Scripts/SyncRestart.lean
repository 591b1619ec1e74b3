import TeslatlasSdk.Scripts.SyncRuns

/-!
# A later synchronization goes on

Where no process leaves a journal that it was writing without its closing brace, whatever the
processes have left is recovered by the next one.
-/

open Text Core Json

namespace Scripts

variable {γ : Type}

inductive Attempt (γ : Type) where
  | synchronize (sync : Synchronization γ)
  | recover (recovery : Recovery γ)

def Attempt.host : Attempt γ → Host
  | .synchronize sync => sync.host
  | .recover recovery => recovery.host

def Attempt.past (attempt : Attempt γ) (w : SyncPast γ) : SyncPast γ :=
  match attempt with
  | .synchronize sync => (sync.outcome w).past
  | .recover recovery => (recovery.outcome w).past

def attemptAll (attempts : List (Attempt γ)) (w : SyncPast γ) : SyncPast γ :=
  attempts.foldl (fun w attempt => attempt.past w) w

namespace Transaction

variable {T : Transaction γ} {host : Host} {committed : Bool} {Φ : Tree γ → Prop}

theorem recoverFirst_spec {smooth : Bool} (pid : Pid)
    (hrecover : T.Spec host smooth committed Φ (recoverProtocolSync pid none) fun _ =>
      T.Closed committed)
    (hphase : ∀ tree, Φ tree → T.Phase committed tree) :
    T.Spec host smooth committed Φ (recoverFirst pid) fun _ => T.Closed committed := by
  have hroot : Able host smooth Φ .requireRoot := fun _ tree _ => ⟨(), tree, rfl⟩
  exact (Spec.check rfl hphase hroot).bind fun _ => hrecover

end Transaction

/-- There is no journal, or one that the next process recovers from once its owner is gone. -/
def Recoverable (temporaryRoot : RealPath) (owners : List Pid) (w : SyncPast γ) : Prop :=
  w.state.journal = none ∨ ∃ T : Transaction γ,
    isStageRoot temporaryRoot T.root = true ∧ T.owner ∈ owners ∧ T.Sound w

theorem Synchronization.recovered_unchanged (sync : Synchronization γ) {w : SyncPast γ}
    (hnone : w.state.journal = none) : (sync.recovered w).past.state = w.state := by
  have hfirst : (idle sync.host w.state).Triple (fun w' => w'.state = w.state)
      (recoverFirst sync.host.pid) fun _ w' => w'.state = w.state := by
    have hroot : (idle sync.host w.state).Triple (fun w' => w'.state = w.state)
        (command .requireRoot) fun _ w' => w'.state = w.state :=
      (idle_query rfl).bind (fun _ => CrashLogic.triple_ended fun _ h => h.1) fun _ _ h => h.1
    exact hroot.bind (fun _ => idle_recover hnone _ _) fun _ _ h => h
  exact idle_state hfirst sync.fates rfl

theorem recoverFirst_safe {T : Transaction γ} {host : Host} (pid : Pid) :
    T.Safe host T.Sound (recoverFirst pid) fun _ => T.Recovered := by
  rintro fates w ⟨committed, hw⟩ hassumed
  have hrecover : T.Spec host false committed (T.Phase committed) (recoverFirst pid) fun _ =>
      T.Closed committed :=
    Transaction.recoverFirst_spec pid (Transaction.recover_spec pid none nofun) fun _ h => h
  refine (hrecover.safe.weaken (fun _ h => h) fun _ w h => ?_) fates w hw hassumed
  exact ⟨h.sound fun hclosed => hclosed.phase, h.state.1⟩

-- A synchronization whose own recovery fails has done nothing else.
theorem synchronize_stuck {T : Transaction γ} (sync : Synchronization γ) {w : SyncPast γ}
    (hw : T.Sound w) (hjournal : (sync.recovered w).past.state.journal ≠ none)
    (hwhole : CreatesWhole (sync.outcome w).past) : T.Sound (sync.outcome w).past := by
  have hfirst : CreatesWhole (sync.recovered w).past := by
    refine hwhole.of_append ?_
    rcases sync.outcome_cases w with ⟨-, hpast⟩ | hpast
    · rw [hpast]
      exact Script.run_steps _ _ _ _
    · rw [hpast]
      exact ⟨[], (List.append_nil _).symm⟩
  have hassumed : ∀ step ∈ (sync.recovered w).past.steps.drop w.steps.length,
      (T.logic sync.host false).assumed step :=
    fun step hstep => ⟨hfirst step (List.mem_of_mem_drop hstep), nofun⟩
  have hsafe : T.Safe sync.host T.Sound (recoverFirst sync.host.pid) fun _ => T.Recovered :=
    recoverFirst_safe _
  have ht := hsafe sync.fates w hw hassumed
  have hending : ((recoverFirst sync.host.pid).run (files sync.host) sync.fates w).ending =
      (sync.recovered w).ending := rfl
  rw [hending] at ht
  rcases sync.outcome_cases w with ⟨hok, -⟩ | hpast
  · rw [hok] at ht
    exact absurd ht.2 hjournal
  · rw [hpast]
    cases hended : (sync.recovered w).ending with
    | ended result =>
      rw [hended] at ht
      cases result with
      | ok _ => exact ht.1
      | error e => exact ht
    | died =>
      rw [hended] at ht
      exact ht

theorem Recoverable.attempt {temporaryRoot : RealPath} {owners : List Pid} {w : SyncPast γ}
    (h : Recoverable temporaryRoot owners w) (hproper : temporaryRoot.components ≠ [])
    {attempt : Attempt γ} (hroot : attempt.host.temporaryRoot = temporaryRoot)
    (howner : attempt.host.pid ∈ owners) (hwhole : CreatesWhole (attempt.past w)) :
    Recoverable temporaryRoot owners (attempt.past w) := by
  cases attempt with
  | recover recovery =>
    rcases h with hnone | ⟨T, hstage, hpid, hsound⟩
    · exact .inl ((congrArg Tree.journal (recovery.unchanged hnone)).trans hnone)
    · exact .inr ⟨T, hstage, hpid, Transaction.recovery_sound recovery hsound hwhole⟩
  | synchronize sync =>
    by_cases hjournal : (sync.recovered w).past.state.journal = none
    · refine .inr ⟨sync.transaction (sync.recovered w).past, ?_, howner,
        Transaction.synchronization_sound sync hjournal hwhole⟩
      rw [← hroot] at hproper ⊢
      exact isStageRoot_stagePath hproper _
    · rcases h with hnone | ⟨T, hstage, hpid, hsound⟩
      · exact absurd ((congrArg Tree.journal (sync.recovered_unchanged hnone)).trans hnone) hjournal
      · exact .inr ⟨T, hstage, hpid, synchronize_stuck sync hsound hjournal hwhole⟩

theorem Attempt.past_steps (attempt : Attempt γ) (w : SyncPast γ) :
    ∃ steps, (attempt.past w).steps = w.steps ++ steps := by
  cases attempt with
  | synchronize sync => exact Script.run_steps _ _ _ _
  | recover recovery => exact Script.run_steps _ _ _ _

theorem attemptAll_steps (attempts : List (Attempt γ)) (w : SyncPast γ) :
    ∃ steps, (attemptAll attempts w).steps = w.steps ++ steps := by
  induction attempts generalizing w with
  | nil => exact ⟨[], (List.append_nil _).symm⟩
  | cons attempt attempts ih =>
    obtain ⟨first, hfirst⟩ := attempt.past_steps w
    obtain ⟨rest, hrest⟩ := ih (attempt.past w)
    refine ⟨first ++ rest, ?_⟩
    rw [← List.append_assoc, ← hfirst]
    exact hrest

theorem Recoverable.attemptAll {temporaryRoot : RealPath} {owners : List Pid} {w : SyncPast γ}
    (h : Recoverable temporaryRoot owners w) (hproper : temporaryRoot.components ≠ [])
    (attempts : List (Attempt γ))
    (hattempts : ∀ attempt ∈ attempts, attempt.host.temporaryRoot = temporaryRoot ∧
      attempt.host.pid ∈ owners)
    (hwhole : CreatesWhole (Scripts.attemptAll attempts w)) :
    Recoverable temporaryRoot owners (Scripts.attemptAll attempts w) := by
  induction attempts generalizing w with
  | nil => exact h
  | cons attempt attempts ih =>
    obtain ⟨hroot, howner⟩ := hattempts attempt List.mem_cons_self
    refine ih (h.attempt hproper hroot howner (hwhole.of_append ?_))
      (fun attempt hattempt => hattempts attempt (List.mem_cons_of_mem _ hattempt)) hwhole
    exact attemptAll_steps attempts (attempt.past w)

-- The recovery of a synchronization that nothing goes wrong in.
theorem Recoverable.recovered {temporaryRoot : RealPath} {owners : List Pid} {w : SyncPast γ}
    (h : Recoverable temporaryRoot owners w) {next : Synchronization γ}
    (hroot : next.host.temporaryRoot = temporaryRoot)
    (hgone : ∀ pid ∈ owners, next.host.alive pid = false)
    (hfates : ∀ fate ∈ next.fates, fate = .done) :
    (next.recovered w).ending = .ended (.ok ()) := by
  rcases h with hnone | ⟨T, hstage, howner, committed, hsound⟩
  · have hfirst : (next.transaction w).Spec next.host true false
        ((next.transaction w).Closed false) (recoverFirst next.host.pid) fun _ =>
          (next.transaction w).Closed false :=
      Transaction.recoverFirst_spec next.host.pid (Transaction.recover_closed_spec _ none)
        fun _ hclosed => hclosed.phase
    refine hfirst.completes hfates ?_
    exact (Transaction.transaction_begins next hnone).imp fun huntouched => huntouched
  · have hfirst : T.Spec next.host true committed (T.Phase committed) (recoverFirst next.host.pid)
        fun _ => T.Closed committed := by
      refine Transaction.recoverFirst_spec next.host.pid (Transaction.recover_spec _ none ?_)
        fun _ hphase => hphase
      exact fun _ => ⟨hroot ▸ hstage, hgone T.owner howner⟩
    exact hfirst.completes hfates hsound

/-! ## Every run -/

-- Processes that all have the same temporary directory, other than the root directory, are
-- stopped anywhere but between the first byte of a journal and its closing brace.  When they are
-- gone the next one gets past its recovery.
theorem synchronizeProtocol_goesOn (attempts : List (Attempt γ)) (tree : Tree γ)
    (next : Synchronization γ) (hnone : tree.journal = none)
    (hproper : next.host.temporaryRoot.components ≠ [])
    (hroot : ∀ attempt ∈ attempts, attempt.host.temporaryRoot = next.host.temporaryRoot)
    (hwhole : CreatesWhole (attemptAll attempts tree.untried))
    (hgone : ∀ attempt ∈ attempts, next.host.alive attempt.host.pid = false)
    (hfates : ∀ fate ∈ next.fates, fate = .done) :
    (next.recovered (attemptAll attempts tree.untried)).ending = .ended (.ok ()) := by
  have hrecoverable : Recoverable next.host.temporaryRoot (attempts.map fun a => a.host.pid)
      (attemptAll attempts tree.untried) := by
    have hstart : Recoverable next.host.temporaryRoot (attempts.map fun a => a.host.pid)
        tree.untried := .inl hnone
    refine hstart.attemptAll hproper attempts (fun attempt hattempt => ?_) hwhole
    exact ⟨hroot attempt hattempt, List.mem_map_of_mem hattempt⟩
  refine hrecoverable.recovered rfl (fun pid hpid => ?_) hfates
  obtain ⟨attempt, hattempt, rfl⟩ := List.mem_map.mp hpid
  exact hgone attempt hattempt

def nextSync : Synchronization Nat where
  host := laterRecovery.host
  staged path := some { kind := path.kind, content := 3 }
  fates := []

theorem synchronizeProtocol_goesOn_dying :
    (nextSync.recovered (attemptAll [.synchronize (dyingSync 29)] lockOnly.untried)).ending =
      .ended (.ok ()) := by
  refine synchronizeProtocol_goesOn [.synchronize (dyingSync 29)] lockOnly nextSync rfl (by decide)
    ?_ dyingSync_createsWhole (fun _ _ => rfl) fun _ h => nomatch h
  intro attempt hattempt
  rw [List.mem_singleton.mp hattempt]
  rfl

/-! ## Runs that are stuck -/

-- The process has died when the journal's file was there and nothing had been written to it.
theorem synchronizeProtocol_stuck :
    ((dyingSync 26).outcome lockOnly.untried).past.state.journal = some [] ∧
      (nextSync.recovered (attemptAll [.synchronize (dyingSync 26)] lockOnly.untried)).ending =
        .ended (.error .journalNotJson) := by
  decide +kernel

-- In the root directory a staging directory loses the first letter of its name.
theorem isStageRoot_rootDirectory {temporaryRoot : RealPath} (h : temporaryRoot.components = [])
    (suffix : RandomSuffix) :
    isStageRoot temporaryRoot (stagePath temporaryRoot ++ suffix.val) = false := by
  have htext : temporaryRoot.text = [0x2F] := by rw [RealPath.text, if_pos h]
  have hname : isStageName ((stagePath temporaryRoot ++ suffix.val).drop 2) = false := by
    rw [stagePath, if_pos h, isStageName]
    rfl
  rw [isStageRoot, htext, List.length_singleton, hname, Bool.and_false]

end Scripts
