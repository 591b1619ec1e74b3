import TeslatlasSdk.Scripts.SyncReplacement

/-!
# Synchronizations and recoveries over a tree

Processes come one after another, each with a synchronization or a recovery, and each may be
stopped anywhere.
-/

open Text Core Json

namespace Scripts

variable {γ : Type}

abbrev SyncOutcome (γ : Type) :=
  Outcome (FileOperation γ) SyncError (Tree γ) (Leftover γ) Unit

structure Recovery (γ : Type) where
  host : Host
  activeOwnerPid : Option Pid
  fates : List (Fate (Leftover γ))

structure Synchronization (γ : Type) where
  host : Host
  staged : ReplacementPath → Option (Node γ)
  fates : List (Fate (Leftover γ))

def Recovery.outcome (recovery : Recovery γ) (w : SyncPast γ) : SyncOutcome γ :=
  (recoverProtocolSync recovery.host.pid recovery.activeOwnerPid).run (files recovery.host)
    recovery.fates w

def Synchronization.outcome (sync : Synchronization γ) (w : SyncPast γ) : SyncOutcome γ :=
  (synchronizeProtocol sync.host.pid sync.staged).run (files sync.host) sync.fates w

/-- The recovery that a synchronization begins with. -/
def Synchronization.recovered (sync : Synchronization γ) (w : SyncPast γ) : SyncOutcome γ :=
  (recoverFirst sync.host.pid).run (files sync.host) sync.fates w

def recoverAll (recoveries : List (Recovery γ)) (w : SyncPast γ) : SyncPast γ :=
  recoveries.foldl (fun w recovery => (recovery.outcome w).past) w

def Tree.untried (tree : Tree γ) : SyncPast γ := { state := tree, steps := [] }

/-- What a synchronization is to bring about, given what it finds. -/
def Synchronization.transaction (sync : Synchronization γ) (w : SyncPast γ) : Transaction γ where
  original path := w.state.node (.target path)
  staged := sync.staged
  root := stagePath sync.host.temporaryRoot ++ sync.host.suffix.val
  owner := sync.host.pid
  since := w.steps.length

def CreatesWhole (w : SyncPast γ) : Prop :=
  ∀ step ∈ w.steps, createsWhole step.operation step.before step.after = true

/-! ## Without a journal -/

/-- Nothing happens to the tree. -/
def idle (host : Host) (tree : Tree γ) : CrashLogic (files (γ := γ) host) where
  assumed _ := True
  always w := w.state = tree

theorem idle_query {host : Host} {tree : Tree γ} {operation : FileOperation γ}
    (hquery : operation.isQuery = true) :
    (idle host tree).Triple (fun w => w.state = tree) (operate operation) fun result w =>
      w.state = tree ∧ ∀ answer, result = .ok answer →
        performFile host operation tree = .ok (answer, tree) := by
  have hleft : ∀ left, leaveFile host operation left tree = tree := by
    intro left
    have hleave : leaveFile host operation left tree = tree ∨ ∃ answer,
        performFile host operation tree = .ok (answer, leaveFile host operation left tree) :=
      leave_of_isWhole (FileOperation.isWhole_of_isQuery hquery) left tree
    rcases hleave with hleave | ⟨answer, hperform⟩
    · exact hleave
    · exact query_perform hquery hperform
  refine CrashLogic.triple_operate ?_ ?_ ?_ ?_
  · rintro w answer s rfl hperform -
    obtain rfl := query_perform hquery hperform
    refine ⟨rfl, fun answer' hanswer => ?_⟩
    rw [← Except.ok.inj hanswer]
    exact hperform
  · rintro w e rfl -
    exact ⟨rfl, fun _ h => nomatch h⟩
  · rintro w left rfl -
    exact ⟨hleft left, fun _ h => nomatch h⟩
  · rintro w left rfl -
    exact hleft left

theorem idle_recover {host : Host} {tree : Tree γ} (hnone : tree.journal = none) (pid : Pid)
    (activeOwnerPid : Option Pid) :
    (idle host tree).Triple (fun w => w.state = tree) (recoverProtocolSync pid activeOwnerPid)
      fun _ w => w.state = tree := by
  have hroot : (idle host tree).Triple (fun w => w.state = tree) (command .requireRoot)
      fun _ w => w.state = tree :=
    (idle_query rfl).bind (fun _ => CrashLogic.triple_ended fun _ h => h.1) fun _ _ h => h.1
  refine hroot.bind (fun _ => ?_) fun _ _ h => h
  refine (idle_query rfl).bind (fun found => ?_) fun _ _ h => h.1
  cases found with
  | false => exact CrashLogic.triple_ended fun _ h => h.1
  | true =>
    rintro fates w ⟨-, hanswer⟩
    have hfound := hanswer true rfl
    rw [performFile, hnone] at hfound
    cases hfound

theorem idle_state {host : Host} {tree : Tree γ} {t : Sync γ Unit}
    (h : (idle host tree).Triple (fun w => w.state = tree) t fun _ w => w.state = tree)
    (fates : List (Fate (Leftover γ))) {w : SyncPast γ} (hw : w.state = tree) :
    (t.run (files host) fates w).past.state = tree := by
  have ht := h fates w hw fun _ _ => trivial
  split at ht
  · exact ht
  · exact ht

theorem Recovery.unchanged (recovery : Recovery γ) {w : SyncPast γ}
    (hnone : w.state.journal = none) : (recovery.outcome w).past.state = w.state :=
  idle_state (idle_recover hnone _ _) recovery.fates rfl

/-! ## Smooth runs -/

-- An operation that is carried out creates a journal as a whole.
theorem createsWhole_of_perform {host : Host} {operation : FileOperation γ} {tree s : Tree γ}
    {answer : Answer operation} (h : performFile host operation tree = .ok (answer, s)) :
    createsWhole operation tree s = true := by
  cases operation with
  | createJournal text =>
    obtain rfl := (Prod.mk.inj (ensure_map h).2).2
    rw [createsWhole]
    simp
  | _ => rfl

theorem createsWhole_of_refused {host : Host} {operation : FileOperation γ} {tree : Tree γ}
    {e : SyncError} (h : performFile host operation tree = .error e) :
    createsWhole operation tree tree = true := by
  cases operation with
  | createJournal text =>
    rw [performFile] at h
    rw [createsWhole]
    cases hjournal : tree.journal with
    | none =>
      rw [hjournal] at h
      cases h
    | some bytes => rfl
  | _ => rfl

theorem createsWhole_of_done {host : Host} {t : Sync γ Unit} {fates : List (Fate (Leftover γ))}
    (hfates : ∀ fate ∈ fates, fate = .done) {w : SyncPast γ} (step : SyncStep γ)
    (hstep : step ∈ (t.run (files host) fates w).past.steps.drop w.steps.length) :
    createsWhole step.operation step.before step.after = true := by
  obtain ⟨-, hsteps⟩ := t.run_done (files host) hfates w
  obtain ⟨-, ⟨answer, hperform⟩ | ⟨⟨e, hrefused⟩, hsame⟩⟩ := hsteps step hstep
  · exact createsWhole_of_perform hperform
  · rw [hsame]
    exact createsWhole_of_refused hrefused

theorem CreatesWhole.recover {w : SyncPast γ} (h : CreatesWhole w) {recovery : Recovery γ}
    (hfates : ∀ fate ∈ recovery.fates, fate = .done) : CreatesWhole (recovery.outcome w).past := by
  intro step hstep
  obtain ⟨steps, hsteps⟩ := Script.run_steps (files recovery.host)
    (recoverProtocolSync recovery.host.pid recovery.activeOwnerPid) recovery.fates w
  rcases List.mem_append.mp (hsteps ▸ hstep) with hstep | hstep
  · exact h step hstep
  · have hlast : step ∈ (recovery.outcome w).past.steps.drop w.steps.length := by
      rw [Recovery.outcome, hsteps, List.drop_left]
      exact hstep
    exact createsWhole_of_done hfates step hlast

/-! ## Runs of a transaction -/

namespace Transaction

variable {T : Transaction γ} {host : Host} {P : SyncPast γ → Prop}

theorem Safe.sound {t : Sync γ Unit} (h : T.Safe host P t fun _ => T.Sound)
    (fates : List (Fate (Leftover γ))) {w : SyncPast γ} (hw : P w)
    (hwhole : CreatesWhole (t.run (files host) fates w).past) :
    T.Sound (t.run (files host) fates w).past := by
  have ht := h fates w hw fun step hstep => ⟨hwhole step (List.mem_of_mem_drop hstep), nofun⟩
  split at ht
  · next result _ =>
    cases result with
    | ok _ => exact ht
    | error _ => exact ht
  · exact ht

theorem recovery_sound (recovery : Recovery γ) {w : SyncPast γ} (hw : T.Sound w)
    (hwhole : CreatesWhole (recovery.outcome w).past) : T.Sound (recovery.outcome w).past :=
  ((recover_safe _ _).weaken (fun _ h => h) fun _ _ h => h.1).sound recovery.fates hw hwhole

theorem recovery_completes (recovery : Recovery γ) {w : SyncPast γ} (hw : T.Sound w)
    (hwhole : CreatesWhole (recovery.outcome w).past)
    (hok : (recovery.outcome w).ending = .ended (.ok ())) :
    (recovery.outcome w).past.state.journal = none := by
  have hsafe : T.Safe recovery.host T.Sound
      (recoverProtocolSync recovery.host.pid recovery.activeOwnerPid) fun _ => T.Recovered :=
    recover_safe _ _
  have ht := hsafe recovery.fates w hw fun step hstep =>
    ⟨hwhole step (List.mem_of_mem_drop hstep), nofun⟩
  have hending : ((recoverProtocolSync recovery.host.pid recovery.activeOwnerPid).run
      (files recovery.host) recovery.fates w).ending = .ended (.ok ()) := hok
  rw [hending] at ht
  exact ht.2

-- A smooth run of what has a specification ends well.
theorem Spec.completes {committed : Bool} {Φ : Tree γ → Prop} {t : Sync γ Unit} {Ψ : Unit → Tree γ → Prop}
    (h : T.Spec host true committed Φ t Ψ) {fates : List (Fate (Leftover γ))}
    (hfates : ∀ fate ∈ fates, fate = .done) {w : SyncPast γ} (hw : T.At committed Φ w) :
    (t.run (files host) fates w).ending = .ended (.ok ()) := by
  obtain ⟨⟨result, hending⟩, hsteps⟩ := t.run_done (files host) hfates w
  have ht := h fates w hw fun step hstep =>
    ⟨createsWhole_of_done hfates step hstep, fun _ => (hsteps step hstep).1⟩
  rw [hending] at ht ⊢
  cases result with
  | ok _ => rfl
  | error e => exact absurd ht.2 (by simp)

theorem recovery_succeeds (recovery : Recovery γ) {w : SyncPast γ} (hw : T.Sound w)
    (hfates : ∀ fate ∈ recovery.fates, fate = .done)
    (hroot : isStageRoot recovery.host.temporaryRoot T.root = true)
    (hgone : recovery.host.alive T.owner = false) :
    (recovery.outcome w).ending = .ended (.ok ()) := by
  obtain ⟨committed, hat⟩ := hw
  have hrecover : T.Spec recovery.host true committed (T.Phase committed)
      (recoverProtocolSync recovery.host.pid recovery.activeOwnerPid) fun _ => T.Closed committed :=
    recover_spec _ _ fun _ => ⟨hroot, hgone⟩
  exact hrecover.completes hfates hat

theorem transaction_begins (sync : Synchronization γ) {w : SyncPast γ}
    (hnone : w.state.journal = none) :
    (sync.transaction w).At false (sync.transaction w).Untouched w where
  begun := Nat.le_refl _
  backups := by
    intro step hstep
    rw [Synchronization.transaction, List.drop_length] at hstep
    cases hstep
  committed_iff := by
    rw [Committed, Synchronization.transaction, List.drop_length]
    simp
  state := ⟨hnone, fun _ => rfl⟩

end Transaction

theorem CreatesWhole.of_append {earlier w : SyncPast γ} (h : CreatesWhole w)
    (hsteps : ∃ steps, w.steps = earlier.steps ++ steps) : CreatesWhole earlier := by
  obtain ⟨steps, hsteps⟩ := hsteps
  exact fun step hstep => h step (hsteps ▸ List.mem_append_left _ hstep)

-- A synchronization goes on where its recovery has ended, or ends there.
theorem Synchronization.outcome_cases (sync : Synchronization γ) (w : SyncPast γ) :
    ((sync.recovered w).ending = .ended (.ok ()) ∧
        (sync.outcome w).past = ((stageAndReplace sync.host.pid sync.staged).run (files sync.host)
          (sync.recovered w).fates (sync.recovered w).past).past) ∨
      (sync.outcome w).past = (sync.recovered w).past := by
  rw [Synchronization.outcome, synchronizeProtocol_eq, Script.run_bind]
  show ((sync.recovered w).ending = _ ∧ _) ∨ _
  rw [← Synchronization.recovered]
  cases hending : (sync.recovered w).ending with
  | ended result =>
    cases result with
    | ok _ => exact .inl ⟨rfl, rfl⟩
    | error e => exact .inr rfl
  | died => exact .inr rfl

namespace Transaction

theorem synchronization_sound (sync : Synchronization γ) {w : SyncPast γ}
    (hnone : (sync.recovered w).past.state.journal = none)
    (hwhole : CreatesWhole (sync.outcome w).past) :
    (sync.transaction (sync.recovered w).past).Sound (sync.outcome w).past := by
  have hbegins := transaction_begins sync hnone
  rcases sync.outcome_cases w with ⟨-, hpast⟩ | hpast
  · have hsafe : (sync.transaction (sync.recovered w).past).Safe sync.host
        ((sync.transaction (sync.recovered w).past).At false
          (sync.transaction (sync.recovered w).past).Untouched)
        (stageAndReplace sync.host.pid sync.staged) fun _ =>
          (sync.transaction (sync.recovered w).past).Sound :=
      stageAndReplace_safe rfl
    rw [hpast] at hwhole ⊢
    exact hsafe.sound _ hbegins hwhole
  · rw [hpast]
    exact hbegins.sound fun h => Or.inl h

theorem recoverAll_steps (recoveries : List (Recovery γ)) (w : SyncPast γ) :
    ∃ steps, (recoverAll recoveries w).steps = w.steps ++ steps := by
  induction recoveries generalizing w with
  | nil => exact ⟨[], (List.append_nil _).symm⟩
  | cons recovery recoveries ih =>
    obtain ⟨first, hfirst⟩ := Script.run_steps (files recovery.host)
      (recoverProtocolSync recovery.host.pid recovery.activeOwnerPid) recovery.fates w
    obtain ⟨rest, hrest⟩ := ih (recovery.outcome w).past
    refine ⟨first ++ rest, ?_⟩
    rw [← List.append_assoc, ← hfirst]
    exact hrest

theorem recoverAll_sound {T : Transaction γ} (recoveries : List (Recovery γ)) {w : SyncPast γ}
    (hw : T.Sound w) (hwhole : CreatesWhole (recoverAll recoveries w)) :
    T.Sound (recoverAll recoveries w) := by
  induction recoveries generalizing w with
  | nil => exact hw
  | cons recovery recoveries ih =>
    refine ih (recovery_sound recovery hw (hwhole.of_append ?_)) hwhole
    exact recoverAll_steps recoveries (recovery.outcome w).past

end Transaction

/-! ## All or nothing -/

/-- The journal on disk has reached the committed state. -/
def ReachedCommitted (steps : List (SyncStep γ)) : Prop :=
  ∃ step ∈ steps, step.after.journalState = some .committed

-- A synchronization, stopped anywhere or not at all, and then recoveries, stopped anywhere until
-- one completes: what the synchronization found is there again, or what it staged, as the journal
-- had it.  `begun` is the tree it found, when its own recovery of an earlier one was over.
theorem synchronizeProtocol_allOrNothing (sync : Synchronization γ) (tree : Tree γ)
    (recoveries : List (Recovery γ)) (last : Recovery γ) :
    let begun := (sync.recovered tree.untried).past
    let outcome := last.outcome (recoverAll recoveries (sync.outcome tree.untried).past)
    let steps := outcome.past.steps.drop begun.steps.length
    begun.state.journal = none → CreatesWhole outcome.past →
    (∀ step ∈ steps, KeepsBackups step.before step.after) ∧
    (outcome.ending = .ended (.ok ()) →
      (ReachedCommitted steps → ∀ path, ∃ node, sync.staged path = some node ∧
        outcome.past.state.node (.target path) = some node) ∧
      (¬ ReachedCommitted steps → ∀ path,
        outcome.past.state.node (.target path) = begun.state.node (.target path)) ∧
      ∀ again : Recovery γ, (again.outcome outcome.past).past.state = outcome.past.state) := by
  intro begun outcome steps hnone hwhole
  have hlater : CreatesWhole (recoverAll recoveries (sync.outcome tree.untried).past) :=
    hwhole.of_append (Script.run_steps _ _ _ _)
  have hsync : (sync.transaction begun).Sound (sync.outcome tree.untried).past :=
    Transaction.synchronization_sound sync hnone
      (hlater.of_append (Transaction.recoverAll_steps recoveries _))
  have hrecovered := Transaction.recoverAll_sound recoveries hsync hlater
  obtain ⟨committed, hat⟩ := Transaction.recovery_sound last hrecovered hwhole
  refine ⟨hat.backups, fun hok => ?_⟩
  have hjournal : outcome.past.state.journal = none :=
    Transaction.recovery_completes last hrecovered hwhole hok
  have hsettled := hat.state.settled hjournal
  refine ⟨fun hcommitted => ?_, fun hcommitted => ?_, fun again => again.unchanged hjournal⟩
  · rw [hat.committed_iff.mp hcommitted] at hsettled
    exact hsettled
  · have hfalse : committed = false :=
      Bool.eq_false_iff.mpr fun htrue => hcommitted (hat.committed_iff.mpr htrue)
    rw [hfalse] at hsettled
    exact hsettled

/-! ## A run -/

def plainHost (pid : Pid) : Host where
  pid
  temporaryRoot := { components := [js "tmp"], proper := by decide }
  suffix := ⟨js "a1", by decide, rfl⟩
  alive _ := false
  pinned := true

def plainTree (content : ReplacementPath → Option Nat) : Tree Nat where
  parent _ := some .directory
  target path := (content path).map fun content => { kind := path.kind, content }
  staging _ := none
  journal := none
  next := none

/-- A synchronization that dies when it has done some operations. -/
def dyingSync (count : Nat) : Synchronization Nat where
  host := plainHost ⟨7, by decide⟩
  staged path := some { kind := path.kind, content := 2 }
  fates := List.replicate count .done ++
    [.died { took := true, bytes := 0, node := none, staging := none }]

-- Only the lock was there; the death comes when the second path has been replaced.
def lockOnly : Tree Nat := plainTree fun path => if path = .lock then some 1 else none

theorem dyingSync_createsWhole : CreatesWhole ((dyingSync 29).outcome lockOnly.untried).past := by
  have hwhole : ((dyingSync 29).outcome lockOnly.untried).past.steps.all
      (fun step => createsWhole step.operation step.before step.after) = true := by decide +kernel
  exact List.all_eq_true.mp hwhole

def laterRecovery : Recovery Nat :=
  { host := plainHost ⟨8, by decide⟩, activeOwnerPid := none, fates := [] }

def recoveredOnce : SyncOutcome Nat :=
  laterRecovery.outcome (recoverAll [] ((dyingSync 29).outcome lockOnly.untried).past)

/-- The steps of the synchronization and of the recovery after it. -/
def recoveredSteps : List (SyncStep Nat) :=
  recoveredOnce.past.steps.drop ((dyingSync 29).recovered lockOnly.untried).past.steps.length

theorem recoveredSteps_prepared : ¬ ReachedCommitted recoveredSteps := by
  have hall : recoveredSteps.all
      (fun step => decide (step.after.journalState ≠ some .committed)) = true := by decide +kernel
  rintro ⟨step, hmem, hcommitted⟩
  exact of_decide_eq_true (List.all_eq_true.mp hall step hmem) hcommitted

theorem synchronizeProtocol_allOrNothing_dying :
    (∀ step ∈ recoveredSteps, KeepsBackups step.before step.after) ∧
    (∀ path, recoveredOnce.past.state.node (.target path) =
      ((dyingSync 29).recovered lockOnly.untried).past.state.node (.target path)) ∧
    ∀ again : Recovery Nat,
      (again.outcome recoveredOnce.past).past.state = recoveredOnce.past.state := by
  have hwhole : CreatesWhole recoveredOnce.past :=
    dyingSync_createsWhole.recover fun _ h => nomatch h
  have hsound := Transaction.synchronization_sound (dyingSync 29) rfl dyingSync_createsWhole
  have hok : recoveredOnce.ending = .ended (.ok ()) :=
    Transaction.recovery_succeeds laterRecovery hsound (fun _ h => nomatch h)
      (isStageRoot_stagePath (by decide) _) rfl
  have h := synchronizeProtocol_allOrNothing (dyingSync 29) lockOnly [] laterRecovery rfl hwhole
  exact ⟨h.1, (h.2 hok).2.1 recoveredSteps_prepared, (h.2 hok).2.2⟩

end Scripts
