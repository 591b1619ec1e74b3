import TeslatlasSdk.Core.ProgramLogic
import TeslatlasSdk.Scripts.ProfileCleanup

/-!
# What the cleanup of a profile may do

The rules for its actions, the invariant behind them, and what the threads of the invocation, of the
retries, of the closes and of the timers leave to each other.
-/

open Text Core

namespace FirefoxProfile

/-! ## Rules -/

/-- A path has been found with an identity. -/
def Saw (found : List (JsString × FileStat)) (path : JsString) (identity : DirectoryIdentity) :
    Prop :=
  ∃ stat, (path, stat) ∈ found ∧ stat.dev = some identity.dev ∧ stat.ino = some identity.ino ∧
    stat.uid = some identity.uid

/-- A removal is started in an attempt that has seen the close fulfilled and both directories as they
were captured, while no close and no other removal is under way. -/
structure MayRemove (s : ProfileState) (i : Nat) (path : JsString) : Prop where
  attempt : s.attempt = some i
  closed : s.launched = true → s.awaited i = some (.ok ())
  owned : ∃ capture, s.captured = some capture ∧ path = capture.profilePath ∧
    Saw (s.found i) capture.temporaryParent capture.authority.parent ∧
    Saw (s.found i) capture.profilePath capture.authority.profile
  pending : s.pending = none
  closing : s.closing = false
  removing : s.removing = false

/-- `closeContext` is called by the close that is pending, while no call of it and no removal is
under way. -/
structure MayClose (s : ProfileState) (i : Nat) : Prop where
  pending : s.pending = some i
  closing : s.closing = false
  removing : s.removing = false

/-- What a call may end with whose attempt has settled. -/
structure Reports (s : ProfileState) (i : Nat) (outcome : Outcome) : Prop where
  own : s.results i ≠ none → ∀ error, s.operationError = some error → s.primaryError = some error
  rethrown : s.results i = some (.ok ()) → s.invoker = some i →
    ∀ error, s.primaryError = some error → outcome = .threw error
  listed : ∀ error, s.results i = some (.error error) →
    ∃ cleanupError, outcome = .cleanupFailed cleanupError ∧
      cleanupError.errors = s.primaryError.toList ++ [error]

/-- The rules of the cleanup. -/
def Permits (s : ProfileState) (event : ProfileEvent) : Prop :=
  match event.action with
  | .called calls =>
      s.gone = false ∧
        (removes calls = true →
          ∃ path, calls = [.rm path true true] ∧ MayRemove s event.thread path) ∧
        (closes calls = true → calls = [.close] ∧ MayClose s event.thread)
  | .captured capture =>
      s.made event.thread = some capture.profilePath ∧
        Saw (s.found event.thread) capture.profilePath capture.authority.profile ∧
        Saw (s.found event.thread) capture.temporaryParent capture.authority.parent
  | .began => s.attempt = none
  | .closeStarted => s.pending = none ∧ s.removing = false
  | .waiterAdded => s.attempt = some event.thread
  | .closeAwaited waiter result =>
      s.awaited waiter = none ∧ (result.isOk = true → s.fulfilled = true)
  | .settled _ =>
      s.attempt = some event.thread ∧ event.thread ∉ s.waiters ∧ event.thread ∉ s.timers
  | .ended outcome => Reports s event.thread outcome
  | _ => True

/-- A log of the cleanup, read by its rules. -/
def profileMonitor : Monitor ProfileState ProfileEvent where
  initial := {}
  record := ProfileState.record
  permits := Permits

/-! ## The invariant -/

/-- The cleanup has been made from the variables of the invocation. -/
structure Linked (s : ProfileState) (cleanup : ProfileCleanup) : Prop where
  primaryError : cleanup.primaryError = s.primaryError
  launchAttempted : cleanup.launchAttempted = s.launchAttempted
  authority : ∀ authority, cleanup.authority = some authority →
    s.captured = some ⟨cleanup.profilePath, cleanup.temporaryParent, authority⟩
  own : ∀ error, s.operationError = some error → s.primaryError = some error

structure SetupInv (s : ProfileState) : Prop where
  begun : s.invoker = none → s.cleanup = none ∧ s.captured = none ∧ s.operationError = none ∧
    s.primaryError = none
  linked : ∀ cleanup, s.cleanup = some cleanup → Linked s cleanup
  launched : s.launched = true → s.launchAttempted = true

structure CloseInv (s : ProfileState) : Prop where
  pending : s.pending ≠ none → s.closeState = .pending ∧ s.removing = false ∧ s.gone = false ∧
    ∃ cleanup, s.cleanup = some cleanup ∧ cleanup.launchAttempted = true
  closing : s.closing = true → s.pending ≠ none
  fulfilled : s.closeState = .fulfilled → s.fulfilled = true

structure AttemptInv (s : ProfileState) : Prop where
  turn : ∀ i, s.attempt = some i → s.runs[s.finished]? = some i
  created : s.attempt ≠ none → s.cleanup ≠ none
  removing : s.removing = true → s.attempt ≠ none
  gone : s.gone = true → s.cleanup ≠ none
  removed : s.attempt = none → s.gone = true → s.removed = true

/-- A thread waits for the close. -/
structure Waiting (s : ProfileState) (i : Nat) : Prop where
  attempt : s.attempt = some i
  entered : s.entered i = true
  awaited : s.awaited i = none

structure WaitInv (s : ProfileState) : Prop where
  waiters : ∀ i ∈ s.waiters, Waiting s i
  timers : ∀ i ∈ s.timers, Waiting s i
  nodup : s.waiters.Nodup
  fulfilled : ∀ i, s.awaited i = some (.ok ()) → s.closeState = .fulfilled

structure Inv (s : ProfileState) : Prop where
  setup : SetupInv s
  close : CloseInv s
  attempt : AttemptInv s
  wait : WaitInv s

/-- The invocation is still at work on a profile without a cleanup. -/
def Inviting (s : ProfileState) (i : Nat) : Prop := s.invoker = some i ∧ s.cleanup = none

/-- What the code keeps besides the rules. -/
def Guards (s : ProfileState) (event : ProfileEvent) : Prop :=
  match event.action with
  | .invoked => s.invoker = none
  | .called calls => launches calls = true → s.launchAttempted = true
  | .answered calls _ =>
      (removes calls = true → s.attempt = some event.thread ∧ s.pending = none) ∧
        (closes calls = true → s.pending = some event.thread) ∧
        (calls.contains .operation = true → Inviting s event.thread)
  | .captured _ => Inviting s event.thread
  | .launchAttempted => Inviting s event.thread
  | .closeBound => Inviting s event.thread
  | .caught _ => Inviting s event.thread
  | .created cleanup => Inviting s event.thread ∧ Linked s cleanup
  | .began => s.runs[s.finished]? = some event.thread ∧ s.cleanup ≠ none
  | .closeStarted =>
      (s.closeState = .none ∨ s.closeState = .rejected) ∧ s.gone = false ∧
        ∃ cleanup, s.cleanup = some cleanup ∧ cleanup.launchAttempted = true
  | .closeSettled result =>
      s.pending = some event.thread ∧ s.closing = false ∧
        (result.isOk = true → s.fulfilled = true)
  | .timerSet =>
      s.attempt = some event.thread ∧ s.entered event.thread = false ∧
        s.awaited event.thread = none
  | .waiterAdded =>
      s.entered event.thread = true ∧ s.awaited event.thread = none ∧ event.thread ∉ s.waiters
  | .closeAwaited waiter result =>
      s.entered waiter = true ∧ waiter ∉ s.waiters ∧ waiter ∉ s.timers ∧
        (result.isOk = true → s.closeState = .fulfilled)
  | .removed => s.attempt = some event.thread ∧ s.pending = none
  | .settled _ => s.removing = false ∧ (s.gone = true → s.removed = true)
  | _ => True

theorem update_self {β : Type} (table : Nat → β) (i : Nat) (b : β) : update table i b i = b :=
  if_pos rfl

theorem update_ne {β : Type} (table : Nat → β) {i j : Nat} (b : β) (h : j ≠ i) :
    update table i b j = table j := if_neg h

theorem not_inviting {s : ProfileState} {i : Nat} {cleanup : ProfileCleanup}
    (h : Inviting s i) (hcleanup : s.cleanup = some cleanup) : False := by
  rw [h.2] at hcleanup
  cases hcleanup

/-! ## Preservation -/

section Preservation

variable {s : ProfileState} {event : ProfileEvent}

theorem Linked.transfer {s' : ProfileState} {cleanup : ProfileCleanup} (h : Linked s cleanup)
    (hprimary : s'.primaryError = s.primaryError) (hlaunch : s'.launchAttempted = s.launchAttempted)
    (hcaptured : s'.captured = s.captured) (hoperation : s'.operationError = s.operationError) :
    Linked s' cleanup where
  primaryError := h.primaryError.trans hprimary.symm
  launchAttempted := h.launchAttempted.trans hlaunch.symm
  authority authority hauthority := hcaptured.trans (h.authority authority hauthority)
  own error herror := hprimary.trans (h.own error (hoperation.symm.trans herror))

-- Actions that leave the variables of the invocation as they are.
theorem SetupInv.transfer {s' : ProfileState} (h : SetupInv s) (hinvoker : s'.invoker = s.invoker)
    (hcleanup : s'.cleanup = s.cleanup) (hcaptured : s'.captured = s.captured)
    (hprimary : s'.primaryError = s.primaryError) (hlaunch : s'.launchAttempted = s.launchAttempted)
    (hlaunched : s'.launched = s.launched) (hoperation : s'.operationError = s.operationError) :
    SetupInv s' where
  begun hnone := by
    rw [hcleanup, hcaptured, hoperation, hprimary]
    exact h.begun (hinvoker.symm.trans hnone)
  linked cleanup hsome :=
    (h.linked cleanup (hcleanup.symm.trans hsome)).transfer hprimary hlaunch hcaptured hoperation
  launched htrue := hlaunch.trans (h.launched (hlaunched.symm.trans htrue))

-- What the invocation does before there is a cleanup.
theorem SetupInv.inviting {s' : ProfileState} {i : Nat} (hinviting : Inviting s i)
    (hinvoker : s'.invoker = s.invoker) (hcleanup : s'.cleanup = s.cleanup)
    (hlaunched : s'.launched = true → s'.launchAttempted = true) : SetupInv s' where
  begun hnone := by
    rw [hinvoker, hinviting.1] at hnone
    cases hnone
  linked cleanup hsome := (not_inviting hinviting (hcleanup.symm.trans hsome)).elim
  launched := hlaunched

theorem operationFailure_eq_none {calls : List SystemCall}
    (h : calls.contains .operation = false) (result : Except Failure (List SystemValue)) :
    operationFailure calls result = none := by
  cases result with
  | ok values => rfl
  | error error => rw [operationFailure, h, if_neg Bool.false_ne_true]

theorem setup_record (h : SetupInv s) (hguards : Guards s event) : SetupInv (s.record event) := by
  obtain ⟨i, action⟩ := event
  cases action with
  | invoked =>
    refine ⟨fun hnone => ?_, fun cleanup hsome => ?_, h.launched⟩
    · cases hnone
    · exact (h.linked cleanup hsome).transfer rfl rfl rfl rfl
  | called calls =>
    refine ⟨h.begun, fun cleanup hsome => (h.linked cleanup hsome).transfer rfl rfl rfl rfl, ?_⟩
    intro hlaunched
    have hor : (s.launched || launches calls) = true := hlaunched
    rcases Bool.or_eq_true_iff.mp hor with hbefore | hnow
    · exact h.launched hbefore
    · exact hguards hnow
  | answered calls result =>
    obtain ⟨-, -, hoperation⟩ := hguards
    by_cases hcontains : calls.contains .operation = true
    · exact .inviting (hoperation hcontains) rfl rfl h.launched
    · have hnone : operationFailure calls result = none :=
        operationFailure_eq_none (Bool.eq_false_iff.mpr hcontains) result
      have hsame : (s.record ⟨i, .answered calls result⟩).operationError = s.operationError := by
        show (operationFailure calls result).or s.operationError = s.operationError
        rw [hnone, Option.none_or]
      exact h.transfer rfl rfl rfl rfl rfl rfl hsame
  | captured => exact .inviting hguards rfl rfl h.launched
  | launchAttempted => exact .inviting hguards rfl rfl fun _ => rfl
  | closeBound => exact .inviting hguards rfl rfl h.launched
  | caught => exact .inviting hguards rfl rfl h.launched
  | created cleanup =>
    obtain ⟨hinviting, hlinked⟩ := hguards
    refine ⟨fun hnone => ?_, fun other hsome => ?_, h.launched⟩
    · have hinvoker : s.invoker = none := hnone
      rw [hinviting.1] at hinvoker
      cases hinvoker
    · obtain rfl : cleanup = other := Option.some.inj hsome
      exact hlinked.transfer rfl rfl rfl rfl
  | closeSettled result =>
    cases result <;> exact h.transfer rfl rfl rfl rfl rfl rfl rfl
  | _ => exact h.transfer rfl rfl rfl rfl rfl rfl rfl

theorem CloseInv.transfer {s' : ProfileState} (h : CloseInv s) (hpending : s'.pending = s.pending)
    (hstate : s'.closeState = s.closeState) (hremoving : s'.removing = s.removing)
    (hclosing : s'.closing = s.closing) (hgone : s'.gone = s.gone)
    (hfulfilled : s.fulfilled = true → s'.fulfilled = true)
    (hcleanup : ∀ cleanup, s.cleanup = some cleanup → s'.cleanup = some cleanup) : CloseInv s' where
  pending hne := by
    rw [hpending] at hne
    obtain ⟨hstate', hremoving', hgone', cleanup, hsome, hlaunch⟩ := h.pending hne
    exact ⟨hstate.trans hstate', hremoving.trans hremoving', hgone.trans hgone', cleanup,
      hcleanup cleanup hsome, hlaunch⟩
  closing htrue := by
    rw [hpending]
    exact h.closing (hclosing.symm.trans htrue)
  fulfilled hstate' := hfulfilled (h.fulfilled (hstate.symm.trans hstate'))

theorem close_record (h : Inv s) (hpermits : Permits s event) (hguards : Guards s event) :
    CloseInv (s.record event) := by
  obtain ⟨i, action⟩ := event
  cases action with
  | called calls =>
    obtain ⟨-, hremoves, hcloses⟩ := hpermits
    refine ⟨fun hne => ?_, fun htrue => ?_, h.close.fulfilled⟩
    · obtain ⟨hstate, hremoving, hkept⟩ := h.close.pending hne
      refine ⟨hstate, ?_, hkept⟩
      show (s.removing || removes calls) = false
      rw [hremoving, Bool.false_or]
      refine Bool.eq_false_iff.mpr fun htrue => ?_
      obtain ⟨path, -, hmay⟩ := hremoves htrue
      exact hne hmay.pending
    · have hor : (s.closing || closes calls) = true := htrue
      rcases Bool.or_eq_true_iff.mp hor with hbefore | hnow
      · exact h.close.closing hbefore
      · have hpending : s.pending = some i := (hcloses hnow).2.pending
        show s.pending ≠ none
        rw [hpending]
        exact Option.some_ne_none i
  | answered calls result =>
    refine ⟨fun hne => ?_, fun htrue => ?_, fun hstate => ?_⟩
    · obtain ⟨hstate, hremoving, hgone, hcleanup⟩ := h.close.pending hne
      refine ⟨hstate, ?_, ?_, hcleanup⟩
      · show (s.removing && !removes calls) = false
        rw [hremoving, Bool.false_and]
      · have hcalls : removes calls = false := Bool.eq_false_iff.mpr fun htrue =>
          hne (hguards.1 htrue).2
        show (s.gone || (removes calls && result.isOk)) = false
        rw [hgone, hcalls, Bool.false_and, Bool.false_or]
    · have hand : (s.closing && !closes calls) = true := htrue
      exact h.close.closing (Bool.and_eq_true_iff.mp hand).1
    · exact Bool.or_eq_true_iff.mpr (.inl (h.close.fulfilled hstate))
  | closeStarted =>
    obtain ⟨-, hremoving⟩ := hpermits
    obtain ⟨-, hkept⟩ := hguards
    refine ⟨fun _ => ⟨rfl, hremoving, hkept⟩, fun _ => Option.some_ne_none i, fun hstate => ?_⟩
    cases hstate
  | closeSettled result =>
    obtain ⟨-, hclosing, hfulfilled⟩ := hguards
    cases result with
    | ok =>
      refine ⟨fun hne => absurd rfl hne, fun htrue => ?_, fun _ => hfulfilled rfl⟩
      rw [show s.closing = true from htrue] at hclosing
      cases hclosing
    | error error =>
      refine ⟨fun hne => absurd rfl hne, fun htrue => ?_, fun hstate => ?_⟩
      · rw [show s.closing = true from htrue] at hclosing
        cases hclosing
      · cases hstate
  | created cleanup =>
    obtain ⟨hinviting, -⟩ := hguards
    exact h.close.transfer rfl rfl rfl rfl rfl id fun other hsome =>
      (not_inviting hinviting hsome).elim
  | removed =>
    exact ⟨fun hne => absurd hguards.2 hne, h.close.closing, h.close.fulfilled⟩
  | _ => exact h.close.transfer rfl rfl rfl rfl rfl id fun _ hsome => hsome

theorem AttemptInv.transfer {s' : ProfileState} (h : AttemptInv s)
    (hattempt : s'.attempt = s.attempt) (hruns : s'.runs = s.runs)
    (hfinished : s'.finished = s.finished) (hremoving : s'.removing = s.removing)
    (hgone : s'.gone = s.gone) (hremoved : s'.removed = s.removed)
    (hcleanup : s.cleanup ≠ none → s'.cleanup ≠ none) : AttemptInv s' where
  turn i hi := by
    rw [hruns, hfinished]
    exact h.turn i (hattempt.symm.trans hi)
  created hne := by
    rw [hattempt] at hne
    exact hcleanup (h.created hne)
  removing htrue := by
    rw [hattempt]
    exact h.removing (hremoving.symm.trans htrue)
  gone htrue := hcleanup (h.gone (hgone.symm.trans htrue))
  removed hnone htrue :=
    hremoved.trans (h.removed (hattempt.symm.trans hnone) (hgone.symm.trans htrue))

theorem attempt_record (h : AttemptInv s) (hpermits : Permits s event) (hguards : Guards s event) :
    AttemptInv (s.record event) := by
  obtain ⟨i, action⟩ := event
  cases action with
  | called calls =>
    obtain ⟨-, hremoves, -⟩ := hpermits
    refine ⟨h.turn, h.created, fun htrue => ?_, h.gone, h.removed⟩
    have hor : (s.removing || removes calls) = true := htrue
    rcases Bool.or_eq_true_iff.mp hor with hbefore | hnow
    · exact h.removing hbefore
    · obtain ⟨path, -, hmay⟩ := hremoves hnow
      show s.attempt ≠ none
      rw [hmay.attempt]
      exact Option.some_ne_none i
  | answered calls result =>
    obtain ⟨hremoves, -, -⟩ := hguards
    -- a removal is answered inside its attempt
    have hgone : (s.record ⟨i, .answered calls result⟩).gone = true →
        s.gone = true ∨ s.attempt = some i := by
      intro htrue
      have hor : (s.gone || (removes calls && result.isOk)) = true := htrue
      rcases Bool.or_eq_true_iff.mp hor with hbefore | hnow
      · exact .inl hbefore
      · exact .inr (hremoves (Bool.and_eq_true_iff.mp hnow).1).1
    refine ⟨h.turn, h.created, fun htrue => ?_, fun htrue => ?_, fun hnone htrue => ?_⟩
    · have hand : (s.removing && !removes calls) = true := htrue
      exact h.removing (Bool.and_eq_true_iff.mp hand).1
    · rcases hgone htrue with hbefore | hattempt
      · exact h.gone hbefore
      · exact h.created (by rw [hattempt]; exact Option.some_ne_none i)
    · rcases hgone htrue with hbefore | hattempt
      · exact h.removed hnone hbefore
      · have hnone' : s.attempt = none := hnone
        rw [hattempt] at hnone'
        cases hnone'
  | created cleanup =>
    exact h.transfer rfl rfl rfl rfl rfl rfl fun _ => Option.some_ne_none cleanup
  | queued =>
    refine ⟨fun j hj => ?_, h.created, h.removing, h.gone, h.removed⟩
    obtain ⟨hlt, hget⟩ := List.getElem?_eq_some_iff.mp (h.turn j hj)
    show (s.runs ++ [i])[s.finished]? = some j
    rw [List.getElem?_append_left hlt]
    exact h.turn j hj
  | began =>
    obtain ⟨hturn, hcreated⟩ := hguards
    refine ⟨fun j hj => ?_, fun _ => hcreated, fun _ => Option.some_ne_none i, h.gone, ?_⟩
    · obtain rfl : i = j := Option.some.inj hj
      exact hturn
    · intro hnone
      cases hnone
  | closeSettled result => cases result <;> exact h.transfer rfl rfl rfl rfl rfl rfl id
  | removed =>
    have hattempt : s.attempt = some i := hguards.1
    refine ⟨h.turn, h.created, h.removing, fun _ => h.created ?_, fun _ _ => rfl⟩
    rw [hattempt]
    exact Option.some_ne_none i
  | settled result =>
    obtain ⟨hremoving, hremoved⟩ := hguards
    refine ⟨fun j hj => ?_, fun hne => absurd rfl hne, fun htrue => ?_, h.gone, fun _ => hremoved⟩
    · cases hj
    · rw [show s.removing = true from htrue] at hremoving
      cases hremoving
  | _ => exact h.transfer rfl rfl rfl rfl rfl rfl id

theorem Waiting.transfer {s' : ProfileState} {i : Nat} (h : Waiting s i)
    (hattempt : s'.attempt = s.attempt) (hentered : s.entered i = true → s'.entered i = true)
    (hawaited : s'.awaited i = s.awaited i) : Waiting s' i where
  attempt := hattempt.trans h.attempt
  entered := hentered h.entered
  awaited := hawaited.trans h.awaited

-- Actions after which no more wait than before.
theorem WaitInv.transfer {s' : ProfileState} (h : WaitInv s) (hattempt : s'.attempt = s.attempt)
    (hentered : s'.entered = s.entered) (hawaited : s'.awaited = s.awaited)
    (hstate : s.closeState = .fulfilled → s'.closeState = .fulfilled)
    (hwaiters : s'.waiters.Sublist s.waiters) (htimers : s'.timers.Sublist s.timers) :
    WaitInv s' where
  waiters i hi := (h.waiters i (hwaiters.subset hi)).transfer hattempt
    (fun htrue => (congrFun hentered i).trans htrue) (congrFun hawaited i)
  timers i hi := (h.timers i (htimers.subset hi)).transfer hattempt
    (fun htrue => (congrFun hentered i).trans htrue) (congrFun hawaited i)
  nodup := h.nodup.sublist hwaiters
  fulfilled i hi := hstate (h.fulfilled i ((congrFun hawaited i).symm.trans hi))

-- Between two attempts nobody waits.
theorem WaitInv.nobody (h : WaitInv s) (hnone : s.attempt = none) :
    s.waiters = [] ∧ s.timers = [] := by
  constructor
  · refine List.eq_nil_iff_forall_not_mem.mpr fun i hi => ?_
    have hattempt := (h.waiters i hi).attempt
    rw [hnone] at hattempt
    cases hattempt
  · refine List.eq_nil_iff_forall_not_mem.mpr fun i hi => ?_
    have hattempt := (h.timers i hi).attempt
    rw [hnone] at hattempt
    cases hattempt

theorem WaitInv.empty {s' : ProfileState} (hwaiters : s'.waiters = []) (htimers : s'.timers = [])
    (hfulfilled : ∀ i, s'.awaited i = some (.ok ()) → s'.closeState = .fulfilled) : WaitInv s' where
  waiters i hi := by
    rw [hwaiters] at hi
    cases hi
  timers i hi := by
    rw [htimers] at hi
    cases hi
  nodup := by
    rw [hwaiters]
    exact List.nodup_nil
  fulfilled := hfulfilled

theorem wait_record (h : Inv s) (hpermits : Permits s event) (hguards : Guards s event) :
    WaitInv (s.record event) := by
  obtain ⟨i, action⟩ := event
  cases action with
  | began =>
    obtain ⟨hwaiters, htimers⟩ := h.wait.nobody hpermits
    exact .empty hwaiters htimers h.wait.fulfilled
  | closeStarted =>
    -- nobody has been told of a fulfilled close yet
    refine ⟨fun j hj => (h.wait.waiters j hj).transfer rfl id rfl,
      fun j hj => (h.wait.timers j hj).transfer rfl id rfl, h.wait.nodup, fun j hj => ?_⟩
    have hstate := h.wait.fulfilled j hj
    obtain ⟨hnone | hrejected, -⟩ := hguards
    · rw [hnone] at hstate
      cases hstate
    · rw [hrejected] at hstate
      cases hstate
  | closeSettled result =>
    have hpending : s.closeState = .pending := by
      refine (h.close.pending ?_).1
      rw [hguards.1]
      exact Option.some_ne_none i
    have hstate : ∀ state, s.closeState = .fulfilled → state = CloseState.fulfilled := by
      intro state hfulfilled
      rw [hpending] at hfulfilled
      cases hfulfilled
    cases result with
    | ok => exact h.wait.transfer rfl rfl rfl (hstate _) (.refl _) (.refl _)
    | error error => exact h.wait.transfer rfl rfl rfl (hstate _) (.refl _) (.refl _)
  | timerSet =>
    obtain ⟨hattempt, -, hawaited⟩ := hguards
    have hentered : ∀ j, s.entered j = true → update s.entered i true j = true := by
      intro j hj
      by_cases heq : j = i
      · rw [heq, update_self]
      · rw [update_ne _ _ heq, hj]
    refine ⟨fun j hj => (h.wait.waiters j hj).transfer rfl (hentered j) rfl, fun j hj => ?_,
      h.wait.nodup, h.wait.fulfilled⟩
    rcases List.mem_append.mp hj with hbefore | hnew
    · exact (h.wait.timers j hbefore).transfer rfl (hentered j) rfl
    · obtain rfl := List.mem_singleton.mp hnew
      exact ⟨hattempt, update_self _ _ _, hawaited⟩
  | waiterAdded =>
    obtain ⟨hentered, hawaited, hnew⟩ := hguards
    refine ⟨fun j hj => ?_, fun j hj => (h.wait.timers j hj).transfer rfl id rfl, ?_,
      h.wait.fulfilled⟩
    · rcases List.mem_append.mp hj with hbefore | hlast
      · exact (h.wait.waiters j hbefore).transfer rfl id rfl
      · obtain rfl := List.mem_singleton.mp hlast
        exact ⟨hpermits, hentered, hawaited⟩
    · show (s.waiters ++ [i]).Nodup
      refine List.nodup_append.mpr ⟨h.wait.nodup, List.pairwise_singleton _ i, fun j hj k hk heq => ?_⟩
      obtain rfl := List.mem_singleton.mp hk
      exact hnew (heq ▸ hj)
  | timerFired | timerCleared =>
    exact h.wait.transfer rfl rfl rfl id (.refl _) List.filter_sublist
  | waiterDeleted =>
    exact h.wait.transfer rfl rfl rfl id List.filter_sublist (.refl _)
  | closeAwaited waiter result =>
    obtain ⟨-, hwaiter, htimer, hstate⟩ := hguards
    have hother : ∀ j, j ≠ waiter →
        (s.record ⟨i, .closeAwaited waiter result⟩).awaited j = s.awaited j :=
      fun j hj => update_ne _ _ hj
    refine ⟨fun j hj => ?_, fun j hj => ?_, h.wait.nodup, fun j hj => ?_⟩
    · exact (h.wait.waiters j hj).transfer rfl id (hother j fun heq => hwaiter (heq ▸ hj))
    · exact (h.wait.timers j hj).transfer rfl id (hother j fun heq => htimer (heq ▸ hj))
    · by_cases heq : j = waiter
      · subst heq
        have hresult : (s.awaited j).or (some result) = some (.ok ()) := by
          rw [← hj]
          exact (update_self _ _ _).symm
        rw [hpermits.1, Option.none_or] at hresult
        obtain rfl := Option.some.inj hresult
        exact hstate rfl
      · exact h.wait.fulfilled j ((hother j heq).symm.trans hj)
  | settled result =>
    obtain ⟨hattempt, hwaiter, htimer⟩ := hpermits
    refine .empty ?_ ?_ h.wait.fulfilled
    · refine List.eq_nil_iff_forall_not_mem.mpr fun j hj => ?_
      have hj' := (h.wait.waiters j hj).attempt
      rw [hattempt] at hj'
      exact hwaiter ((Option.some.inj hj').symm ▸ hj)
    · refine List.eq_nil_iff_forall_not_mem.mpr fun j hj => ?_
      have hj' := (h.wait.timers j hj).attempt
      rw [hattempt] at hj'
      exact htimer ((Option.some.inj hj').symm ▸ hj)
  | _ => exact h.wait.transfer rfl rfl rfl id (.refl _) (.refl _)

theorem inv_record (h : Inv s) (hpermits : Permits s event) (hguards : Guards s event) :
    Inv (s.record event) where
  setup := setup_record h.setup hguards
  close := close_record h hpermits hguards
  attempt := attempt_record h.attempt hpermits hguards
  wait := wait_record h hpermits hguards

end Preservation

theorem inv_initial : Inv {} where
  setup := ⟨fun _ => ⟨rfl, rfl, rfl, rfl⟩, nofun, nofun⟩
  close := ⟨fun hne => absurd rfl hne, nofun, nofun⟩
  attempt := ⟨nofun, fun hne => absurd rfl hne, nofun, nofun, nofun⟩
  wait := .empty rfl rfl nofun

/-! ## What threads leave to each other -/

/-- What others do to thread `i`. -/
structure Keeps (i : Nat) (s s' : ProfileState) : Prop where
  invoker : s'.invoker = some i ↔ s.invoker = some i := by exact .rfl
  setup : s.invoker = some i → s'.captured = s.captured ∧ s'.launchAttempted = s.launchAttempted ∧
    s'.primaryError = s.primaryError ∧ s'.operationError = s.operationError ∧
    s'.cleanup = s.cleanup := by exact fun _ => ⟨rfl, rfl, rfl, rfl, rfl⟩
  cleanup : ∀ cleanup, s.cleanup = some cleanup → s'.cleanup = some cleanup := by
    exact fun _ h => h
  attempt : s'.attempt = some i ↔ s.attempt = some i := by exact .rfl
  held : s.attempt = some i → s'.removed = s.removed ∧ s'.removing = s.removing ∧
    s'.gone = s.gone := by exact fun _ => ⟨rfl, rfl, rfl⟩
  pending : s'.pending = some i ↔ s.pending = some i := by exact .rfl
  closing : s.pending = some i → s'.closing = s.closing := by exact fun _ => rfl
  fulfilled : s.closeState = .fulfilled → s'.closeState = .fulfilled := by exact fun h => h
  entered : s'.entered i = s.entered i := by rfl
  /-- While it does not wait for the close. -/
  found : s.entered i = false ∨ s.awaited i ≠ none →
    s'.awaited i = s.awaited i ∧ s'.found i = s.found i := by exact fun _ => ⟨rfl, rfl⟩
  made : s'.made i = s.made i := by rfl
  results : s'.results i = s.results i := by rfl
  outcomes : s'.outcomes i = s.outcomes i := by rfl

theorem Keeps.refl (i : Nat) (s : ProfileState) : Keeps i s s := {}

theorem Keeps.trans {i : Nat} {s s' s'' : ProfileState} (h : Keeps i s s') (h' : Keeps i s' s'') :
    Keeps i s s'' where
  invoker := h'.invoker.trans h.invoker
  setup hi := by
    obtain ⟨hcaptured, hlaunch, hprimary, hoperation, hcleanup⟩ := h.setup hi
    obtain ⟨hcaptured', hlaunch', hprimary', hoperation', hcleanup'⟩ :=
      h'.setup (h.invoker.mpr hi)
    exact ⟨hcaptured'.trans hcaptured, hlaunch'.trans hlaunch, hprimary'.trans hprimary,
      hoperation'.trans hoperation, hcleanup'.trans hcleanup⟩
  cleanup cleanup hsome := h'.cleanup cleanup (h.cleanup cleanup hsome)
  attempt := h'.attempt.trans h.attempt
  held hi := by
    obtain ⟨hremoved, hremoving, hgone⟩ := h.held hi
    obtain ⟨hremoved', hremoving', hgone'⟩ := h'.held (h.attempt.mpr hi)
    exact ⟨hremoved'.trans hremoved, hremoving'.trans hremoving, hgone'.trans hgone⟩
  pending := h'.pending.trans h.pending
  closing hi := (h'.closing (h.pending.mpr hi)).trans (h.closing hi)
  fulfilled hstate := h'.fulfilled (h.fulfilled hstate)
  entered := h'.entered.trans h.entered
  found hi := by
    obtain ⟨hawaited, hfound⟩ := h.found hi
    have hi' : s'.entered i = false ∨ s'.awaited i ≠ none := by
      rw [h.entered, hawaited]
      exact hi
    obtain ⟨hawaited', hfound'⟩ := h'.found hi'
    exact ⟨hawaited'.trans hawaited, hfound'.trans hfound⟩
  made := h'.made.trans h.made
  results := h'.results.trans h.results
  outcomes := h'.outcomes.trans h.outcomes

-- Neither of two different threads is the other one.
theorem some_iff_some {i j : Nat} {o : Option Nat} (hne : j ≠ i) (ho : o = none ∨ o = some j) :
    (some j = some i) ↔ o = some i := by
  constructor
  · intro h
    exact absurd (Option.some.inj h) hne
  · intro h
    rcases ho with hnone | hsome
    · rw [hnone] at h
      cases h
    · rw [hsome] at h
      exact absurd (Option.some.inj h) hne

theorem none_iff_some {i j : Nat} {o : Option Nat} (hne : j ≠ i) (ho : o = some j) :
    (none = some i) ↔ o = some i := by
  constructor
  · intro h
    cases h
  · intro h
    rw [ho] at h
    exact absurd (Option.some.inj h) hne

-- What a thread claims as its own is not another's.
theorem absurd_owner {β : Prop} {i j : Nat} {o : Option Nat} (hne : j ≠ i) (hj : o = some j)
    (hi : o = some i) : β := by
  rw [hj] at hi
  exact absurd (Option.some.inj hi) hne

theorem keeps_record {i : Nat} {s : ProfileState} {event : ProfileEvent} (h : Inv s)
    (hpermits : Permits s event) (hguards : Guards s event) (hne : event.thread ≠ i) :
    Keeps i s (s.record event) := by
  obtain ⟨j, action⟩ := event
  have hne' : i ≠ j := fun heq => hne heq.symm
  cases action with
  | invoked =>
    exact { invoker := some_iff_some hne (.inl hguards) }
  | called calls =>
    obtain ⟨-, hremoves, hcloses⟩ := hpermits
    refine { held := fun hi => ⟨rfl, ?_, rfl⟩, closing := fun hi => ?_ }
    · show (s.removing || removes calls) = s.removing
      have hcalls : removes calls = false := Bool.eq_false_iff.mpr fun htrue => by
        obtain ⟨path, -, hmay⟩ := hremoves htrue
        exact absurd_owner hne hmay.attempt hi
      rw [hcalls, Bool.or_false]
    · show (s.closing || closes calls) = s.closing
      have hcalls : closes calls = false := Bool.eq_false_iff.mpr fun htrue =>
        absurd_owner hne (hcloses htrue).2.pending hi
      rw [hcalls, Bool.or_false]
  | answered calls result =>
    obtain ⟨hremoves, hcloses, hoperation⟩ := hguards
    refine { setup := fun hi => ⟨rfl, rfl, rfl, ?_, rfl⟩, held := fun hi => ?_, closing := fun hi => ?_,
             found := fun _ => ⟨rfl, update_ne _ _ hne'⟩, made := update_ne _ _ hne' }
    · have hcalls : calls.contains .operation = false := Bool.eq_false_iff.mpr fun htrue =>
        absurd_owner hne (hoperation htrue).1 hi
      show (operationFailure calls result).or s.operationError = s.operationError
      rw [operationFailure_eq_none hcalls, Option.none_or]
    · have hcalls : removes calls = false := Bool.eq_false_iff.mpr fun htrue =>
        absurd_owner hne (hremoves htrue).1 hi
      refine ⟨rfl, ?_, ?_⟩
      · show (s.removing && !removes calls) = s.removing
        rw [hcalls, Bool.not_false, Bool.and_true]
      · show (s.gone || (removes calls && result.isOk)) = s.gone
        rw [hcalls, Bool.false_and, Bool.or_false]
    · have hcalls : closes calls = false := Bool.eq_false_iff.mpr fun htrue =>
        absurd_owner hne (hcloses htrue) hi
      show (s.closing && !closes calls) = s.closing
      rw [hcalls, Bool.not_false, Bool.and_true]
  | captured | launchAttempted | closeBound | caught =>
    exact { setup := fun hi => absurd_owner hne hguards.1 hi }
  | created cleanup =>
    exact { setup := fun hi => absurd_owner hne hguards.1.1 hi
            cleanup := fun other hsome => (not_inviting hguards.1 hsome).elim }
  | began =>
    exact { attempt := some_iff_some hne (.inl hpermits)
            found := fun _ => ⟨rfl, update_ne _ _ hne'⟩ }
  | closeStarted =>
    refine { pending := some_iff_some hne (.inl hpermits.1), fulfilled := fun hstate => ?_ }
    obtain ⟨hnone | hrejected, -⟩ := hguards
    · rw [hnone] at hstate
      cases hstate
    · rw [hrejected] at hstate
      cases hstate
  | closeSettled result =>
    have hstate : s.closeState = .pending := by
      refine (h.close.pending ?_).1
      rw [hguards.1]
      exact Option.some_ne_none j
    have hfulfilled : ∀ state, s.closeState = .fulfilled → state = CloseState.fulfilled := by
      intro state hfulfilled
      rw [hstate] at hfulfilled
      cases hfulfilled
    cases result with
    | ok => exact { pending := none_iff_some hne hguards.1, fulfilled := hfulfilled _ }
    | error error => exact { pending := none_iff_some hne hguards.1, fulfilled := hfulfilled _ }
  | timerSet => exact { entered := update_ne _ _ hne' }
  | closeAwaited waiter result =>
    obtain ⟨hentered, -⟩ := hguards
    refine { found := fun hi => ?_ }
    have hwaiter : i ≠ waiter := by
      rintro rfl
      rcases hi with hfalse | hawaited
      · rw [hentered] at hfalse
        cases hfalse
      · exact hawaited hpermits.1
    exact ⟨update_ne _ _ hwaiter, update_ne _ _ hwaiter⟩
  | removed => exact { held := fun hi => absurd_owner hne hguards.1 hi }
  | settled result =>
    exact { attempt := none_iff_some hne hpermits.1, results := update_ne _ _ hne' }
  | ended outcome => exact { outcomes := update_ne _ _ hne' }
  | _ => exact {}

/-- The thread has not done anything. -/
structure Unbegun (s : ProfileState) (i : Nat) : Prop where
  invoker : s.invoker ≠ some i
  attempt : s.attempt ≠ some i
  pending : s.pending ≠ some i
  entered : s.entered i = false
  awaited : s.awaited i = none
  results : s.results i = none

theorem Unbegun.keeps {i : Nat} {s s' : ProfileState} (hkeeps : Keeps i s s') (h : Unbegun s i) :
    Unbegun s' i where
  invoker hi := h.invoker (hkeeps.invoker.mp hi)
  attempt hi := h.attempt (hkeeps.attempt.mp hi)
  pending hi := h.pending (hkeeps.pending.mp hi)
  entered := hkeeps.entered.trans h.entered
  awaited := (hkeeps.found (.inl h.entered)).1.trans h.awaited
  results := hkeeps.results.trans h.results

/-- A call whose attempt has settled has ended. -/
def Reported (s : ProfileState) (i : Nat) : Prop := s.results i ≠ none → s.outcomes i ≠ none

theorem Reported.keeps {i : Nat} {s s' : ProfileState} (hkeeps : Keeps i s s')
    (h : Reported s i) : Reported s' i := by
  rw [Reported, hkeeps.results, hkeeps.outcomes]
  exact h

def profileLogic (env : Environment) (options : ProfileOptions) :
    Logic (profileSystem env options) where
  permits s event := Permits s event ∧ Guards s event
  actor event := event.thread
  Inv := Inv
  Keeps := Keeps
  Fresh := Unbegun
  Parked s i _ _ := Reported s i
  Halted := Reported
  inv_initial := inv_initial
  inv_record h hpermits := inv_record h hpermits.1 hpermits.2
  keeps_refl := Keeps.refl
  keeps_trans := Keeps.trans
  keeps_record h hpermits hne := keeps_record h hpermits.1 hpermits.2 hne
  fresh_initial _ := ⟨nofun, nofun, nofun, rfl, rfl, rfl⟩
  fresh_keeps := Unbegun.keeps
  parked_keeps hkeeps h := h.keeps hkeeps
  halted_keeps hkeeps h := h.keeps hkeeps

end FirefoxProfile
