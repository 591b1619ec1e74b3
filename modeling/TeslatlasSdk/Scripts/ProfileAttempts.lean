import TeslatlasSdk.Scripts.ProfileCalls

/-!
# Attempts of the cleanup

One attempt, from its turn to its settlement, with the close and the timer that it starts.
-/

open Text Core

namespace FirefoxProfile

/-! ## Assertions -/

/-- A thread whose attempt has not settled.  It is that of the invocation only where `main` holds. -/
structure Owing (i : Nat) (cleanup : ProfileCleanup) (main : Prop) (s : ProfileState) : Prop where
  created : s.cleanup = some cleanup
  results : s.results i = none
  role : s.invoker = some i → main

/-- A thread before its attempt. -/
structure Free (s : ProfileState) (i : Nat) : Prop where
  attempt : s.attempt ≠ some i
  entered : s.entered i = false
  awaited : s.awaited i = none
  results : s.results i = none

/-- A thread in its attempt. -/
structure Running (i : Nat) (cleanup : ProfileCleanup) (main : Prop) (s : ProfileState) : Prop
    extends Owing i cleanup main s where
  attempt : s.attempt = some i

/-- The thread does not wait for the close. -/
def Unwaiting (s : ProfileState) (i : Nat) : Prop := s.entered i = false ∨ s.awaited i ≠ none

/-- An attempt that has begun. -/
structure Ready (i : Nat) (cleanup : ProfileCleanup) (main : Prop) (s : ProfileState) : Prop
    extends Running i cleanup main s where
  removing : s.removing = false
  gone : s.gone = false
  entered : s.entered i = false
  awaited : s.awaited i = none

/-- An attempt in which the browser, if any, has been seen closed. -/
structure Closed (i : Nat) (cleanup : ProfileCleanup) (main : Prop) (s : ProfileState) : Prop
    extends Running i cleanup main s where
  unwaiting : Unwaiting s i
  closed : cleanup.launchAttempted = true → s.awaited i = some (.ok ())

/-- An attempt that may remove what it owns. -/
structure Cleared (i : Nat) (cleanup : ProfileCleanup) (main : Prop) (s : ProfileState) : Prop
    extends Closed i cleanup main s where
  removing : s.removing = false
  gone : s.gone = false

/-- An attempt that may settle. -/
structure Ending (i : Nat) (cleanup : ProfileCleanup) (main : Prop) (s : ProfileState) : Prop
    extends Running i cleanup main s where
  unwaiting : Unwaiting s i
  removing : s.removing = false
  gone : s.gone = true → s.removed = true

/-- An attempt has settled. -/
structure Done (i : Nat) (cleanup : ProfileCleanup) (main : Prop) (result : Except Failure Unit)
    (s : ProfileState) : Prop where
  created : s.cleanup = some cleanup
  results : s.results i = some result
  role : s.invoker = some i → main

variable {i : Nat} {cleanup : ProfileCleanup} {main : Prop} {s s' : ProfileState}

theorem Owing.keeps (h : Owing i cleanup main s) (hkeeps : Keeps i s s') :
    Owing i cleanup main s' where
  created := hkeeps.cleanup cleanup h.created
  results := hkeeps.results.trans h.results
  role hi := h.role (hkeeps.invoker.mp hi)

theorem Free.keeps (h : Free s i) (hkeeps : Keeps i s s') : Free s' i where
  attempt hi := h.attempt (hkeeps.attempt.mp hi)
  entered := hkeeps.entered.trans h.entered
  awaited := (hkeeps.found (.inl h.entered)).1.trans h.awaited
  results := hkeeps.results.trans h.results

theorem Running.keeps (h : Running i cleanup main s) (hkeeps : Keeps i s s') :
    Running i cleanup main s' where
  toOwing := h.toOwing.keeps hkeeps
  attempt := hkeeps.attempt.mpr h.attempt

theorem Unwaiting.keeps (h : Unwaiting s i) (hkeeps : Keeps i s s') : Unwaiting s' i := by
  rw [Unwaiting, hkeeps.entered, (hkeeps.found h).1]
  exact h

theorem Ready.keeps (h : Ready i cleanup main s) (hkeeps : Keeps i s s') :
    Ready i cleanup main s' where
  toRunning := h.toRunning.keeps hkeeps
  removing := (hkeeps.held h.attempt).2.1.trans h.removing
  gone := (hkeeps.held h.attempt).2.2.trans h.gone
  entered := hkeeps.entered.trans h.entered
  awaited := (hkeeps.found (.inl h.entered)).1.trans h.awaited

theorem Closed.keeps (h : Closed i cleanup main s) (hkeeps : Keeps i s s') :
    Closed i cleanup main s' where
  toRunning := h.toRunning.keeps hkeeps
  unwaiting := h.unwaiting.keeps hkeeps
  closed hlaunch := (hkeeps.found h.unwaiting).1.trans (h.closed hlaunch)

theorem Cleared.keeps (h : Cleared i cleanup main s) (hkeeps : Keeps i s s') :
    Cleared i cleanup main s' where
  toClosed := h.toClosed.keeps hkeeps
  removing := (hkeeps.held h.attempt).2.1.trans h.removing
  gone := (hkeeps.held h.attempt).2.2.trans h.gone

theorem Ready.ending (h : Ready i cleanup main s) : Ending i cleanup main s where
  toRunning := h.toRunning
  unwaiting := .inl h.entered
  removing := h.removing
  gone hgone := by
    rw [h.gone] at hgone
    cases hgone

theorem Cleared.ending (h : Cleared i cleanup main s) : Ending i cleanup main s where
  toRunning := h.toRunning
  unwaiting := h.unwaiting
  removing := h.removing
  gone hgone := by
    rw [h.gone] at hgone
    cases hgone

-- A thread that does not wait has neither a waiter nor a timer.
theorem Unwaiting.not_mem (h : Unwaiting s i) (hinv : Inv s) : i ∉ s.waiters ∧ i ∉ s.timers := by
  have hnot : ¬ Waiting s i := by
    intro hwaiting
    rcases h with hfalse | hawaited
    · rw [hwaiting.entered] at hfalse
      cases hfalse
    · exact hawaited hwaiting.awaited
  exact ⟨fun hi => hnot (hinv.wait.waiters i hi), fun hi => hnot (hinv.wait.timers i hi)⟩

-- No close is pending in an attempt that has got past the browser.
theorem Closed.not_pending (h : Closed i cleanup main s) (hinv : Inv s) : s.pending = none := by
  by_contra hne
  obtain ⟨hstate, -, -, other, hother, hlaunch⟩ := hinv.close.pending hne
  obtain rfl : cleanup = other := Option.some.inj (h.created.symm.trans hother)
  have hfulfilled := hinv.wait.fulfilled i (h.closed hlaunch)
  rw [hstate] at hfulfilled
  cases hfulfilled

theorem not_closing (hinv : Inv s) (hpending : s.pending = none) : s.closing = false :=
  Bool.eq_false_iff.mpr fun htrue => hinv.close.closing htrue hpending

section Triples

variable {env : Environment} {options : ProfileOptions}

/-! ## Waiters -/

/-- What a state says apart from the waiters, their timers and their promises. -/
structure Aside (F : ProfileState → Prop) (j : Nat) : Prop where
  timerCleared : ∀ s waiter, F s → F (s.record ⟨j, .timerCleared waiter⟩)
  waiterDeleted : ∀ s waiter, F s → F (s.record ⟨j, .waiterDeleted waiter⟩)
  reason : ∀ s reason, F s → F (s.record ⟨j, .reason reason⟩)
  closeAwaited : ∀ s waiter result, F s → F (s.record ⟨j, .closeAwaited waiter result⟩)

/-- A waiter that is about to be told, in front of others. -/
structure Telling (F : ProfileState → Prop) (waiter : Nat) (others : List Nat) (state : CloseState)
    (s : ProfileState) : Prop where
  aside : F s
  state : s.closeState = state
  entered : s.entered waiter = true
  awaited : s.awaited waiter = none
  timer : waiter ∉ s.timers
  others : ∀ other ∈ others, other ≠ waiter ∧ other ∈ s.waiters

theorem not_mem_filter_ne (l : List Nat) (a : Nat) : a ∉ l.filter (· ≠ a) := by
  intro h
  exact of_decide_eq_true (List.mem_filter.mp h).2 rfl

variable {j : Nat} {F : ProfileState → Prop} {waiter : Nat} {others : List Nat}

/-- Whom a waiter's `finish` leaves. -/
def Left (F : ProfileState → Prop) (others : List Nat) (s : ProfileState) : Prop :=
  F s ∧ ∀ other ∈ others, other ∈ s.waiters

theorem triple_closeAwaited {state : CloseState} {result : Except Failure Unit} (hF : Aside F j)
    (hresult : result.isOk = true → state = .fulfilled) :
    (profileLogic env options).Triple j
      (fun s => Telling F waiter others state s ∧ waiter ∉ s.waiters)
      (act j (.closeAwaited waiter result)) fun r s => r = .ok () ∧ Left F others s := by
  refine triple_act fun s hinv hs => ?_
  obtain ⟨htelling, hwaiter⟩ := hs
  have hstate : result.isOk = true → s.closeState = .fulfilled := fun hok =>
    htelling.state.trans (hresult hok)
  exact ⟨⟨htelling.awaited, fun hok => hinv.close.fulfilled (hstate hok)⟩,
    ⟨htelling.entered, hwaiter, htelling.timer, hstate⟩,
    hF.closeAwaited s waiter result htelling.aside, fun other hother => (htelling.others other hother).2⟩

theorem triple_finish (others : List Nat) (hF : Aside F j) :
    (profileLogic env options).Triple j
      (fun s => Left F others s ∧ waiter ∈ s.waiters ∧ waiter ∉ others) (finish j waiter)
      fun r s => r = .ok () ∧ Left F others s := by
  refine .get_bind fun s₀ hinv₀ hs₀ => .ite (fun _ => ?_) fun _ => ?_
  · refine .pure fun s hs => ?_
    rw [hs]
    exact ⟨rfl, hs₀.1⟩
  · have hwaiting : Waiting s₀ waiter := hinv₀.wait.waiters waiter hs₀.2.1
    refine act_bind (W := fun s => Telling F waiter others s₀.closeState s) (fun s _ hs => ?_) ?_
    · subst hs
      refine ⟨trivial, trivial, hF.timerCleared s waiter hs₀.1.1, rfl, hwaiting.entered,
        hwaiting.awaited, not_mem_filter_ne _ _, fun other hother => ⟨?_, hs₀.1.2 other hother⟩⟩
      rintro rfl
      exact hs₀.2.2 hother
    refine act_bind (W := fun s => Telling F waiter others s₀.closeState s ∧ waiter ∉ s.waiters)
      (fun s _ hs => ?_) ?_
    · refine ⟨trivial, trivial, ⟨hF.waiterDeleted s waiter hs.aside, hs.state, hs.entered,
        hs.awaited, hs.timer, fun other hother => ?_⟩, not_mem_filter_ne _ _⟩
      obtain ⟨hne, hmem⟩ := hs.others other hother
      exact ⟨hne, List.mem_filter.mpr ⟨hmem, decide_eq_true hne⟩⟩
    refine .ite (fun hfulfilled => triple_closeAwaited hF fun _ => hfulfilled) fun _ => ?_
    refine act_bind (W := fun s => Telling F waiter others s₀.closeState s ∧ waiter ∉ s.waiters)
      (fun s _ hs => ?_) (triple_closeAwaited hF nofun)
    exact ⟨trivial, trivial, ⟨hF.reason s _ hs.1.aside, hs.1.state, hs.1.entered, hs.1.awaited,
      hs.1.timer, hs.1.others⟩, hs.2⟩

theorem triple_notifyAll (hF : Aside F j) (waiters : List Nat) (hnodup : waiters.Nodup) :
    (profileLogic env options).Triple j (Left F waiters) (notifyAll j waiters) fun r s =>
      r = .ok () ∧ F s := by
  induction waiters with
  | nil => exact .pure fun s hs => ⟨rfl, hs.1⟩
  | cons waiter waiters ih =>
    obtain ⟨hnew, hrest⟩ := List.nodup_cons.mp hnodup
    refine .bind ((triple_finish waiters hF).weaken (fun s hs => ?_) fun _ _ hr => hr)
      (fun _ => (ih hrest).weaken (fun s hs => hs.2) fun _ _ hr => hr) ?_
    · exact ⟨⟨hs.1, fun other hother => hs.2 other (List.mem_cons_of_mem _ hother)⟩,
        hs.2 waiter List.mem_cons_self, hnew⟩
    · rintro e s ⟨herror, -⟩
      cases herror

/-! ## The close -/

/-- The thread of a close that is pending. -/
structure Closing (k : Nat) (closing : Bool) (s : ProfileState) : Prop where
  pending : s.pending = some k
  closing : s.closing = closing
  results : s.results k = none

theorem Closing.keeps {k : Nat} {closing : Bool} (h : Closing k closing s) (hkeeps : Keeps k s s') :
    Closing k closing s' where
  pending := hkeeps.pending.mpr h.pending
  closing := (hkeeps.closing h.pending).trans h.closing
  results := hkeeps.results.trans h.results

theorem aside_results (k : Nat) : Aside (fun s => s.results k = none) k where
  timerCleared _ _ h := h
  waiterDeleted _ _ h := h
  reason _ _ h := h
  closeAwaited _ _ _ h := h

theorem triple_closeContext (k : Nat) :
    (profileLogic env options).Triple k (Closing k false) (command k .close) fun r s =>
      Closing k false s ∧ (r.isOk = true → s.fulfilled = true) := by
  refine .bind (Q := fun r s => Closing k false s ∧ (r.isOk = true → s.fulfilled = true))
    (triple_callAll (W := Closing k true) (fun s hinv hs => ?_) (fun _ _ hkeeps hs => hs.keeps hkeeps)
      (fun _ hs => hs.results) fun s result _ hs _ => ?_)
    (fun values => .pure fun s hs => ⟨hs.1, fun _ => hs.2 rfl⟩) fun e s hs => ⟨hs.1, nofun⟩
  · obtain ⟨-, hremoving, hgone, -⟩ := hinv.close.pending (by
      rw [hs.pending]
      exact Option.some_ne_none k)
    refine ⟨⟨hgone, nofun, fun _ => ⟨rfl, hs.pending, hs.closing, hremoving⟩⟩, nofun, ?_⟩
    exact ⟨hs.pending, Bool.or_true _, hs.results⟩
  · refine ⟨⟨nofun, fun _ => hs.pending, nofun⟩, ⟨hs.pending, Bool.and_false _, hs.results⟩,
      fun hok => ?_⟩
    show (s.fulfilled || (true && result.isOk)) = true
    rw [hok, Bool.and_true, Bool.or_true]

/-- An attempt that may start a close. -/
structure MayStart (i : Nat) (cleanup : ProfileCleanup) (main : Prop) (s : ProfileState) : Prop
    extends Ready i cleanup main s where
  state : s.closeState = .none ∨ s.closeState = .rejected
  launched : cleanup.launchAttempted = true

theorem MayStart.not_pending (h : MayStart i cleanup main s) (hinv : Inv s) : s.pending = none := by
  by_contra hne
  obtain ⟨hpending, -⟩ := hinv.close.pending hne
  rcases h.state with hstate | hstate
  · rw [hpending] at hstate
    cases hstate
  · rw [hpending] at hstate
    cases hstate

variable (i cleanup main) in
theorem triple_closeThread (k : Nat) :
    (profileLogic env options).Triple k (fun s => Unbegun s k ∧ MayStart i cleanup main s)
      (closeThread k) fun _ s => Reported s k := by
  refine act_bind (W := Closing k false) (fun s hinv hs => ?_) ?_
  · obtain ⟨hunbegun, hstart⟩ := hs
    have hpending := hstart.not_pending hinv
    have hclosing : s.closing = false := not_closing hinv hpending
    exact ⟨⟨hpending, hstart.removing⟩,
      ⟨hstart.state, hstart.gone, cleanup, hstart.created, hstart.launched⟩,
      rfl, hclosing, hunbegun.results⟩
  refine .bind (Q := fun _ => Closing k false)
    (.await (fun _ _ _ hs => reported hs.results) fun _ _ _ hs hkeeps _ _ => hs.keeps hkeeps)
    (fun _ => ?_) fun _ _ hs => reported hs.results
  refine .attempt_bind (triple_closeContext k) fun result => ?_
  refine act_bind (W := fun s => s.results k = none) (fun s _ hs => ?_) ?_
  · refine ⟨trivial, ⟨hs.1.pending, hs.1.closing, hs.2⟩, ?_⟩
    cases result with
    | ok => exact hs.1.results
    | error error => exact hs.1.results
  refine .get_bind fun s₀ hinv₀ hs₀ => ?_
  refine (triple_notifyAll (aside_results k) s₀.waiters hinv₀.wait.nodup).weaken (fun s hs => ?_)
    fun _ _ hs => reported hs.2
  rw [hs]
  exact ⟨hs₀, fun _ hother => hother⟩

theorem triple_ensureClose (hlaunched : cleanup.launchAttempted = true) :
    (profileLogic env options).Triple i (Ready i cleanup main) ensureClose fun r s =>
      r = .ok () ∧ Ready i cleanup main s := by
  refine .get_bind fun s₀ _ hs₀ => .ite (fun hstate => ?_) fun _ => .pure fun s hs => ?_
  · refine .bind (Q := fun r s => (∃ k, r = .ok k) ∧ Ready i cleanup main s)
      (.fork (fun k => (triple_closeThread i cleanup main k).weaken (fun s hs => ?_) fun _ _ hr => hr) ?_)
      (fun _ => .pure fun s hs => ⟨rfl, hs.2⟩) ?_
    · obtain ⟨hfresh, rfl⟩ := hs
      exact ⟨hfresh, hs₀, hstate, hlaunched⟩
    · intro k s s' hs _ hkeeps _
      rw [hs] at hkeeps
      exact ⟨⟨k, rfl⟩, hs₀.keeps hkeeps⟩
    · rintro e s ⟨⟨k, hk⟩, -⟩
      cases hk
  · rw [hs]
    exact ⟨rfl, hs₀⟩

/-! ## Waiting for the close -/

/-- An attempt that has set its timer. -/
structure Entered (i : Nat) (cleanup : ProfileCleanup) (main : Prop) (s : ProfileState) : Prop
    extends Running i cleanup main s where
  removing : s.removing = false
  gone : s.gone = false
  entered : s.entered i = true

theorem Entered.keeps (h : Entered i cleanup main s) (hkeeps : Keeps i s s') :
    Entered i cleanup main s' where
  toRunning := h.toRunning.keeps hkeeps
  removing := (hkeeps.held h.attempt).2.1.trans h.removing
  gone := (hkeeps.held h.attempt).2.2.trans h.gone
  entered := hkeeps.entered.trans h.entered

-- The attempt does not speak of its waiter.
theorem aside_entered : Aside (Entered i cleanup main) i where
  timerCleared _ _ h := ⟨⟨⟨h.created, h.results, h.role⟩, h.attempt⟩, h.removing, h.gone, h.entered⟩
  waiterDeleted _ _ h := ⟨⟨⟨h.created, h.results, h.role⟩, h.attempt⟩, h.removing, h.gone, h.entered⟩
  reason _ _ h := ⟨⟨⟨h.created, h.results, h.role⟩, h.attempt⟩, h.removing, h.gone, h.entered⟩
  closeAwaited _ _ _ h :=
    ⟨⟨⟨h.created, h.results, h.role⟩, h.attempt⟩, h.removing, h.gone, h.entered⟩

theorem triple_timerThread (k : Nat) :
    (profileLogic env options).Triple k (fun s => s.results k = none) (timerThread k i)
      fun _ s => Reported s k := by
  -- the timer goes off while its thread waits
  refine .bind (Q := fun r s => (∃ answer, r = .ok answer) ∧ s.results k = none ∧ Waiting s i)
    (.await (fun _ _ _ hs => reported hs) ?_) (fun _ => ?_) ?_
  · intro s s' answer hs hkeeps hinv haccepts
    refine ⟨⟨answer, rfl⟩, hkeeps.results.trans hs, hinv.wait.timers i ?_⟩
    cases answer with
    | tick => exact List.contains_iff_mem.mp haccepts
    | settled result => cases haccepts
  · refine act_bind (W := fun s => s.results k = none ∧ Telling (fun _ => True) i [] s.closeState s)
      (fun s _ hs => ?_) ?_
    · exact ⟨trivial, trivial, hs.2.1, trivial, rfl, hs.2.2.entered, hs.2.2.awaited,
        not_mem_filter_ne _ _, nofun⟩
    refine act_bind (W := fun s => (s.results k = none ∧
        Telling (fun _ => True) i [] s.closeState s) ∧ i ∉ s.waiters) (fun s _ hs => ?_) ?_
    · exact ⟨trivial, trivial, ⟨hs.1, trivial, rfl, hs.2.entered, hs.2.awaited, hs.2.timer, nofun⟩,
        not_mem_filter_ne _ _⟩
    refine act_bind (W := fun s => (s.results k = none ∧
        Telling (fun _ => True) i [] s.closeState s) ∧ i ∉ s.waiters) (fun s _ hs => ?_) ?_
    · exact ⟨trivial, trivial, ⟨hs.1.1, trivial, rfl, hs.1.2.entered, hs.1.2.awaited, hs.1.2.timer,
        nofun⟩, hs.2⟩
    refine (triple_act (W := fun s => s.results k = none) fun s _ hs => ?_).weaken
      (fun _ hs => hs) fun _ _ hs => reported hs.2
    obtain ⟨⟨hresults, htelling⟩, hwaiter⟩ := hs
    exact ⟨⟨htelling.awaited, nofun⟩, ⟨htelling.entered, hwaiter, htelling.timer, nofun⟩, hresults⟩
  · rintro e s ⟨⟨answer, hanswer⟩, -⟩
    cases hanswer

/-- What an attempt is left with by its wait. -/
def Awaited (i : Nat) (cleanup : ProfileCleanup) (main : Prop) (r : Except Failure Unit)
    (s : ProfileState) : Prop :=
  match r with
  | .ok () => Cleared i cleanup main s
  | .error _ => Ending i cleanup main s

theorem triple_awaitClose :
    (profileLogic env options).Triple i (Ready i cleanup main) (awaitClose i)
      (Awaited i cleanup main) := by
  refine act_bind (W := fun s => Entered i cleanup main s ∧ s.awaited i = none ∧ i ∉ s.waiters)
    (fun s hinv hs => ?_) ?_
  · obtain ⟨hwaiter, -⟩ := Unwaiting.not_mem (.inl hs.entered) hinv
    exact ⟨trivial, ⟨hs.attempt, hs.entered, hs.awaited⟩,
      ⟨⟨⟨hs.created, hs.results, hs.role⟩, hs.attempt⟩, hs.removing, hs.gone, update_self _ _ _⟩,
      hs.awaited, hwaiter⟩
  -- the timer's thread only waits
  refine .bind (Q := fun r s => (∃ k, r = .ok k) ∧ Entered i cleanup main s ∧ s.awaited i = none ∧
      i ∉ s.waiters)
    (.fork (fun k => (triple_timerThread k).weaken (fun s hs => hs.1.results) fun _ _ hr => hr)
      fun k s s' hs heq _ _ => ⟨⟨k, rfl⟩, heq ▸ hs⟩) (fun _ => ?_) ?_
  · refine act_bind (W := fun s => Left (Entered i cleanup main) [] s ∧ i ∈ s.waiters ∧ i ∉ [])
      (fun s _ hs => ?_) ?_
    · obtain ⟨-, hentered, hawaited, hwaiter⟩ := hs
      refine ⟨hentered.attempt, ⟨hentered.entered, hawaited, hwaiter⟩, ⟨?_, nofun⟩,
        List.mem_append_right _ (List.mem_singleton.mpr rfl), nofun⟩
      exact ⟨⟨⟨hentered.created, hentered.results, hentered.role⟩, hentered.attempt⟩,
        hentered.removing, hentered.gone, hentered.entered⟩
    refine .bind (triple_finish [] aside_entered) (fun _ => ?_) ?_
    · refine .bind (Q := fun r s => (∃ answer, r = .ok answer) ∧ Entered i cleanup main s ∧
          s.awaited i ≠ none) (.await (fun _ _ _ hs => reported hs.2.1.results) ?_) (fun _ => ?_) ?_
      · intro s s' answer hs hkeeps _ haccepts
        refine ⟨⟨answer, rfl⟩, hs.2.1.keeps hkeeps, fun hnone => ?_⟩
        cases answer with
        | tick =>
          have hsome : (s'.awaited i).isSome = true := haccepts
          rw [hnone] at hsome
          cases hsome
        | settled result => cases haccepts
      · refine .get_bind fun s₀ hinv₀ hs₀ => .ofExcept fun s hs => ?_
        obtain ⟨-, hentered, hawaited⟩ := hs₀
        obtain ⟨result, hresult⟩ := Option.ne_none_iff_exists'.mp hawaited
        rw [hs, hresult, Option.getD_some]
        cases result with
        | ok => exact ⟨⟨hentered.toRunning, .inr hawaited, fun _ => hresult⟩, hentered.removing,
            hentered.gone⟩
        | error error =>
          refine ⟨hentered.toRunning, .inr hawaited, hentered.removing, fun hgone => ?_⟩
          rw [hentered.gone] at hgone
          cases hgone
      · rintro e s ⟨⟨answer, hanswer⟩, -⟩
        cases hanswer
    · rintro e s ⟨herror, -⟩
      cases herror
  · rintro e s ⟨⟨k, hk⟩, -⟩
    cases hk

theorem triple_settleBrowser :
    (profileLogic env options).Triple i (Ready i cleanup main) (settleBrowser cleanup i)
      (Awaited i cleanup main) := by
  refine .ite (fun hlaunched => .ite (fun _ => ?_) fun _ => ?_) fun hlaunched => ?_
  · refine .bind (triple_ensureClose hlaunched)
      (fun _ => triple_awaitClose.weaken (fun _ hs => hs.2) fun _ _ hr => hr) ?_
    rintro e s ⟨herror, -⟩
    cases herror
  · refine act_bind (W := Ending i cleanup main) (fun s _ hs => ?_) (.throw fun _ hs => hs)
    have hending := hs.ending
    exact ⟨trivial, trivial, ⟨⟨hs.created, hs.results, hs.role⟩, hs.attempt⟩, hending.unwaiting,
      hending.removing, hending.gone⟩
  · exact .pure fun s hs => ⟨⟨hs.toRunning, .inl hs.entered, fun htrue => (hlaunched htrue).elim⟩,
      hs.removing, hs.gone⟩

/-! ## Ownership -/

theorem directoryIdentity_eq_ok {stat : FileStat} {identity : DirectoryIdentity}
    (h : directoryIdentity env stat = .ok identity) :
    stat.dev = some identity.dev ∧ stat.ino = some identity.ino ∧ stat.uid = some identity.uid := by
  unfold directoryIdentity at h
  split at h
  · next dev ino uid hdev hino huid =>
    split at h
    · cases h
    · obtain rfl := Except.ok.inj h
      exact ⟨hdev, hino, huid⟩
  · cases h

theorem sameDirectory_eq_ok {stat : FileStat} {identity : DirectoryIdentity}
    (h : sameDirectory env stat identity = .ok true) :
    stat.dev = some identity.dev ∧ stat.ino = some identity.ino ∧ stat.uid = some identity.uid := by
  unfold sameDirectory at h
  cases hcurrent : directoryIdentity env stat with
  | error e =>
    rw [hcurrent] at h
    cases h
  | ok current =>
    rw [hcurrent] at h
    have hsame := Except.ok.inj h
    simp only [Bool.and_eq_true, decide_eq_true_eq] at hsame
    obtain ⟨⟨hdev, hino⟩, huid⟩ := hsame
    rw [← hdev, ← hino, ← huid]
    exact directoryIdentity_eq_ok hcurrent

theorem requireProfile_eq_ok {authority : ProfileAuthority} {stat : FileStat}
    (h : requireProfile env authority stat = .ok ()) :
    sameDirectory env stat authority.profile = .ok true := by
  unfold requireProfile at h
  cases hsame : sameDirectory env stat authority.profile with
  | error e =>
    rw [hsame] at h
    cases h
  | ok same =>
    cases same with
    | true => rfl
    | false =>
      rw [hsame] at h
      cases h

theorem requireParent_eq_ok {authority : ProfileAuthority} {canonical : JsString} {stat : FileStat}
    (h : requireParent env cleanup authority canonical stat = .ok ()) :
    sameDirectory env stat authority.parent = .ok true := by
  unfold requireParent at h
  split at h
  · cases h
  · cases hsame : sameDirectory env stat authority.parent with
    | error e =>
      rw [hsame] at h
      cases h
    | ok same =>
      cases same with
      | true => rfl
      | false =>
        rw [hsame] at h
        cases h

theorem saw_of_sameDirectory {found : List (JsString × FileStat)} {path : JsString}
    {stat : FileStat} {identity : DirectoryIdentity} (hmem : (path, stat) ∈ found)
    (h : sameDirectory env stat identity = .ok true) : Saw found path identity :=
  ⟨stat, hmem, sameDirectory_eq_ok h⟩

/-- An attempt that has found entries besides. -/
def Finding (i : Nat) (cleanup : ProfileCleanup) (main : Prop)
    (entries : List (JsString × FileStat)) (s : ProfileState) : Prop :=
  Cleared i cleanup main s ∧ ∀ entry ∈ entries, entry ∈ s.found i

variable (cleanup main) in
theorem calm_finding (entries : List (JsString × FileStat)) :
    Calm env options i (Finding i cleanup main entries) where
  stable s s' hkeeps hs := by
    have hkept : Keeps i s s' := hkeeps
    refine ⟨hs.1.keeps hkept, fun entry hentry => ?_⟩
    rw [(hkept.found hs.1.unwaiting).2]
    exact hs.2 entry hentry
  gone _ _ hs := hs.1.gone
  results _ hs := hs.1.results
  grow s more hs := by
    obtain ⟨hcleared, hfound⟩ := hs
    refine ⟨⟨⟨⟨⟨hcleared.created, hcleared.results, hcleared.role⟩, hcleared.attempt⟩,
      hcleared.unwaiting, hcleared.closed⟩, hcleared.removing, hcleared.gone⟩, fun entry hentry => ?_⟩
    exact mem_grow.mpr (.inl (hfound entry hentry))

/-- An attempt that has seen what it owns. -/
def Owns (i : Nat) (cleanup : ProfileCleanup) (s : ProfileState) : Prop :=
  ∃ authority, cleanup.authority = some authority ∧
    Saw (s.found i) cleanup.temporaryParent authority.parent ∧
    Saw (s.found i) cleanup.profilePath authority.profile

theorem triple_verifyOwnership :
    (profileLogic env options).Triple i (Cleared i cleanup main) (verifyOwnership env cleanup i)
      fun r s => Cleared i cleanup main s ∧ (r = .ok true → Owns i cleanup s) := by
  have hreason : ∀ (reason : JsString) (s : ProfileState), Cleared i cleanup main s →
      Cleared i cleanup main (s.record ⟨i, .reason reason⟩) := fun _ _ hs =>
    ⟨⟨⟨⟨hs.created, hs.results, hs.role⟩, hs.attempt⟩, hs.unwaiting, hs.closed⟩, hs.removing, hs.gone⟩
  refine act_bind (W := Cleared i cleanup main)
    (fun s _ hs => ⟨trivial, trivial, hreason _ s hs⟩) ?_
  cases hauthority : cleanup.authority with
  | none =>
    refine act_bind (W := Cleared i cleanup main)
      (fun s _ hs => ⟨trivial, trivial, hreason _ s hs⟩) ?_
    exact .throw fun s hs => ⟨hs, nofun⟩
  | some authority =>
    refine .bind (((calm_finding cleanup main []).inspect cleanup.temporaryParent).weaken
      (fun s hs => ⟨hs, nofun⟩) fun _ _ hs => hs) ?_ fun e s hs => ⟨hs.1.1, nofun⟩
    rintro ⟨canonicalParent, parentStat⟩
    refine .ofExcept_bind (fun _ hparent => ?_) fun e s _ hs => ⟨hs.1.1, nofun⟩
    have hsameParent := requireParent_eq_ok hparent
    refine .attempt_bind (((calm_finding cleanup main [(cleanup.temporaryParent, parentStat)]).readStat
      cleanup.profilePath).weaken (fun s hs => ?_) fun _ _ hs => hs) fun result => ?_
    · refine ⟨hs.1.1, fun entry hentry => ?_⟩
      obtain rfl := List.mem_singleton.mp hentry
      exact hs.2 _ rfl
    · cases result with
      | error error =>
        exact .ite (fun _ => .pure fun s hs => ⟨hs.1.1, nofun⟩) fun _ =>
          .throw fun s hs => ⟨hs.1.1, nofun⟩
      | ok profileStat =>
        refine .ofExcept_bind (fun _ hprofile => ?_) fun e s _ hs => ⟨hs.1.1, nofun⟩
        have hsameProfile := requireProfile_eq_ok hprofile
        refine .bind (((calm_finding cleanup main [(cleanup.temporaryParent, parentStat),
          (cleanup.profilePath, profileStat)]).resolvePath cleanup.profilePath).weaken
          (fun s hs => ?_) fun _ _ hs => hs) (fun canonical => ?_) fun e s hs => ⟨hs.1, nofun⟩
        · refine ⟨hs.1.1, fun entry hentry => ?_⟩
          rcases List.mem_cons.mp hentry with rfl | hentry
          · exact hs.1.2 _ (List.mem_singleton.mpr rfl)
          · obtain rfl := List.mem_singleton.mp hentry
            exact hs.2 _ rfl
        · refine .ite (fun _ => .pure fun s hs => ⟨hs.1, fun _ => ?_⟩) fun _ =>
            .throw fun s hs => ⟨hs.1, nofun⟩
          exact ⟨authority, hauthority,
            saw_of_sameDirectory (hs.2 _ List.mem_cons_self) hsameParent,
            saw_of_sameDirectory (hs.2 _ (List.mem_cons_of_mem _ List.mem_cons_self)) hsameProfile⟩

/-! ## Removal -/

/-- An attempt whose removal has not been answered. -/
structure Removing (i : Nat) (cleanup : ProfileCleanup) (main : Prop) (s : ProfileState) : Prop
    extends Closed i cleanup main s where
  gone : s.gone = false

-- An attempt that owns the profile may remove it.
theorem Cleared.mayRemove (h : Cleared i cleanup main s) (howns : Owns i cleanup s)
    (hinv : Inv s) : MayRemove s i cleanup.profilePath where
  attempt := h.attempt
  closed hlaunched := by
    have hlinked := hinv.setup.linked cleanup h.created
    exact h.closed (hlinked.launchAttempted.trans (hinv.setup.launched hlaunched))
  owned := by
    obtain ⟨authority, hauthority, hparent, hprofile⟩ := howns
    have hlinked := hinv.setup.linked cleanup h.created
    exact ⟨_, hlinked.authority authority hauthority, rfl, hparent, hprofile⟩
  pending := h.not_pending hinv
  closing := not_closing hinv (h.not_pending hinv)
  removing := h.removing

/-- What an attempt is left with by its removal. -/
def Removed (i : Nat) (cleanup : ProfileCleanup) (main : Prop) (r : Except Failure Unit)
    (s : ProfileState) : Prop :=
  Closed i cleanup main s ∧ s.removing = false ∧ ∀ e, r = .error e → s.gone = false

theorem triple_rm :
    (profileLogic env options).Triple i
      (fun s => Cleared i cleanup main s ∧ Owns i cleanup s)
      (command i (.rm cleanup.profilePath true true)) (Removed i cleanup main) := by
  refine .bind (Q := fun r s => Closed i cleanup main s ∧ s.removing = false ∧
      ∀ e, r = .error e → s.gone = false)
    (triple_callAll (W := Removing i cleanup main) (fun s hinv hs => ?_) (fun s s' hkeeps hs => ?_)
      (fun _ hs => hs.results) fun s result hinv hs _ => ?_)
    (fun _ => .pure fun s hs => ⟨hs.1, hs.2.1, nofun⟩) fun e s hs => ⟨hs.1, hs.2.1, fun _ _ => hs.2.2 e rfl⟩
  · obtain ⟨hcleared, howns⟩ := hs
    refine ⟨⟨hcleared.gone, fun _ => ⟨_, rfl, hcleared.mayRemove howns hinv⟩, nofun⟩, nofun, ?_⟩
    exact ⟨⟨⟨⟨hcleared.created, hcleared.results, hcleared.role⟩, hcleared.attempt⟩,
      hcleared.unwaiting, hcleared.closed⟩, hcleared.gone⟩
  · have hkept : Keeps i s s' := hkeeps
    exact ⟨hs.toClosed.keeps hkept, (hkept.held hs.attempt).2.2.trans hs.gone⟩
  · have hpending := hs.not_pending hinv
    refine ⟨⟨fun _ => ⟨hs.attempt, hpending⟩, nofun, nofun⟩,
      ⟨⟨⟨hs.created, hs.results, hs.role⟩, hs.attempt⟩, hs.unwaiting, hs.closed⟩,
      Bool.and_false _, ?_⟩
    rintro e rfl
    show (s.gone || (true && false)) = false
    rw [hs.gone, Bool.and_false, Bool.or_false]

theorem triple_removeExisting (existing : Bool) :
    (profileLogic env options).Triple i
      (fun s => Cleared i cleanup main s ∧ (existing = true → Owns i cleanup s))
      (removeExisting cleanup i existing) (Removed i cleanup main) := by
  refine .ite (fun hexisting => ?_) fun _ => ?_
  · refine act_bind (W := fun s => Cleared i cleanup main s ∧ Owns i cleanup s) (fun s _ hs => ?_)
      triple_rm
    obtain ⟨hcleared, howns⟩ := hs
    exact ⟨trivial, trivial, ⟨⟨⟨⟨hcleared.created, hcleared.results, hcleared.role⟩,
      hcleared.attempt⟩, hcleared.unwaiting, hcleared.closed⟩, hcleared.removing, hcleared.gone⟩,
      howns hexisting⟩
  · exact .pure fun s hs => ⟨hs.1.toClosed, hs.1.removing, fun _ _ => hs.1.gone⟩

theorem triple_removeOwned :
    (profileLogic env options).Triple i (Cleared i cleanup main) (removeOwned env cleanup i)
      fun _ => Ending i cleanup main := by
  refine .bind triple_verifyOwnership (fun existing => ?_) fun e s hs => hs.1.ending
  refine .bind ((triple_removeExisting existing).weaken (fun s hs => ⟨hs.1, fun htrue => ?_⟩)
    fun _ _ hr => hr) (fun _ => ?_) fun e s hs => ?_
  · exact hs.2 (congrArg Except.ok htrue)
  · refine (triple_act (W := Ending i cleanup main) fun s hinv hs => ?_).weaken (fun _ hs => hs)
      fun _ _ hs => hs.2
    obtain ⟨hclosed, hremoving, -⟩ := hs
    exact ⟨trivial, ⟨hclosed.attempt, hclosed.not_pending hinv⟩,
      ⟨⟨hclosed.created, hclosed.results, hclosed.role⟩, hclosed.attempt⟩, hclosed.unwaiting,
      hremoving, fun _ => rfl⟩
  · obtain ⟨hclosed, hremoving, hgone⟩ := hs
    refine ⟨hclosed.toRunning, hclosed.unwaiting, hremoving, fun htrue => ?_⟩
    rw [hgone e rfl] at htrue
    cases htrue

/-! ## Attempts -/

/-- An attempt at its turn. -/
structure Begun (i : Nat) (cleanup : ProfileCleanup) (main : Prop) (s : ProfileState) : Prop
    extends Running i cleanup main s where
  removing : s.removing = false
  gone : s.gone = true → s.removed = true
  entered : s.entered i = false
  awaited : s.awaited i = none

theorem Begun.ready (h : Begun i cleanup main s) (hremoved : s.removed ≠ true) :
    Ready i cleanup main s where
  toRunning := h.toRunning
  removing := h.removing
  gone := Bool.eq_false_iff.mpr fun hgone => hremoved (h.gone hgone)
  entered := h.entered
  awaited := h.awaited

theorem triple_attempt :
    (profileLogic env options).Triple i (Begun i cleanup main) (attempt env cleanup i)
      fun _ => Ending i cleanup main := by
  refine .get_bind fun s₀ _ hs₀ => .ite (fun _ => .pure fun s hs => ?_) fun hremoved => ?_
  · rw [hs]
    exact ⟨hs₀.toRunning, .inl hs₀.entered, hs₀.removing, hs₀.gone⟩
  · refine .bind (triple_settleBrowser.weaken (fun s hs => ?_) fun _ _ hr => hr)
      (fun _ => triple_removeOwned) fun _ _ hs => hs
    rw [hs]
    exact hs₀.ready hremoved

-- A retry settles one attempt, and rejects with what it has failed with.
theorem triple_retry :
    (profileLogic env options).Triple i (fun s => Owing i cleanup main s ∧ Free s i)
      (retry env cleanup i) fun r s =>
        ∃ result reason, r = .ok (retryError cleanup reason result) ∧
          Done i cleanup main result s := by
  refine act_bind (W := fun s => Owing i cleanup main s ∧ Free s i) (fun s _ hs => ?_) ?_
  · obtain ⟨howing, hfree⟩ := hs
    exact ⟨trivial, trivial, ⟨howing.created, howing.results, howing.role⟩,
      hfree.attempt, hfree.entered, hfree.awaited, hfree.results⟩
  refine .bind (Q := fun r s => (∃ answer, r = .ok answer) ∧ (Owing i cleanup main s ∧ Free s i) ∧
      s.runs[s.finished]? = some i) (.await (fun _ _ _ hs => reported hs.1.results) ?_)
    (fun _ => ?_) ?_
  · intro s s' answer hs hkeeps _ haccepts
    refine ⟨⟨answer, rfl⟩, ⟨hs.1.keeps hkeeps, hs.2.keeps hkeeps⟩, ?_⟩
    cases answer with
    | tick => exact of_decide_eq_true haccepts
    | settled result => cases haccepts
  · refine act_bind (W := Begun i cleanup main) (fun s hinv hs => ?_) ?_
    · obtain ⟨-, ⟨howing, hfree⟩, hturn⟩ := hs
      -- the attempt that runs would be the one whose turn it is
      have hnone : s.attempt = none := by
        cases hattempt : s.attempt with
        | none => rfl
        | some j =>
          have hj := hinv.attempt.turn j hattempt
          rw [hturn] at hj
          obtain rfl := Option.some.inj hj
          exact absurd hattempt hfree.attempt
      have hremoving : s.removing = false := Bool.eq_false_iff.mpr fun htrue =>
        hinv.attempt.removing htrue hnone
      refine ⟨hnone, ⟨hturn, ?_⟩, ⟨⟨howing.created, howing.results, howing.role⟩, rfl⟩, hremoving,
        hinv.attempt.removed hnone, hfree.entered, hfree.awaited⟩
      rw [howing.created]
      exact Option.some_ne_none cleanup
    refine .attempt_bind triple_attempt fun result => ?_
    refine act_bind (W := Done i cleanup main result) (fun s hinv hs => ?_) ?_
    · obtain ⟨hwaiter, htimer⟩ := hs.unwaiting.not_mem hinv
      exact ⟨⟨hs.attempt, hwaiter, htimer⟩, ⟨hs.removing, hs.gone⟩, hs.created, update_self _ _ _,
        hs.role⟩
    refine .get_bind fun s₀ _ hs₀ => .pure fun s hs => ?_
    rw [hs]
    exact ⟨result, s₀.reason, rfl, hs₀⟩
  · rintro e s ⟨⟨answer, hanswer⟩, -⟩
    cases hanswer

end Triples

end FirefoxProfile
