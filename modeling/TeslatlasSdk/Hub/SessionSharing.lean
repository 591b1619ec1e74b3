import TeslatlasSdk.Hub.SessionRules

/-!
# The callers of shared discoveries

What the abort of a signal does to the callers of a discovery, and that every change of them keeps
them counted.
-/

open Text Core Http

namespace Hub

section Preservation

variable {config : HubConfig} {s s' : Session} {i j : Nat} {action : HubAction}

theorem Current.congr (h : Current s' i)
    (hoperation : (s'.operations i).generation = (s.operations i).generation)
    (hgeneration : s'.sessionGeneration = s.sessionGeneration) (hdisposed : s'.disposed = s.disposed)
    (hreason : s'.reasons i = none → s.reasons i = none) : Current s i where
  unexpired := by
    have hcurrent := h.unexpired
    rw [Session.isExpired, hoperation, hgeneration, hdisposed] at hcurrent
    exact hcurrent
  signal := hreason h.signal

theorem Current.generation (h : Current s i) : (s.operations i).generation = s.sessionGeneration := by
  have hcurrent := h.unexpired
  rw [Session.isExpired, Bool.or_eq_false_iff] at hcurrent
  simpa using hcurrent.1

theorem Current.disposed (h : Current s i) : s.disposed = false := by
  have hcurrent := h.unexpired
  rw [Session.isExpired, Bool.or_eq_false_iff] at hcurrent
  exact hcurrent.2

/-! ## Leaving a shared discovery -/

/-- What the abort of a signal leaves as it is, and what it does to callers. -/
structure Aborts (s s' : Session) : Prop where
  operations : s'.operations = s.operations := by rfl
  mutations : s'.mutations = s.mutations := by rfl
  mutating : s'.mutating = s.mutating := by rfl
  cursorBindings : s'.cursorBindings = s.cursorBindings := by rfl
  issued : s'.issued = s.issued := by rfl
  epoch : s'.epoch = s.epoch := by rfl
  discovery : s'.discovery = s.discovery := by rfl
  published : s'.published = s.published := by rfl
  pending : ∀ p, s'.discoveryPending = some p → s.discoveryPending = some p := by exact fun _ h => h
  generation : s'.sessionGeneration = s.sessionGeneration := by rfl
  disposed : s'.disposed = s.disposed := by rfl
  reasons : ∀ i reason, s.reasons i = some reason → s'.reasons i = some reason := by
    exact fun _ _ h => h
  waits : ∀ i, s'.waits i = s.waits i ∨
    ∃ d reason, s.waits i = .waiting d ∧ s'.waits i = .left d (.error (abortReason reason)) := by
      exact fun _ => .inl rfl

theorem Aborts.trans {s'' : Session} (h : Aborts s s') (h' : Aborts s' s'') : Aborts s s'' where
  operations := h'.operations.trans h.operations
  mutations := h'.mutations.trans h.mutations
  mutating := h'.mutating.trans h.mutating
  cursorBindings := h'.cursorBindings.trans h.cursorBindings
  issued := h'.issued.trans h.issued
  epoch := h'.epoch.trans h.epoch
  discovery := h'.discovery.trans h.discovery
  published := h'.published.trans h.published
  pending p hp := h.pending p (h'.pending p hp)
  generation := h'.generation.trans h.generation
  disposed := h'.disposed.trans h.disposed
  reasons i reason hreason := h'.reasons i reason (h.reasons i reason hreason)
  waits i := by
    rcases h.waits i with hsame | ⟨d, reason, hwaiting, hleft⟩
    · rcases h'.waits i with hsame' | ⟨d, reason, hwaiting, hleft⟩
      · exact .inl (hsame'.trans hsame)
      · exact .inr ⟨d, reason, hsame ▸ hwaiting, hleft⟩
    · rcases h'.waits i with hsame' | ⟨d', reason', hwaiting', -⟩
      · exact .inr ⟨d, reason, hwaiting, hsame'.trans hleft⟩
      · rw [hleft] at hwaiting'
        cases hwaiting'

theorem Aborts.aborted (h : Aborts s s') (hreason : s.reasons i ≠ none) : s'.reasons i ≠ none := by
  cases hold : s.reasons i with
  | none => exact absurd hold hreason
  | some reason =>
    rw [h.reasons i reason hold]
    exact nofun

theorem Aborts.abandon (s : Session) (d : Nat) : Aborts s (s.abandon d) := by
  unfold Session.abandon
  split
  · refine { pending := nofun, reasons := fun i reason h => ?_ }
    show (if i = d then (s.reasons i).or _ else s.reasons i) = some reason
    split
    · rw [h, Option.some_or]
    · exact h
  · exact {}

theorem abandon_waits (s : Session) (d : Nat) : (s.abandon d).waits = s.waits := by
  unfold Session.abandon
  split
  · rfl
  · rfl

theorem Aborts.release {waiter d : Nat} (h : s.waits waiter = .waiting d) (reason : Thrown) :
    Aborts s (s.release waiter d (.error (abortReason reason))) where
  waits i := by
    by_cases hi : i = waiter
    · subst hi
      exact .inr ⟨d, reason, h, if_pos rfl⟩
    · exact .inl (if_neg hi)

theorem leave_waiting {waiter d : Nat} {result : Discovered} (h : s.waits waiter = .waiting d) :
    s.leave waiter result = (s.release waiter d result).abandon d := by
  rw [Session.leave, h]

theorem leave_not_waiting {waiter : Nat} {result : Discovered}
    (h : (s.waits waiter).isWaiting = false) : s.leave waiter result = s := by
  rw [Session.leave]
  cases hwait : s.waits waiter with
  | none | left => rfl
  | waiting d =>
    rw [hwait] at h
    cases h

theorem Aborts.onAbort (s : Session) (waiter : Nat) : Aborts s (s.onAbort waiter) := by
  unfold Session.onAbort
  split
  · next reason hreason =>
    cases hwait : s.waits waiter with
    | none | left =>
      rw [leave_not_waiting (by rw [hwait]; rfl)]
      exact {}
    | waiting d =>
      rw [leave_waiting hwait]
      exact (Aborts.release hwait reason).trans (Aborts.abandon _ d)
  · exact {}

theorem Aborts.mark (s : Session) (source : SignalSource) (reason : Thrown) :
    Aborts s (s.mark source reason) where
  reasons i r hr := by
    show (if s.follows (s.operations i) source then (s.reasons i).or (some reason)
      else s.reasons i) = some r
    split
    · rw [hr, Option.some_or]
    · exact hr

theorem Aborts.foldl (l : List Nat) (s : Session) : Aborts s (l.foldl Session.onAbort s) := by
  induction l generalizing s with
  | nil => exact {}
  | cons waiter l ih => exact (Aborts.onAbort s waiter).trans (ih _)

theorem Aborts.listeners (s : Session) (source : SignalSource) (reason : Thrown) :
    Aborts s (s.abort source reason) :=
  (Aborts.mark s source reason).trans (Aborts.foldl _ _)

theorem Aborts.abort (s : Session) (source : SignalSource) (reason : Thrown) :
    Aborts s ((s.abort source reason).setSource source reason) := by
  refine (Aborts.listeners s source reason).trans ?_
  cases source with
  | owner | session | caller => exact {}

/-- The invitations, the clock and the signals that operations follow are the same. -/
structure FollowsAs (s s' : Session) : Prop where
  invitations : s'.invitations = s.invitations := by rfl
  owner : s'.owner = s.owner := by rfl
  callers : s'.callers = s.callers := by rfl
  now : s'.now = s.now := by rfl

theorem FollowsAs.trans {s'' : Session} (h : FollowsAs s s') (h' : FollowsAs s' s'') :
    FollowsAs s s'' :=
  ⟨h'.invitations.trans h.invitations, h'.owner.trans h.owner,
    h'.callers.trans h.callers, h'.now.trans h.now⟩

theorem FollowsAs.abandon (s : Session) (d : Nat) : FollowsAs s (s.abandon d) := by
  unfold Session.abandon
  split
  · exact {}
  · exact {}

theorem FollowsAs.leave (s : Session) (waiter : Nat) (result : Discovered) :
    FollowsAs s (s.leave waiter result) := by
  cases hwait : s.waits waiter with
  | none | left =>
    rw [leave_not_waiting (by rw [hwait]; rfl)]
    exact {}
  | waiting d =>
    rw [leave_waiting hwait]
    exact FollowsAs.trans {} (FollowsAs.abandon _ d)

theorem FollowsAs.foldl (l : List Nat) (s : Session) :
    FollowsAs s (l.foldl Session.onAbort s) := by
  induction l generalizing s with
  | nil => exact {}
  | cons waiter l ih =>
    refine FollowsAs.trans ?_ (ih _)
    unfold Session.onAbort
    split
    · exact FollowsAs.leave s waiter _
    · exact {}

/-! ## Actions -/

/-- What an action makes of the operation that performs it. -/
def HubAction.change (s : Session) (x : Operation) : HubAction → Operation
  | .began caller =>
      { x with begun := true, generation := s.sessionGeneration, caller, bindings := s.issued,
               epoch := s.epoch }
  | .refused => { x with refused := true }
  | .opened => { x with opened := true }
  | .settled result => { x with result := some result }
  | .validated invitation value => { x with validated := some (invitation, value) }
  | .admitted discovery => { x with admitted := some discovery }
  | .loaded credential => { x with loaded := some credential }
  | .dispatched route _ => { x with sent := some route }
  | .claimStarted request => { x with claimed := some request }
  | .responded response => { x with response := some response }
  | .body event => { x with body := x.body.record event }
  | .decoded claim => { x with claim := some claim }
  | .saveQueued | .clearQueued => { x with mutation := .queued }
  | .saveStarted _ | .clearStarted => { x with mutation := .storing }
  | .mutated result => { x with mutation := .settled result.isOk }
  | .cursorBound cursor binding => { x with bound := some (cursor, binding) }
  | _ => x

theorem leave_operations (s : Session) (waiter : Nat) (result : Discovered) :
    (s.leave waiter result).operations = s.operations := by
  cases hwait : s.waits waiter with
  | none | left => rw [leave_not_waiting (by rw [hwait]; rfl)]
  | waiting d =>
    rw [leave_waiting hwait]
    exact (Aborts.abandon _ d).operations

-- An action changes the operation of its own thread alone.
theorem record_operations (s : Session) (i j : Nat) (action : HubAction) :
    (s.record ⟨i, action⟩).operations j =
      if j = i then action.change s (s.operations j) else s.operations j := by
  cases action with
  | left result =>
    have hleave : (s.record ⟨i, .left result⟩).operations = s.operations :=
      leave_operations s i result
    rw [hleave]
    exact (ite_self _).symm
  | aborted source reason =>
    have habort : (s.record ⟨i, .aborted source reason⟩).operations = s.operations :=
      (Aborts.abort s source reason).operations
    rw [habort]
    exact (ite_self _).symm
  | passed | joined | published | invalidated | loadStarted | loggedOut | disposed | forgot
  | finished | invitationChanged | clockSet | cancellationSet => exact (ite_self _).symm
  | _ => rfl

theorem record_self (s : Session) (i : Nat) (action : HubAction) :
    (s.record ⟨i, action⟩).operations i = action.change s (s.operations i) := by
  rw [record_operations, if_pos rfl]

theorem record_ne (s : Session) (action : HubAction) (h : j ≠ i) :
    (s.record ⟨i, action⟩).operations j = s.operations j := by
  rw [record_operations, if_neg h]

-- A part of an operation that the action leaves as it is.
theorem record_part {β : Type} (part : Operation → β)
    (h : ∀ x, part (action.change s x) = part x) (i j : Nat) :
    part ((s.record ⟨i, action⟩).operations j) = part (s.operations j) := by
  by_cases hj : j = i
  · rw [hj, record_self, h]
  · rw [record_ne s action hj]

/-- Records of operations, to one of which something is added. -/
def addTo {ρ : Type} (records : Nat → ρ) (i : Nat) (add : ρ → ρ) (j : Nat) : ρ :=
  if j = i then add (records j) else records j

-- Records that go with their operations do so after an action that both are told of.
theorem records_kept {ρ : Type} {P : Operation → ρ → Prop} (s : Session) (i : Nat)
    (action : HubAction) (records : Nat → ρ) (add : ρ → ρ)
    (hself : P (action.change s (s.operations i)) (add (records i)))
    (h : ∀ j, P (s.operations j) (records j)) (j : Nat) :
    P ((s.record ⟨i, action⟩).operations j) (addTo records i add j) := by
  rw [addTo]
  by_cases hj : j = i
  · subst hj
    rw [record_self, if_pos rfl]
    exact hself
  · rw [record_ne s action hj, if_neg hj]
    exact h j

/-! ## The callers of shared discoveries -/

theorem isFor_iff {wait : Wait} {d : Nat} : wait.isFor d = true ↔ wait = .waiting d := by
  cases wait with
  | none | left => exact ⟨nofun, nofun⟩
  | waiting e =>
    show decide (e = d) = true ↔ _
    rw [decide_eq_true_iff, Wait.waiting.injEq]

theorem SharingInv.weaken {aborted aborted' : List Nat} (h : SharingInv aborted s)
    (hle : ∀ i ∈ aborted, s.reasons i ≠ none → (s.waits i).isWaiting = true → i ∈ aborted') :
    SharingInv aborted' s :=
  ⟨h.listening, h.nodup, h.counted,
    fun i hwaiting hreason => hle i (h.unaborted i hwaiting hreason) hreason hwaiting,
    h.joined, h.apart, h.pending, h.live, h.begun, h.current, h.generations⟩

-- The places of the callers, when one of them has left.
theorem SharingInv.release {aborted : List Nat} {waiter d : Nat} {result : Discovered}
    (h : SharingInv (waiter :: aborted) s) (hwait : s.waits waiter = .waiting d) :
    SharingInv aborted (s.release waiter d result) := by
  have hself : (s.release waiter d result).waits waiter = .left d result := if_pos rfl
  have hother : ∀ i, i ≠ waiter → (s.release waiter d result).waits i = s.waits i :=
    fun i hi => if_neg hi
  have hmem : waiter ∈ s.listeners := (h.listening waiter).mpr (by rw [hwait]; rfl)
  refine { listening := fun i => ?_, nodup := h.nodup.erase waiter, counted := fun e => ?_,
           unaborted := fun i hwaiting hreason => ?_, joined := fun i e hi => ?_,
           apart := fun e hopened => ?_, pending := h.pending,
           live := h.live, begun := h.begun, current := h.current, generations := h.generations }
  · show i ∈ s.listeners.erase waiter ↔ _
    rw [h.nodup.mem_erase_iff, h.listening]
    by_cases hi : i = waiter
    · subst hi
      rw [hself]
      exact ⟨fun hne => absurd rfl hne.1, nofun⟩
    · rw [hother i hi]
      exact ⟨fun hwaiting => hwaiting.2, fun hwaiting => ⟨hi, hwaiting⟩⟩
  · have hcount : (s.listeners.erase waiter).countP
        (fun i => ((s.release waiter d result).waits i).isFor e) =
        (s.listeners.erase waiter).countP fun i => (s.waits i).isFor e := by
      refine List.countP_congr fun i hi => ?_
      rw [hother i (h.nodup.mem_erase_iff.mp hi).1]
    show (if e = d then s.waiters e - 1 else s.waiters e) = _
    rw [show (s.release waiter d result).listeners = s.listeners.erase waiter from rfl, hcount,
      List.countP_erase, ← h.counted e]
    by_cases he : e = d
    · subst he
      rw [if_pos rfl, if_pos ⟨hmem, isFor_iff.mpr hwait⟩]
    · have hnot : ¬ (waiter ∈ s.listeners ∧ (s.waits waiter).isFor e = true) := by
        rintro ⟨-, hfor⟩
        rw [isFor_iff, hwait, Wait.waiting.injEq] at hfor
        exact he hfor.symm
      rw [if_neg he, if_neg hnot, Nat.sub_zero]
  · by_cases hi : i = waiter
    · subst hi
      rw [hself] at hwaiting
      cases hwaiting
    · rw [hother i hi] at hwaiting
      exact (List.mem_cons.mp (h.unaborted i hwaiting hreason)).resolve_left hi
  · by_cases heq : i = waiter
    · subst heq
      rw [hself] at hi
      cases hi
    · rw [hother i heq] at hi
      exact h.joined i e hi
  · have hnone := h.apart e hopened
    by_cases he : e = waiter
    · subst he
      rw [hwait] at hnone
      cases hnone
    · rw [hother e he]
      exact hnone

-- A discovery that is abandoned is aborted.
theorem SharingInv.abandon {aborted : List Nat} (h : SharingInv aborted s) (d : Nat)
    (hopened : (s.operations d).opened = true) : SharingInv aborted (s.abandon d) := by
  unfold Session.abandon
  split
  · next habandon =>
    have hreason : ∀ i, i ≠ d → (if i = d then (s.reasons i).or (some Session.noActiveCallers)
        else s.reasons i) = s.reasons i := fun i hi => if_neg hi
    refine { listening := h.listening, nodup := h.nodup, counted := h.counted,
             unaborted := fun i hwaiting hne => ?_, joined := h.joined, apart := h.apart,
             pending := nofun, live := fun p hp hresult hsignal => ?_, begun := nofun,
             current := h.current, generations := h.generations }
    · have hi : i ≠ d := by
        rintro rfl
        have hnone := h.apart i hopened
        have hwaiting' : (s.waits i).isWaiting = true := hwaiting
        rw [hnone] at hwaiting'
        cases hwaiting'
      exact h.unaborted i hwaiting (hreason i hi ▸ hne)
    · exfalso
      by_cases hp' : p = d
      · simp only [if_pos hp'] at hsignal
        cases hreasons : s.reasons p with
        | none =>
          rw [hreasons] at hsignal
          cases hsignal
        | some reason =>
          rw [hreasons] at hsignal
          cases hsignal
      · have hpending := h.live p hp hresult ((hreason p hp').symm.trans hsignal)
        rw [habandon.2, Option.some.injEq] at hpending
        exact hp' hpending.symm
  · exact h

theorem SharingInv.leave {aborted : List Nat} {waiter : Nat} (h : SharingInv (waiter :: aborted) s)
    (result : Discovered) (hwaiting : (s.waits waiter).isWaiting = true) :
    SharingInv aborted (s.leave waiter result) := by
  cases hwait : s.waits waiter with
  | none | left =>
    rw [hwait] at hwaiting
    cases hwaiting
  | waiting d =>
    rw [leave_waiting hwait]
    exact (h.release hwait).abandon d (h.joined waiter d hwait)

theorem SharingInv.onAbort {aborted : List Nat} {waiter : Nat}
    (h : SharingInv (waiter :: aborted) s) : SharingInv aborted (s.onAbort waiter) := by
  unfold Session.onAbort
  split
  · next reason hreason =>
    cases hwaiting : (s.waits waiter).isWaiting with
    | true => exact h.leave _ hwaiting
    | false =>
      rw [leave_not_waiting hwaiting]
      refine h.weaken fun i hi _ hwaiting' => (List.mem_cons.mp hi).resolve_left ?_
      rintro rfl
      rw [hwaiting] at hwaiting'
      cases hwaiting'
  · next hnone =>
    refine h.weaken fun i hi hreason _ => (List.mem_cons.mp hi).resolve_left ?_
    rintro rfl
    exact hreason hnone

theorem SharingInv.foldl (l : List Nat) {s : Session} (h : SharingInv l s) :
    SharingInv [] (l.foldl Session.onAbort s) := by
  induction l generalizing s with
  | nil => exact h
  | cons waiter l ih => exact ih h.onAbort

-- The callers whose signals follow the source have left when its abort is over.
theorem SharingInv.abort (h : SharingInv [] s) (source : SignalSource) (reason : Thrown) :
    SharingInv [] (s.abort source reason) := by
  refine SharingInv.foldl _ ?_
  refine { listening := h.listening, nodup := h.nodup, counted := h.counted,
           unaborted := fun i hwaiting hne => ?_, joined := h.joined, apart := h.apart,
           pending := h.pending, live := fun p hopened hresult hnone => ?_, begun := h.begun,
           current := h.current, generations := h.generations }
  · refine List.mem_filter.mpr ⟨(h.listening i).mpr hwaiting, ?_⟩
    by_contra hfollows
    refine List.not_mem_nil (h.unaborted i hwaiting fun hnone => hne ?_)
    show (if s.follows (s.operations i) source then (s.reasons i).or (some reason)
      else s.reasons i) = none
    rw [if_neg hfollows]
    exact hnone
  · refine h.live p hopened hresult ?_
    cases hold : s.reasons p with
    | none => rfl
    | some old =>
      have hmarked := (Aborts.mark s source reason).reasons p old hold
      rw [hmarked] at hnone
      cases hnone

/-- The same for the callers of shared discoveries. -/
structure SharesAs (s s' : Session) : Prop where
  listeners : s'.listeners = s.listeners := by rfl
  waits : s'.waits = s.waits := by rfl
  waiters : s'.waiters = s.waiters := by rfl
  reasons : s'.reasons = s.reasons := by rfl
  pending : s'.discoveryPending = s.discoveryPending := by rfl
  generation : s'.sessionGeneration = s.sessionGeneration := by rfl
  disposed : s'.disposed = s.disposed := by rfl
  sessionAbort : s'.sessionAbort = s.sessionAbort := by rfl
  operations : ∀ j, (s'.operations j).opened = (s.operations j).opened ∧
    (s'.operations j).result = (s.operations j).result ∧
    (s'.operations j).generation = (s.operations j).generation ∧
    (s'.operations j).begun = (s.operations j).begun := by exact fun _ => ⟨rfl, rfl, rfl, rfl⟩

theorem SharingInv.transfer (h : SharingInv [] s) (hs : SharesAs s s') : SharingInv [] s' where
  listening i := by
    rw [hs.listeners, hs.waits]
    exact h.listening i
  nodup := hs.listeners ▸ h.nodup
  counted d := by
    rw [hs.waiters, hs.listeners, hs.waits]
    exact h.counted d
  unaborted i := by
    rw [hs.waits, hs.reasons]
    exact h.unaborted i
  joined i d hwait := (hs.operations d).1.trans (h.joined i d (hs.waits ▸ hwait))
  apart d hopened := by
    rw [hs.waits]
    exact h.apart d ((hs.operations d).1 ▸ hopened)
  pending p hpending := by
    obtain ⟨hopened, hresult⟩ := h.pending p (hs.pending ▸ hpending)
    exact ⟨(hs.operations p).1.trans hopened, (hs.operations p).2.1.trans hresult⟩
  live p hopened hresult hnone := by
    rw [hs.pending]
    exact h.live p ((hs.operations p).1 ▸ hopened) ((hs.operations p).2.1 ▸ hresult)
      (hs.reasons ▸ hnone)
  begun p hpending := by
    rw [(hs.operations p).2.2.1, (hs.operations p).2.2.2, hs.sessionAbort]
    exact h.begun p (hs.pending ▸ hpending)
  current hdisposed := by
    rw [hs.sessionAbort, hs.generation]
    exact h.current (hs.disposed ▸ hdisposed)
  generations i := by
    rw [(hs.operations i).2.2.1, hs.generation]
    exact h.generations i

theorem SharesAs.record (h : ∀ x, (action.change s x).opened = x.opened ∧
    (action.change s x).result = x.result ∧ (action.change s x).generation = x.generation ∧
    (action.change s x).begun = x.begun)
    (hlisteners : (s.record ⟨i, action⟩).listeners = s.listeners := by rfl)
    (hwaits : (s.record ⟨i, action⟩).waits = s.waits := by rfl)
    (hwaiters : (s.record ⟨i, action⟩).waiters = s.waiters := by rfl)
    (hreasons : (s.record ⟨i, action⟩).reasons = s.reasons := by rfl)
    (hpending : (s.record ⟨i, action⟩).discoveryPending = s.discoveryPending := by rfl)
    (hgeneration : (s.record ⟨i, action⟩).sessionGeneration = s.sessionGeneration := by rfl)
    (hdisposed : (s.record ⟨i, action⟩).disposed = s.disposed := by rfl)
    (habort : (s.record ⟨i, action⟩).sessionAbort = s.sessionAbort := by rfl) :
    SharesAs s (s.record ⟨i, action⟩) where
  listeners := hlisteners
  waits := hwaits
  waiters := hwaiters
  reasons := hreasons
  pending := hpending
  generation := hgeneration
  disposed := hdisposed
  sessionAbort := habort
  operations j := ⟨record_part Operation.opened (fun x => (h x).1) i j,
    record_part Operation.result (fun x => (h x).2.1) i j,
    record_part Operation.generation (fun x => (h x).2.2.1) i j,
    record_part Operation.begun (fun x => (h x).2.2.2) i j⟩

-- A session that is replaced or forgotten has no discovery that goes on.
theorem SharingInv.forget (h : SharingInv [] s) (hops : s'.operations = s.operations)
    (hlisteners : s'.listeners = s.listeners) (hwaits : s'.waits = s.waits)
    (hwaiters : s'.waiters = s.waiters) (hreasons : s'.reasons = s.reasons)
    (hpending : s'.discoveryPending = none)
    (hgeneration : s.sessionGeneration ≤ s'.sessionGeneration)
    (hcurrent : s'.disposed = false → s'.sessionAbort = s'.sessionGeneration)
    (hforsaken : Forsaken s) : SharingInv [] s' where
  listening i := by
    rw [hlisteners, hwaits]
    exact h.listening i
  nodup := hlisteners ▸ h.nodup
  counted d := by
    rw [hwaiters, hlisteners, hwaits]
    exact h.counted d
  unaborted i := by
    rw [hwaits, hreasons]
    exact h.unaborted i
  joined i d hwait := by
    rw [hops]
    exact h.joined i d (hwaits ▸ hwait)
  apart d hopened := by
    rw [hwaits]
    exact h.apart d (hops ▸ hopened)
  pending p hp := by
    rw [hpending] at hp
    cases hp
  live p hopened hresult hnone := by
    rw [hops] at hopened hresult
    exact absurd (hreasons ▸ hnone) (hforsaken p hopened hresult)
  begun p hp := by
    rw [hpending] at hp
    cases hp
  current := hcurrent
  generations i := by
    rw [hops]
    exact Nat.le_trans (h.generations i) hgeneration

theorem SharingInv.began (h : SharingInv [] s) {caller : Option Nat}
    (hfresh : s.operations i = {}) (hwait : s.waits i = .none) :
    SharingInv [] (s.record ⟨i, .began caller⟩) := by
  have hself : ((s.record ⟨i, .began caller⟩).operations i).generation = s.sessionGeneration :=
    congrArg Operation.generation (record_self s i (.began caller))
  have hother : ∀ j, j ≠ i → (s.record ⟨i, .began caller⟩).operations j = s.operations j :=
    fun j hj => record_ne s _ hj
  have hreason : ∀ j, j ≠ i → (s.record ⟨i, .began caller⟩).reasons j = s.reasons j :=
    fun j hj => if_neg hj
  have hopened : ∀ j, ((s.record ⟨i, .began caller⟩).operations j).opened =
      (s.operations j).opened := record_part Operation.opened (fun _ => rfl) i
  have hresult : ∀ j, ((s.record ⟨i, .began caller⟩).operations j).result =
      (s.operations j).result := record_part Operation.result (fun _ => rfl) i
  refine { listening := h.listening, nodup := h.nodup, counted := h.counted,
           unaborted := fun j hwaiting hne => ?_,
           joined := fun j d hj => (hopened d).trans (h.joined j d hj),
           apart := fun d hd => h.apart d (hopened d ▸ hd),
           pending := fun p hp => ?_, live := fun p ho hr hnone => ?_, begun := fun p hp => ?_,
           current := h.current, generations := fun j => ?_ }
  · have hj : j ≠ i := by
      rintro rfl
      have hwaiting' : (s.waits j).isWaiting = true := hwaiting
      rw [hwait] at hwaiting'
      cases hwaiting'
    exact h.unaborted j hwaiting (hreason j hj ▸ hne)
  · rw [hopened, hresult]
    exact h.pending p hp
  · rw [hopened] at ho
    rw [hresult] at hr
    have hp : p ≠ i := by
      rintro rfl
      rw [hfresh] at ho
      cases ho
    exact h.live p ho hr ((hreason p hp).symm.trans hnone)
  · have hne : p ≠ i := by
      rintro rfl
      have hopen := (h.pending p hp).1
      rw [hfresh] at hopen
      cases hopen
    rw [hother p hne]
    exact h.begun p hp
  · by_cases hj : j = i
    · subst hj
      exact Nat.le_of_eq hself
    · rw [hother j hj]
      exact h.generations j

theorem SharingInv.opened (h : SharingInv [] s) (hlive : Live s i)
    (hnone : s.discoveryPending = none) (hwait : s.waits i = .none)
    (hresult : (s.operations i).result = none) :
    SharingInv [] (s.record ⟨i, .opened⟩) := by
  have hself : (s.record ⟨i, .opened⟩).operations i = { s.operations i with opened := true } :=
    record_self s i .opened
  have hother : ∀ j, j ≠ i → (s.record ⟨i, .opened⟩).operations j = s.operations j :=
    fun j hj => record_ne s _ hj
  refine { listening := h.listening, nodup := h.nodup, counted := h.counted,
           unaborted := h.unaborted, joined := fun j d hj => ?_, apart := fun d hopened => ?_,
           pending := fun p hp => ?_, live := fun p hopened hresult hsignal => ?_,
           begun := fun p hp => ?_, current := h.current, generations := fun j => ?_ }
  · by_cases hd : d = i
    · subst hd
      rw [hself]
    · rw [hother d hd]
      exact h.joined j d hj
  · by_cases hd : d = i
    · subst hd
      exact hwait
    · rw [hother d hd] at hopened
      exact h.apart d hopened
  · obtain rfl : i = p := Option.some.inj hp
    rw [hself]
    exact ⟨rfl, hresult⟩
  · by_cases hp : p = i
    · rw [hp]
      rfl
    · rw [hother p hp] at hopened hresult
      have hpending := h.live p hopened hresult hsignal
      rw [hnone] at hpending
      cases hpending
  · obtain rfl : i = p := Option.some.inj hp
    rw [hself]
    exact ⟨hlive.begun, hlive.generation.trans (h.current hlive.disposed).symm⟩
  · by_cases hj : j = i
    · subst hj
      rw [hself]
      exact h.generations j
    · rw [hother j hj]
      exact h.generations j

theorem SharingInv.enter (h : SharingInv [] s) {d : Nat} (hlive : Current s i)
    (hpending : s.discoveryPending = some d) (hwait : s.waits i = .none)
    (hopened : (s.operations i).opened = false) : SharingInv [] (s.record ⟨i, .joined d⟩) := by
  have hself : (s.record ⟨i, .joined d⟩).waits i = .waiting d := if_pos rfl
  have hother : ∀ j, j ≠ i → (s.record ⟨i, .joined d⟩).waits j = s.waits j := fun j hj => if_neg hj
  have hnew : i ∉ s.listeners := by
    rw [h.listening, hwait]
    exact nofun
  refine { listening := fun j => ?_, nodup := ?_, counted := fun e => ?_,
           unaborted := fun j hwaiting hne => ?_, joined := fun j e hj => ?_,
           apart := fun e he => ?_, pending := h.pending, live := h.live, begun := h.begun,
           current := h.current, generations := h.generations }
  · show j ∈ s.listeners ++ [i] ↔ _
    rw [List.mem_append, List.mem_singleton, h.listening]
    by_cases hj : j = i
    · subst hj
      rw [hself]
      exact ⟨fun _ => rfl, fun _ => .inr rfl⟩
    · rw [hother j hj]
      exact ⟨fun hmem => hmem.resolve_right hj, .inl⟩
  · exact List.nodup_append.mpr ⟨h.nodup, List.nodup_singleton i, fun j hj k hk => by
      rintro rfl
      rw [List.mem_singleton.mp hk] at hj
      exact hnew hj⟩
  · have hcount : s.listeners.countP (fun j => ((s.record ⟨i, .joined d⟩).waits j).isFor e) =
        s.listeners.countP fun j => (s.waits j).isFor e := by
      refine List.countP_congr fun j hj => ?_
      rw [hother j fun heq => hnew (heq ▸ hj)]
    show (if e = d then s.waiters e + 1 else s.waiters e) =
      (s.listeners ++ [i]).countP fun j => ((s.record ⟨i, .joined d⟩).waits j).isFor e
    rw [List.countP_append, hcount, ← h.counted e, List.countP_singleton, hself]
    by_cases he : e = d
    · rw [if_pos he, if_pos (isFor_iff.mpr (by rw [he]))]
    · have hnot : ¬ (Wait.waiting d).isFor e = true := by
        rw [isFor_iff, Wait.waiting.injEq]
        exact fun heq => he heq.symm
      rw [if_neg he, if_neg hnot, Nat.add_zero]
  · by_cases hj : j = i
    · subst hj
      exact absurd hlive.signal hne
    · rw [hother j hj] at hwaiting
      exact h.unaborted j hwaiting hne
  · by_cases heq : j = i
    · subst heq
      rw [hself, Wait.waiting.injEq] at hj
      rw [← hj]
      exact (h.pending d hpending).1
    · rw [hother j heq] at hj
      exact h.joined j e hj
  · by_cases heq : e = i
    · subst heq
      have he' : (s.operations e).opened = true := he
      rw [hopened] at he'
      cases he'
    · rw [hother e heq]
      exact h.apart e he

theorem SharingInv.settled (h : SharingInv [] s) (result : Discovered) :
    SharingInv [] (s.record ⟨i, .settled result⟩) := by
  have hself : ((s.record ⟨i, .settled result⟩).operations i).result = some result :=
    congrArg Operation.result (record_self s i (.settled result))
  have hother : ∀ j, j ≠ i → (s.record ⟨i, .settled result⟩).operations j = s.operations j :=
    fun j hj => record_ne s _ hj
  have hopened : ∀ j, ((s.record ⟨i, .settled result⟩).operations j).opened =
      (s.operations j).opened := record_part Operation.opened (fun _ => rfl) i
  have hgeneration : ∀ j, ((s.record ⟨i, .settled result⟩).operations j).generation =
      (s.operations j).generation := record_part Operation.generation (fun _ => rfl) i
  have hpending : ∀ p, p ≠ i → ((s.record ⟨i, .settled result⟩).discoveryPending = some p ↔
      s.discoveryPending = some p) := by
    intro p hp
    show (if s.discoveryPending = some i then none else s.discoveryPending) = some p ↔ _
    by_cases hi : s.discoveryPending = some i
    · rw [if_pos hi, hi, Option.some.injEq]
      exact ⟨nofun, fun heq => absurd heq.symm hp⟩
    · rw [if_neg hi]
  refine { listening := h.listening, nodup := h.nodup, counted := h.counted,
           unaborted := h.unaborted, joined := fun j d hj => (hopened d).trans (h.joined j d hj),
           apart := fun d hd => h.apart d (hopened d ▸ hd), pending := fun p hp => ?_,
           live := fun p ho hr hnone => ?_, begun := fun p hp => ?_, current := h.current,
           generations := fun j => hgeneration j ▸ h.generations j }
  · by_cases heq : p = i
    · subst heq
      have hp' : (if s.discoveryPending = some p then none else s.discoveryPending) = some p := hp
      split at hp'
      · cases hp'
      · next hne => exact absurd hp' hne
    · rw [hother p heq]
      exact h.pending p ((hpending p heq).mp hp)
  · have heq : p ≠ i := by
      rintro rfl
      rw [hself] at hr
      cases hr
    rw [hother p heq] at ho hr
    exact (hpending p heq).mpr (h.live p ho hr hnone)
  · have heq : p ≠ i := by
      rintro rfl
      have hp' : (if s.discoveryPending = some p then none else s.discoveryPending) = some p := hp
      split at hp'
      · cases hp'
      · next hne => exact hne hp'
    rw [hother p heq]
    exact h.begun p ((hpending p heq).mp hp)

end Preservation

end Hub
