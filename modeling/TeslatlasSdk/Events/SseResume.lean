import TeslatlasSdk.Events.SseReference
import TeslatlasSdk.Events.SseTransfer

/-!
# Resuming an event stream

A ledger reads the log of a subscription.  It knows the id in force, whether that id has been saved,
and for the open connection what was delivered, what of it was settled (acknowledged by the consumer,
skipped by the mapper, or an id without an event) and what was committed.  It permits a commit only
right after its item was settled and a connection only with the id in force.
-/

open Text Core

namespace Events

structure Ledger (Event : Type) where
  /-- The id loaded from the store, or the last one committed. -/
  committed : Option JsString := none
  /-- The last commit has reached the store. -/
  saved : Bool := true
  /-- Events and checkpoints of the open connection, in stream order. -/
  delivered : List SseStreamItem := []
  settled : List SseStreamItem := []
  commits : List SseStreamItem := []
  last : Option (SubscriptionAction Event) := none

namespace Ledger

variable {Event : Type}

def update (l : Ledger Event) : SubscriptionAction Event → Ledger Event
  | .loaded lastEventId => { l with committed := lastEventId }
  | .connect _ => { l with delivered := [], settled := [], commits := [] }
  | .delivered (.event e) => { l with delivered := l.delivered ++ [.event e] }
  | .delivered (.checkpoint id) =>
      { l with delivered := l.delivered ++ [.checkpoint id],
               settled := l.settled ++ [.checkpoint id] }
  | .skipped event => { l with settled := l.settled ++ [.event event] }
  | .acknowledged event => { l with settled := l.settled ++ [.event event] }
  | .commit item =>
      { l with commits := l.commits ++ [item], saved := false,
               committed := normalizeCheckpoint item.lastEventId }
  | .saved => { l with saved := true }
  | _ => l

def record (l : Ledger Event) (a : SubscriptionAction Event) : Ledger Event :=
  { l.update a with last := some a }

/-- `a` settles an item: it may be committed next. -/
def Settles (a : SubscriptionAction Event) (item : SseStreamItem) : Prop :=
  match a, item with
  | .acknowledged e, .event event => e = event
  | .skipped e, .event event => e = event
  | .delivered (.checkpoint id), .checkpoint lastEventId => id = lastEventId
  | _, _ => False

/-- What may happen next.  `store` tells whether checkpoints are saved. -/
def Permits (store : Bool) (l : Ledger Event) : SubscriptionAction Event → Prop
  | .connect lastEventId =>
      lastEventId = lastEventIdHeader l.committed ∧ l.committed.all isValidCheckpoint ∧
        (store → l.saved)
  | .delivered _ => l.commits = l.delivered
  | .map event => l.last = some (.delivered (.event event))
  | .skipped event => l.last = some (.map event)
  | .yielded event _ => l.last = some (.map event) ∨ l.last = some (.delivered (.event event))
  | .acknowledged event => ∃ value, l.last = some (.yielded event value)
  | .commit item => (∃ a, l.last = some a ∧ Settles a item) ∧ isValidCheckpoint item.lastEventId
  | .save lastEventId =>
      store ∧ lastEventId = l.committed ∧ lastEventId.all isValidCheckpoint ∧
        ∃ item, l.last = some (.commit item)
  | .saved => store ∧ ∃ lastEventId, l.last = some (.save lastEventId)
  | _ => True

/-- The ledger as a monitor of subscription logs. -/
def monitor (store : Bool) : Monitor (Ledger Event) (SubscriptionAction Event) where
  initial := {}
  record := record
  permits := Permits store

/-! ## The order of deliveries, settlements and commits -/

/-- Commits follow settlements, settlements follow deliveries, and nothing is delivered before the
item in front of it is committed. -/
structure Ordered (l : Ledger Event) : Prop where
  commits : l.commits <+: l.settled
  settled : l.settled <+: l.delivered
  pending : l.delivered.length ≤ l.commits.length + 1

/-- What the last action says about the item that is out. -/
def Outstanding (l : Ledger Event) : Prop :=
  match l.last with
  | some (.delivered (.event e)) => l.settled = l.commits ∧ l.delivered = l.commits ++ [.event e]
  | some (.map e) => l.settled = l.commits ∧ l.delivered = l.commits ++ [.event e]
  | some (.yielded e _) => l.settled = l.commits ∧ l.delivered = l.commits ++ [.event e]
  | some (.skipped e) => l.settled = l.delivered ∧ l.delivered = l.commits ++ [.event e]
  | some (.acknowledged e) => l.settled = l.delivered ∧ l.delivered = l.commits ++ [.event e]
  | some (.delivered (.checkpoint id)) =>
      l.settled = l.delivered ∧ l.delivered = l.commits ++ [.checkpoint id]
  | _ => True

structure Consistent (l : Ledger Event) : Prop where
  ordered : l.Ordered
  outstanding : l.Outstanding

theorem Ordered.of_out {l : Ledger Event} {item : SseStreamItem} (hs : l.settled = l.commits)
    (hd : l.delivered = l.commits ++ [item]) : l.Ordered :=
  ⟨by simp [hs], by simp [hs, hd], by simp [hd]⟩

theorem Ordered.of_settled {l : Ledger Event} {item : SseStreamItem} (hs : l.settled = l.delivered)
    (hd : l.delivered = l.commits ++ [item]) : l.Ordered :=
  ⟨by simp [hs, hd], by simp [hs], by simp [hd]⟩

-- An outstanding item is committed by the next commit, which leaves nothing out.
theorem Outstanding.settles {l : Ledger Event} (h : l.Outstanding) {a : SubscriptionAction Event}
    {item : SseStreamItem} (hl : l.last = some a) (hs : Settles a item) :
    l.settled = l.delivered ∧ l.delivered = l.commits ++ [item] := by
  unfold Outstanding at h
  rw [hl] at h
  cases item with
  | event e => cases a <;> simp_all [Settles]
  | checkpoint id =>
    cases a with
    | delivered item => cases item <;> simp_all [Settles]
    | _ => simp [Settles] at hs
  | retry n =>
    cases a with
    | delivered item => cases item <;> simp [Settles] at hs
    | _ => simp [Settles] at hs

-- Permitted actions keep the order.
theorem Consistent.record {store : Bool} {l : Ledger Event} (h : l.Consistent)
    {a : SubscriptionAction Event} (hp : Permits store l a) : (l.record a).Consistent := by
  have hfits := h.outstanding
  have hsame : ∀ l' : Ledger Event, l'.commits = l.commits → l'.settled = l.settled →
      l'.delivered = l.delivered → l'.Ordered := fun l' hc hs hd =>
    ⟨hc ▸ hs ▸ h.ordered.commits, hs ▸ hd ▸ h.ordered.settled, hc ▸ hd ▸ h.ordered.pending⟩
  cases a with
  | connect id => exact ⟨⟨by simp [Ledger.record, update], by simp [Ledger.record, update],
      by simp [Ledger.record, update]⟩, trivial⟩
  | delivered item =>
    have hcommits : l.commits = l.delivered := hp
    have hsettled : l.settled = l.delivered :=
      h.ordered.settled.eq_of_length_le (hcommits ▸ h.ordered.commits.length_le)
    cases item with
    | event e =>
      have hs : (l.record (.delivered (.event e))).settled =
          (l.record (.delivered (.event e))).commits := by
        simp [Ledger.record, update, hcommits, hsettled]
      have hd : (l.record (.delivered (.event e))).delivered =
          (l.record (.delivered (.event e))).commits ++ [.event e] := by
        simp [Ledger.record, update, hcommits]
      exact ⟨.of_out hs hd, hs, hd⟩
    | checkpoint id =>
      have hs : (l.record (.delivered (.checkpoint id))).settled =
          (l.record (.delivered (.checkpoint id))).delivered := by
        simp [Ledger.record, update, hsettled]
      have hd : (l.record (.delivered (.checkpoint id))).delivered =
          (l.record (.delivered (.checkpoint id))).commits ++ [.checkpoint id] := by
        simp [Ledger.record, update, hcommits]
      exact ⟨.of_settled hs hd, hs, hd⟩
    | retry n => exact ⟨hsame _ rfl rfl rfl, trivial⟩
  | map e =>
    have hl : l.last = some (.delivered (.event e)) := hp
    simp only [Outstanding, hl] at hfits
    exact ⟨hsame _ rfl rfl rfl, hfits⟩
  | yielded e value =>
    rcases hp with hl | hl
    all_goals
      simp only [Outstanding, hl] at hfits
      exact ⟨hsame _ rfl rfl rfl, hfits⟩
  | skipped e =>
    have hl : l.last = some (.map e) := hp
    simp only [Outstanding, hl] at hfits
    have hs : (l.record (.skipped e)).settled = (l.record (.skipped e)).delivered := by
      simp [Ledger.record, update, hfits]
    have hd : (l.record (.skipped e)).delivered = (l.record (.skipped e)).commits ++ [.event e] :=
      hfits.2
    exact ⟨.of_settled hs hd, hs, hd⟩
  | acknowledged e =>
    obtain ⟨value, hl⟩ := hp
    simp only [Outstanding, hl] at hfits
    have hs : (l.record (.acknowledged e)).settled = (l.record (.acknowledged e)).delivered := by
      simp [Ledger.record, update, hfits]
    have hd : (l.record (.acknowledged e)).delivered =
        (l.record (.acknowledged e)).commits ++ [.event e] := hfits.2
    exact ⟨.of_settled hs hd, hs, hd⟩
  | commit item =>
    obtain ⟨⟨a, hl, hset⟩, -⟩ := hp
    obtain ⟨hs, hd⟩ := h.outstanding.settles hl hset
    exact ⟨⟨by simp [Ledger.record, update, hs, hd], by simp [Ledger.record, update, hs],
      by simp [Ledger.record, update, hd]⟩, trivial⟩
  | load | loaded | cancelBody | received | save | saved | decide | sleep | settled =>
    exact ⟨hsame _ rfl rfl rfl, trivial⟩

theorem consistent_initial : ({} : Ledger Event).Consistent :=
  ⟨⟨List.prefix_refl _, List.prefix_refl _, Nat.zero_le _⟩, trivial⟩

end Ledger

/-! ## Subscriptions keep to the ledger -/

namespace Subscription

variable {Event : Type}

/-- The store, if any, has the last commit. -/
def Saved (o : SseSubscriptionOptions Event) (l : Ledger Event) : Prop :=
  o.checkpoint = true → l.saved = true

/-- What the ledger knows where the body is suspended. -/
def Place (o : SseSubscriptionOptions Event) (l : Ledger Event) : Suspension → Prop
  | .mapping e _ => l.last = some (.map e) ∧ Saved o l
  | .yielding e _ => (∃ value, l.last = some (.yielded e value)) ∧ Saved o l
  | .saving _ => l.commits = l.delivered ∧ (o.checkpoint = true → ∃ id, l.last = some (.save id))
  | .requesting => l.commits = l.delivered ∧ Saved o l
  | .classifying _ => l.commits = l.delivered ∧ Saved o l
  | .reading _ => l.commits = l.delivered ∧ Saved o l
  | .iterating _ => l.commits = l.delivered ∧ Saved o l
  -- A failed save leaves through the checkpoint error, which ends the subscription.
  | .closing completion =>
      Saved o l ∨ completion = .returned ∨ completion = .threw (.teslatlas .invalidSseCheckpoint)
  | .finished => True
  | _ => Saved o l

structure Tracks (o : SseSubscriptionOptions Event) (s : Subscription) (l : Ledger Event) :
    Prop where
  committed : l.committed = s.committedLastEventId
  valid : l.committed.all isValidCheckpoint
  consistent : l.Consistent
  place : Place o l s.suspension

/-- The step's actions are permitted and its state is tracked after them. -/
abbrev Keeps (o : SseSubscriptionOptions Event) (l : Ledger Event) (step : Step Event) : Prop :=
  (Ledger.monitor o.checkpoint).Follows (Tracks o) l step

theorem keeps_after {o : SseSubscriptionOptions Event} {l : Ledger Event}
    {a : SubscriptionAction Event} {step : Step Event} (ha : Ledger.Permits o.checkpoint l a)
    (h : Keeps o (l.record a) step) : Keeps o l (Step.after [a] step) :=
  ⟨⟨ha, h.1⟩, h.2⟩

theorem keeps_nil {o : SseSubscriptionOptions Event} {l : Ledger Event} {s : Subscription}
    (h : Tracks o s l) : Keeps o l (s, []) :=
  ⟨trivial, h⟩

-- A step of one action that does not touch the id in force.
theorem keeps_one {o : SseSubscriptionOptions Event} {l : Ledger Event} {s : Subscription}
    {a : SubscriptionAction Event} (ha : Ledger.Permits o.checkpoint l a)
    (hcommitted : (l.record a).committed = s.committedLastEventId)
    (hvalid : (l.record a).committed.all isValidCheckpoint) (hl : l.Consistent)
    (hplace : Place o (l.record a) s.suspension) : Keeps o l (s, [a]) :=
  ⟨⟨ha, trivial⟩, ⟨hcommitted, hvalid, hl.record ha, hplace⟩⟩

/-- The part of `Tracks` that does not depend on where the body is suspended. -/
structure Agrees (s : Subscription) (l : Ledger Event) : Prop where
  committed : l.committed = s.committedLastEventId
  valid : l.committed.all isValidCheckpoint
  consistent : l.Consistent

theorem Tracks.agrees {o : SseSubscriptionOptions Event} {s : Subscription} {l : Ledger Event}
    (h : Tracks o s l) : Agrees s l := ⟨h.committed, h.valid, h.consistent⟩

variable {o : SseSubscriptionOptions Event} {s : Subscription} {l : Ledger Event}

-- An action that leaves the id in force alone.
theorem Agrees.record (h : Agrees s l) {a : SubscriptionAction Event}
    (ha : Ledger.Permits o.checkpoint l a) (hc : (l.record a).committed = l.committed) :
    Agrees s (l.record a) :=
  ⟨hc.trans h.committed, hc ▸ h.valid, h.consistent.record ha⟩

theorem finish_keeps (h : Agrees s l) (completion : Completion) :
    Keeps o l (s.finish completion) :=
  keeps_one trivial h.committed h.valid h.consistent trivial

theorem decideReconnect_keeps (h : Agrees s l) (hsaved : Saved o l) (reason : ReconnectReason) :
    Keeps o l (s.decideReconnect o reason) := by
  unfold decideReconnect
  split
  · exact keeps_one trivial h.committed h.valid h.consistent hsaved
  · exact keeps_nil ⟨h.committed, h.valid, h.consistent, hsaved⟩

theorem catchError_keeps (h : Agrees s l) {error : Thrown}
    (hsaved : Saved o l ∨ error = .teslatlas .invalidSseCheckpoint) :
    Keeps o l (s.catchError o error) := by
  unfold catchError
  split
  · exact finish_keeps h _
  · split
    · exact finish_keeps h _
    · exact finish_keeps h _
    · exact decideReconnect_keeps h (hsaved.resolve_right (by simp)) _
    · next hne _ _ => exact decideReconnect_keeps h (hsaved.resolve_right hne) _

theorem cancel_keeps (h : Agrees s l) (hsaved : Saved o l) (response : SseResponse)
    (completion : Completion) : Keeps o l (s.cancel response completion) := by
  unfold cancel
  split
  · exact keeps_one trivial h.committed h.valid h.consistent hsaved
  · exact keeps_nil ⟨h.committed, h.valid, h.consistent, hsaved⟩

theorem close_keeps (h : Agrees s l) {completion : Completion}
    (hsaved : Saved o l ∨ completion = .returned ∨
      completion = .threw (.teslatlas .invalidSseCheckpoint)) :
    Keeps o l (s.close completion) :=
  keeps_nil ⟨h.committed, h.valid, h.consistent, hsaved⟩

theorem connect_keeps (h : Agrees s l) (hsaved : Saved o l) : Keeps o l s.connect := by
  unfold connect
  split
  · exact finish_keeps h _
  · exact keeps_one ⟨by rw [h.committed], h.valid, hsaved⟩ h.committed h.valid h.consistent
      ⟨rfl, hsaved⟩

theorem pulled_keeps (h : Agrees s l) (hsaved : Saved o l) (hidle : l.commits = l.delivered)
    (pull : SsePull) : Keeps o l (s.pulled pull) := by
  unfold pulled
  split <;> exact keeps_nil ⟨h.committed, h.valid, h.consistent, hidle, hsaved⟩

-- An item just settled is committed, if its id is valid, and then saved.
theorem commit_keeps (h : Agrees s l) (hsaved : Saved o l) {a : SubscriptionAction Event}
    (item : SseStreamItem) (hl : l.last = some a) (hs : Ledger.Settles a item)
    (stream : SseStream) : Keeps o l (s.commit o item stream) := by
  obtain ⟨-, hout⟩ := h.consistent.outstanding.settles hl hs
  unfold commit
  split
  · next hvalid =>
    have hp : Ledger.Permits o.checkpoint l (.commit item) := ⟨⟨a, hl, hs⟩, hvalid⟩
    have hnormal : (normalizeCheckpoint item.lastEventId).all isValidCheckpoint = true := by
      unfold normalizeCheckpoint
      split <;> simp [hvalid]
    have hidle : (l.record (.commit item)).commits = (l.record (.commit item)).delivered :=
      hout.symm
    split
    · next hstore =>
      have hp' : Ledger.Permits o.checkpoint (l.record (.commit item))
          (.save (normalizeCheckpoint item.lastEventId)) := ⟨hstore, rfl, hnormal, item, rfl⟩
      exact ⟨⟨hp, hp', trivial⟩, rfl, hnormal, (h.consistent.record hp).record hp', hidle,
        fun _ => ⟨_, rfl⟩⟩
    · next hstore =>
      exact ⟨⟨hp, trivial⟩, rfl, hnormal, h.consistent.record hp, hidle, fun h => absurd h hstore⟩
  · exact close_keeps h (.inl hsaved)

theorem handleItem_keeps (h : Agrees s l) (hsaved : Saved o l) (hidle : l.commits = l.delivered)
    (item : SseStreamItem) (stream : SseStream) : Keeps o l (s.handleItem o item stream) := by
  unfold handleItem
  split
  · exact close_keeps h (.inl hsaved)
  · have hp : Ledger.Permits o.checkpoint l (.delivered item) := hidle
    refine keeps_after hp ?_
    cases item with
    | retry milliseconds =>
      have h' : Agrees s (l.record (.delivered (.retry milliseconds))) := h.record hp rfl
      exact pulled_keeps (s := { s with serverRetryMilliseconds := some milliseconds })
        ⟨h'.committed, h'.valid, h'.consistent⟩ hsaved hidle _
    | checkpoint id =>
      have h' : Agrees s (l.record (.delivered (.checkpoint id))) := h.record hp rfl
      exact commit_keeps h' hsaved (.checkpoint id) rfl rfl stream
    | event event =>
      have h' : Agrees s (l.record (.delivered (.event event))) := h.record hp rfl
      simp only
      split
      · exact keeps_one (.inr rfl) h'.committed h'.valid h'.consistent ⟨⟨_, rfl⟩, hsaved⟩
      · exact keeps_one rfl h'.committed h'.valid h'.consistent ⟨rfl, hsaved⟩

theorem useResponse_keeps (h : Agrees s l) (hsaved : Saved o l) (hidle : l.commits = l.delivered)
    (response : SseResponse) (action : SseResponseAction) :
    Keeps o l (s.useResponse response action) := by
  unfold useResponse
  split
  · exact cancel_keeps h hsaved _ _
  · exact cancel_keeps h hsaved _ _
  · exact cancel_keeps h hsaved _ _
  · split
    · exact cancel_keeps h hsaved _ _
    split
    · exact cancel_keeps h hsaved _ _
    split
    · exact cancel_keeps h hsaved _ _
    · exact pulled_keeps h hsaved hidle _
    · exact pulled_keeps h hsaved hidle _

theorem begin_keeps (h : Agrees s l) (hsaved : Saved o l) : Keeps o l (s.begin o) := by
  unfold begin
  split
  · exact finish_keeps h _
  split
  · exact finish_keeps h _
  split
  · exact finish_keeps h _
  split
  · exact keeps_one trivial h.committed h.valid h.consistent hsaved
  · exact keeps_nil ⟨h.committed, h.valid, h.consistent, hsaved⟩

theorem resumeLoading_keeps (h : Agrees s l) (hsaved : Saved o l)
    (stored : Except Thrown StoredCheckpoint) : Keeps o l (s.resumeLoading stored) := by
  have hp : ∀ id, Ledger.Permits o.checkpoint l (.loaded id) := fun _ => trivial
  unfold resumeLoading
  split
  · exact finish_keeps h _
  · exact finish_keeps h _
  · exact keeps_after trivial (connect_keeps ⟨rfl, rfl, h.consistent.record (hp none)⟩ hsaved)
  · split
    · next id _ hvalid =>
      exact keeps_after trivial
        (connect_keeps ⟨rfl, hvalid, h.consistent.record (hp (some id))⟩ hsaved)
    · exact finish_keeps h _
  · exact finish_keeps h _

theorem resumeRequesting_keeps (h : Agrees s l) (hsaved : Saved o l)
    (hidle : l.commits = l.delivered) (result : Except Thrown SseResponse) :
    Keeps o l (s.resumeRequesting o result) := by
  unfold resumeRequesting
  split
  · exact catchError_keeps h (.inl hsaved)
  · exact cancel_keeps h hsaved _ _
  · split
    · exact keeps_nil ⟨h.committed, h.valid, h.consistent, hidle, hsaved⟩
    split
    · exact useResponse_keeps h hsaved hidle _ _
    · exact useResponse_keeps h hsaved hidle _ _

theorem resumeReading_keeps (h : Agrees s l) (hsaved : Saved o l)
    (hidle : l.commits = l.delivered) (stream : SseStream)
    (result : Except Thrown (Option (List UInt8))) : Keeps o l (s.resumeReading stream result) := by
  unfold resumeReading
  split
  · exact pulled_keeps h hsaved hidle _
  · exact pulled_keeps h hsaved hidle _
  · next chunk _ =>
    have h' : Agrees s (l.record (.received chunk)) := h.record (o := o) trivial rfl
    exact keeps_after trivial (pulled_keeps h' hsaved hidle _)
  · exact pulled_keeps h hsaved hidle _

theorem resumeIterating_keeps (h : Agrees s l) (hsaved : Saved o l)
    (hidle : l.commits = l.delivered) (pull : SsePull) : Keeps o l (s.resumeIterating o pull) := by
  cases pull with
  | read stream => exact keeps_nil ⟨h.committed, h.valid, h.consistent, hidle, hsaved⟩
  | item item stream => exact handleItem_keeps h hsaved hidle item stream
  | done => exact decideReconnect_keeps h hsaved _
  | failed error => exact catchError_keeps h (.inl hsaved)

theorem resumeMapping_keeps (h : Agrees s l) (hsaved : Saved o l) {event : SseEvent}
    (hl : l.last = some (.map event)) (stream : SseStream) (result : Except Thrown (Option Event)) :
    Keeps o l (s.resumeMapping o event stream result) := by
  unfold resumeMapping
  split
  · exact close_keeps h (.inl hsaved)
  · exact close_keeps h (.inl hsaved)
  · have h' : Agrees s (l.record (.skipped event)) := h.record (o := o) hl rfl
    exact keeps_after hl (commit_keeps h' hsaved (.event event) rfl rfl stream)
  · exact keeps_one (.inl hl) h.committed h.valid h.consistent ⟨⟨_, rfl⟩, hsaved⟩

theorem resumeSaving_keeps (h : Agrees s l) (hidle : l.commits = l.delivered)
    (hl : o.checkpoint = true → ∃ id, l.last = some (.save id)) (stream : SseStream)
    (result : Except Thrown Unit) : Keeps o l (s.resumeSaving o stream result) := by
  unfold resumeSaving
  split
  · next hstore =>
    split
    · exact close_keeps h (.inr (.inr rfl))
    · have hp : Ledger.Permits o.checkpoint l .saved := ⟨hstore, hl hstore⟩
      have h' : Agrees s (l.record .saved) := h.record hp rfl
      exact keeps_after hp (pulled_keeps h' (fun _ => rfl) hidle _)
  · next hstore => exact pulled_keeps h (fun hc => absurd hc hstore) hidle _

theorem resumeYielding_keeps (h : Agrees s l) (hsaved : Saved o l) {event : SseEvent}
    (hl : ∃ value, l.last = some (.yielded event value)) (stream : SseStream)
    (request : IteratorRequest) : Keeps o l (s.resumeYielding o event stream request) := by
  have h' : Agrees s (l.record (.acknowledged event)) := h.record (o := o) hl rfl
  cases request with
  | next =>
    simp only [resumeYielding]
    split
    · exact keeps_after hl (close_keeps h' (.inl hsaved))
    · exact keeps_after hl (commit_keeps h' hsaved (.event event) rfl rfl stream)
  | «return» => exact close_keeps h (.inl hsaved)
  | throw error => exact close_keeps h (.inl hsaved)

theorem resumeCompletion_keeps (h : Agrees s l) {completion : Completion}
    (hsaved : Saved o l ∨ completion = .returned ∨
      completion = .threw (.teslatlas .invalidSseCheckpoint)) :
    Keeps o l (s.resumeCompletion o completion) := by
  cases completion with
  | returned => exact finish_keeps h _
  | threw error => exact catchError_keeps h (by simpa using hsaved)

theorem resumeDeciding_keeps (h : Agrees s l) (hsaved : Saved o l) (reason : ReconnectReason)
    (result : Except Thrown (Option JsNumber)) :
    Keeps o l (s.resumeDeciding o reason result) := by
  unfold resumeDeciding
  split
  · exact finish_keeps h _
  · split
    · exact finish_keeps h _
    · exact finish_keeps h _
  · exact finish_keeps h _
  · split
    · exact finish_keeps h _
    · exact finish_keeps h _
    · exact keeps_one trivial h.committed h.valid h.consistent hsaved
    · exact keeps_one trivial h.committed h.valid h.consistent hsaved

theorem resumeSleeping_keeps (h : Agrees s l) (hsaved : Saved o l) (result : Except Thrown Unit) :
    Keeps o l (s.resumeSleeping result) := by
  unfold resumeSleeping
  split
  · exact finish_keeps h _
  · exact finish_keeps h _
  · exact connect_keeps ⟨h.committed, h.valid, h.consistent⟩ hsaved

theorem resume_keeps (h : Tracks o s l) (request : IteratorRequest) :
    Keeps o l (s.resume o request) := by
  have hplace := h.place
  unfold resume
  split
  · next hs => rw [hs] at hplace; exact begin_keeps h.agrees hplace
  · exact finish_keeps h.agrees _
  · exact finish_keeps h.agrees _
  · next hs => rw [hs] at hplace; exact resumeYielding_keeps h.agrees hplace.2 hplace.1 _ _
  · exact finish_keeps h.agrees _
  · exact finish_keeps h.agrees _
  · exact keeps_nil h

theorem step_keeps (h : Tracks o s l) (input : SubscriptionInput Event) :
    Keeps o l (s.step o input) := by
  have hplace := h.place
  unfold step
  split
  · exact keeps_nil ⟨h.committed, h.valid, h.consistent, hplace⟩
  · exact keeps_nil ⟨h.committed, h.valid, h.consistent, hplace⟩
  · split
    · exact keeps_nil h
    · exact resume_keeps h _
  all_goals try (rename_i hs; rw [hs] at hplace)
  · exact resumeLoading_keeps h.agrees hplace _
  · exact resumeRequesting_keeps h.agrees hplace.2 hplace.1 _
  · exact cancel_keeps h.agrees hplace.2 _ _
  · exact useResponse_keeps h.agrees hplace.2 hplace.1 _ _
  · exact resumeCompletion_keeps h.agrees (.inl hplace)
  · exact resumeReading_keeps h.agrees hplace.2 hplace.1 _ _
  · exact resumeIterating_keeps h.agrees hplace.2 hplace.1 _
  · exact resumeMapping_keeps h.agrees hplace.2 hplace.1 _ _
  · exact resumeSaving_keeps h.agrees hplace.1 hplace.2 _ _
  · exact resumeCompletion_keeps h.agrees hplace
  · exact resumeDeciding_keeps h.agrees hplace _ _
  · exact resumeSleeping_keeps h.agrees hplace _
  · exact keeps_nil h

end Subscription

-- Every run of a subscription keeps to the ledger.
theorem subscribeToSse_permitted {Event : Type} (o : SseSubscriptionOptions Event)
    (signal : AbortState) (inputs : List (SubscriptionInput Event)) :
    (Ledger.monitor o.checkpoint).Permitted {} ((subscribeToSse o signal).run inputs).2 :=
  have hinit : Subscription.Tracks o { signal } ({} : Ledger Event) :=
    ⟨rfl, rfl, Ledger.consistent_initial, fun _ => rfl⟩
  (Monitor.follows_run (subscribeToSse o signal) (Ledger.monitor o.checkpoint) hinit
    (fun _ _ i h => Subscription.step_keeps h i) inputs).1

/-! ## Resuming -/

section Resuming

variable {Event : Type}

/-- The ledger of a log. -/
def ledger (log : List (SubscriptionAction Event)) : Ledger Event := log.foldl Ledger.record {}

/-- The transfer of the connection that is open after a log. -/
def transfer (log : List (SubscriptionAction Event)) : Transfer := log.foldl Transfer.record {}

theorem ledger_last (log : List (SubscriptionAction Event)) : (ledger log).last = log.getLast? := by
  rcases List.eq_nil_or_concat log with rfl | ⟨before, a, rfl⟩
  · rfl
  · simp [ledger, Ledger.record]

-- An item is delivered only in its place in the stream.
theorem transfer_items_prefix {log : List (SubscriptionAction Event)}
    (h : Transfer.monitor.Permitted {} log) {before : List (SubscriptionAction Event)}
    {item : SseStreamItem} (hp : before ++ [.delivered item] <+: log) :
    (transfer before).items ++ [item] <+:
      (parseSseStream (transfer before).received (transfer before).resumedFrom).items :=
  h.permits_before hp

end Resuming

end Events
