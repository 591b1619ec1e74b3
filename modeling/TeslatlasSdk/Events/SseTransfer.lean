import TeslatlasSdk.Events.SseSubscription

/-!
# What a connection delivers

A second monitor of subscription logs follows the bytes of the open connection.  It permits an item
only if it is the next one that `parseSseStream` gives on the chunks received so far.
-/

open Text Core

namespace Events

-- Reading windows in two parts is reading the first and going on with the second.
theorem feedWindows_append {p q : IncrementalSseParser} {d e : Utf8Decoder}
    {items : List SseStreamItem} {first : List (List UInt8)}
    (h : feedWindows p d first = (items, .ok (q, e))) (second : List (List UInt8)) :
    feedWindows p d (first ++ second) =
      (items ++ (feedWindows q e second).1, (feedWindows q e second).2) := by
  induction first generalizing p d items with
  | nil =>
    simp only [feedWindows, Prod.mk.injEq, Except.ok.injEq] at h
    obtain ⟨rfl, rfl, rfl⟩ := h
    simp
  | cons w first ih =>
    rw [List.cons_append, feedWindows]
    rw [feedWindows] at h
    split at h
    · simp at h
    · next p' _ =>
      rcases hrest : feedWindows { p' with items := [] } (d.decode w).2 first with ⟨later, r⟩
      rw [hrest] at h
      simp only [Prod.mk.injEq] at h
      obtain ⟨rfl, rfl⟩ := h
      simp [ih hrest]

-- The items of some windows come first in the items of the whole stream.
theorem feedWindows_prefix_parseSseStream {id : JsString} {items : List SseStreamItem}
    {q : IncrementalSseParser} {e : Utf8Decoder} {chunks : List (List UInt8)}
    {first second : List (List UInt8)} (hsplit : chunks.flatMap windows = first ++ second)
    (h : feedWindows { lastEventId := id } {} first = (items, .ok (q, e))) :
    items <+: (parseSseStream chunks id).items := by
  rw [parseSseStream, hsplit, feedWindows_append h]
  rcases feedWindows q e second with ⟨more, _ | ⟨p', d'⟩⟩
  · exact List.prefix_append _ _
  · simp only
    split
    · exact List.prefix_append _ _
    · simp

structure Transfer where
  resumedFrom : JsString := []
  received : List (List UInt8) := []
  items : List SseStreamItem := []

namespace Transfer

variable {Event : Type}

def record (t : Transfer) : SubscriptionAction Event → Transfer
  | .connect lastEventId => { resumedFrom := lastEventId.getD [] }
  | .received chunk => { t with received := t.received ++ [chunk] }
  | .delivered item => { t with items := t.items ++ [item] }
  | _ => t

/-- An item may only be delivered when it is next in the stream received. -/
def Permits (t : Transfer) : SubscriptionAction Event → Prop
  | .delivered item => t.items ++ [item] <+: (parseSseStream t.received t.resumedFrom).items
  | _ => True

def monitor : Monitor Transfer (SubscriptionAction Event) where
  initial := {}
  record := record
  permits := Permits

/-- A suspended parser has yielded the items of the connection, and `pending` is next. -/
def Yielded (t : Transfer) (pending : List SseStreamItem) (stream : SseStream) : Prop :=
  ∃ fed, t.received.flatMap windows = fed ++ stream.windows ∧
    if stream.completed then
      stream.windows = [] ∧ ∃ before p d last,
        feedWindows { lastEventId := t.resumedFrom } {} fed = (before, .ok (p, d)) ∧
        p.feed (ofScalars d.flush) = .ok last ∧ t.items ++ pending = before ++ last.items
    else
      stream.parser.items = [] ∧
        feedWindows { lastEventId := t.resumedFrom } {} fed =
          (t.items ++ pending, .ok (stream.parser, stream.decoder))

theorem Yielded.prefix {t : Transfer} {pending : List SseStreamItem} {stream : SseStream}
    (h : t.Yielded pending stream) :
    t.items ++ pending <+: (parseSseStream t.received t.resumedFrom).items := by
  obtain ⟨fed, hsplit, h⟩ := h
  split at h
  · obtain ⟨hw, before, p, d, last, hfed, hlast, hitems⟩ := h
    rw [hw, List.append_nil] at hsplit
    rw [parseSseStream, hsplit, hfed]
    simp [hlast, hitems]
  · exact feedWindows_prefix_parseSseStream hsplit h.2

-- Delivering a pending item moves it to the connection's items.
theorem Yielded.deliver {t : Transfer} {item : SseStreamItem} {pending : List SseStreamItem}
    {stream : SseStream} (h : t.Yielded (item :: pending) stream) :
    { t with items := t.items ++ [item] : Transfer }.Yielded pending stream := by
  simpa [Yielded] using h

/-- What is known of a call of `next()` that has come to something. -/
def PullAt (t : Transfer) : SsePull → Prop
  | .read stream =>
      t.Yielded [] stream ∧ stream.taken = [] ∧ stream.windows = [] ∧ stream.completed = false
  | .item item stream => t.Yielded (item :: stream.taken) stream
  | _ => True

theorem Yielded.next {t : Transfer} {stream : SseStream} (h : t.Yielded stream.taken stream)
    (signal : AbortState) : t.PullAt (stream.next signal) := by
  obtain ⟨parser, decoder, ws, taken, completed⟩ := stream
  unfold SseStream.next
  simp only at h ⊢
  induction ws generalizing parser decoder taken with
  | nil =>
    cases taken with
    | nil =>
      simp only [pullFrom]
      split
      · trivial
      · next hc => exact ⟨by simpa [Yielded, hc] using h, rfl, rfl, by simpa using hc⟩
    | cons item taken =>
      simp only [pullFrom]
      split
      · trivial
      · exact h
  | cons w ws ih =>
    cases taken with
    | cons item taken =>
      simp only [pullFrom]
      split
      · trivial
      · exact h
    | nil =>
      simp only [pullFrom]
      obtain ⟨fed, hsplit, h⟩ := h
      simp only at hsplit h
      split at h
      · simp at h
      · next hc =>
        split
        · trivial
        · next p hp =>
          refine ih _ _ _ ⟨fed ++ [w], by simp [hsplit], ?_⟩
          rw [if_neg (by simpa using hc), feedWindows_append h.2]
          simp [feedWindows, hp]

-- A chunk that has been read is fed next.
theorem PullAt.chunk {t : Transfer} {stream : SseStream} (h : t.PullAt (.read stream))
    (chunk : List UInt8) :
    { t with received := t.received ++ [chunk] : Transfer }.Yielded stream.taken
      { stream with windows := windows chunk } := by
  obtain ⟨⟨fed, hsplit, h⟩, htaken, hw, hc⟩ := h
  rw [if_neg (by simp [hc])] at h
  refine ⟨fed, by simp [hsplit, hw], ?_⟩
  simp only
  rw [if_neg (by simp [hc]), htaken]
  exact h

-- At the end of the body the decoder's rest is fed.
theorem PullAt.finish {t : Transfer} {stream : SseStream} (h : t.PullAt (.read stream))
    (signal : AbortState) : t.PullAt (stream.finish signal) := by
  obtain ⟨⟨fed, hsplit, h⟩, htaken, hw, hc⟩ := h
  rw [if_neg (by simp [hc])] at h
  unfold SseStream.finish
  split
  · trivial
  · next p hp =>
    apply Yielded.next
    refine ⟨fed, hsplit, ?_⟩
    simp only [if_true]
    exact ⟨hw, _, _, _, _, h.2, hp, by simp⟩

end Transfer

namespace Subscription

variable {Event : Type}

/-- What the transfer knows where the body is suspended. -/
def TransferPlace (t : Transfer) (committed : Option JsString) : Suspension → Prop
  | .requesting => t = { resumedFrom := committed.getD [] }
  | .classifying _ => t = { resumedFrom := committed.getD [] }
  | .reading stream => t.PullAt (.read stream)
  | .iterating result => t.PullAt result
  | .mapping _ stream => t.Yielded stream.taken stream
  | .saving stream => t.Yielded stream.taken stream
  | .yielding _ stream => t.Yielded stream.taken stream
  | _ => True

def Transfers (s : Subscription) (t : Transfer) : Prop :=
  TransferPlace t s.committedLastEventId s.suspension

abbrev KeepsTransfer (t : Transfer) (step : Step Event) : Prop :=
  (Transfer.monitor : Monitor Transfer (SubscriptionAction Event)).Follows Transfers t step

variable {o : SseSubscriptionOptions Event} {s : Subscription} {t : Transfer}

theorem finish_transfers (completion : Completion) :
    KeepsTransfer t (s.finish completion : Step Event) := ⟨⟨trivial, trivial⟩, trivial⟩

theorem decideReconnect_transfers (reason : ReconnectReason) :
    KeepsTransfer t (s.decideReconnect o reason) := by
  unfold decideReconnect
  split
  · exact ⟨⟨trivial, trivial⟩, trivial⟩
  · exact ⟨trivial, trivial⟩

theorem catchError_transfers (error : Thrown) : KeepsTransfer t (s.catchError o error) := by
  unfold catchError
  split
  · exact finish_transfers _
  · split
    · exact finish_transfers _
    · exact finish_transfers _
    · exact decideReconnect_transfers _
    · exact decideReconnect_transfers _

theorem cancel_transfers (response : SseResponse) (completion : Completion) :
    KeepsTransfer t (s.cancel response completion : Step Event) := by
  unfold cancel
  split
  · exact ⟨⟨trivial, trivial⟩, trivial⟩
  · exact ⟨trivial, trivial⟩

theorem close_transfers (completion : Completion) :
    KeepsTransfer t (s.close completion : Step Event) := ⟨trivial, trivial⟩

theorem lastEventIdHeader_getD (committed : Option JsString) :
    (lastEventIdHeader committed).getD [] = committed.getD [] := by
  rcases committed with _ | _ | ⟨u, id⟩ <;> rfl

theorem connect_transfers : KeepsTransfer t (s.connect : Step Event) := by
  unfold connect
  split
  · exact finish_transfers _
  · refine ⟨⟨trivial, trivial⟩, ?_⟩
    simp only [Transfers, TransferPlace, Monitor.after_cons, Monitor.after_nil]
    simp only [Transfer.monitor, Transfer.record, lastEventIdHeader_getD]

theorem pulled_transfers {pull : SsePull} (h : t.PullAt pull) :
    KeepsTransfer t (s.pulled pull : Step Event) := by
  unfold pulled
  split
  · exact ⟨trivial, h⟩
  · exact ⟨trivial, h⟩

theorem commit_transfers {stream : SseStream} (h : t.Yielded stream.taken stream)
    (item : SseStreamItem) : KeepsTransfer t (s.commit o item stream) := by
  unfold commit
  split
  · split
    · exact ⟨⟨trivial, trivial, trivial⟩, h⟩
    · exact ⟨⟨trivial, trivial⟩, h⟩
  · exact close_transfers _

theorem handleItem_transfers {item : SseStreamItem} {stream : SseStream}
    (h : t.Yielded (item :: stream.taken) stream) : KeepsTransfer t (s.handleItem o item stream) := by
  unfold handleItem
  split
  · exact close_transfers _
  · have hp : Transfer.Permits t (.delivered item : SubscriptionAction Event) :=
      List.IsPrefix.trans ⟨stream.taken, by simp⟩ h.prefix
    have hd := h.deliver
    cases item with
    | retry milliseconds =>
      have hpulled : KeepsTransfer (t.record (.delivered (.retry milliseconds) :
          SubscriptionAction Event))
          ({ s with serverRetryMilliseconds := some milliseconds }.pulled (stream.next none) :
            Step Event) := pulled_transfers (hd.next none)
      exact ⟨⟨hp, hpulled.1⟩, hpulled.2⟩
    | checkpoint id =>
      obtain ⟨hk, hr⟩ := commit_transfers (o := o) (s := s) hd (.checkpoint id)
      exact ⟨⟨hp, hk⟩, hr⟩
    | event event =>
      simp only [Step.after]
      split
      · exact ⟨⟨hp, trivial, trivial⟩, hd⟩
      · exact ⟨⟨hp, trivial, trivial⟩, hd⟩

theorem useResponse_transfers (h : t = { resumedFrom := s.committedLastEventId.getD [] })
    (response : SseResponse) (action : SseResponseAction) :
    KeepsTransfer t (s.useResponse response action : Step Event) := by
  unfold useResponse
  split
  · exact cancel_transfers _ _
  · exact cancel_transfers _ _
  · exact cancel_transfers _ _
  · split
    · exact cancel_transfers _ _
    split
    · exact cancel_transfers _ _
    split
    · exact cancel_transfers _ _
    · exact pulled_transfers trivial
    · refine pulled_transfers ⟨⟨[], ?_, ?_⟩, rfl, rfl, rfl⟩
      · simp [h]
      · simp [h, feedWindows]

theorem begin_transfers : KeepsTransfer t (s.begin o) := by
  unfold begin
  split
  · exact finish_transfers _
  split
  · exact finish_transfers _
  split
  · exact finish_transfers _
  split
  · exact ⟨⟨trivial, trivial⟩, trivial⟩
  · exact ⟨trivial, trivial⟩

theorem after_transfers {a : SubscriptionAction Event} {step : Step Event}
    (ha : Transfer.Permits t a) (h : KeepsTransfer (t.record a) step) :
    KeepsTransfer t (Step.after [a] step) :=
  ⟨⟨ha, h.1⟩, h.2⟩

theorem resumeLoading_transfers (stored : Except Thrown StoredCheckpoint) :
    KeepsTransfer t (s.resumeLoading stored : Step Event) := by
  unfold resumeLoading
  split
  · exact finish_transfers _
  · exact finish_transfers _
  · exact after_transfers trivial connect_transfers
  · split
    · exact after_transfers trivial connect_transfers
    · exact finish_transfers _
  · exact finish_transfers _

theorem resumeRequesting_transfers (h : t = { resumedFrom := s.committedLastEventId.getD [] })
    (result : Except Thrown SseResponse) : KeepsTransfer t (s.resumeRequesting o result) := by
  unfold resumeRequesting
  split
  · exact catchError_transfers _
  · exact cancel_transfers _ _
  · split
    · exact ⟨trivial, h⟩
    split
    · exact useResponse_transfers h _ _
    · exact useResponse_transfers h _ _

theorem resumeReading_transfers {stream : SseStream} (h : t.PullAt (.read stream))
    (result : Except Thrown (Option (List UInt8))) :
    KeepsTransfer t (s.resumeReading stream result : Step Event) := by
  unfold resumeReading
  split
  · exact pulled_transfers trivial
  · exact pulled_transfers trivial
  · exact after_transfers trivial (pulled_transfers ((h.chunk _).next none))
  · exact pulled_transfers (h.finish none)

theorem resumeIterating_transfers {pull : SsePull} (h : t.PullAt pull) :
    KeepsTransfer t (s.resumeIterating o pull) := by
  cases pull with
  | read stream => exact ⟨trivial, h⟩
  | item item stream => exact handleItem_transfers h
  | done => exact decideReconnect_transfers _
  | failed error => exact catchError_transfers _

theorem resumeMapping_transfers {stream : SseStream} (h : t.Yielded stream.taken stream)
    (event : SseEvent) (result : Except Thrown (Option Event)) :
    KeepsTransfer t (s.resumeMapping o event stream result) := by
  unfold resumeMapping
  split
  · exact close_transfers _
  · exact close_transfers _
  · exact after_transfers trivial (commit_transfers h _)
  · exact ⟨⟨trivial, trivial⟩, h⟩

theorem resumeSaving_transfers {stream : SseStream} (h : t.Yielded stream.taken stream)
    (result : Except Thrown Unit) : KeepsTransfer t (s.resumeSaving o stream result) := by
  unfold resumeSaving
  split
  · split
    · exact close_transfers _
    · exact after_transfers trivial (pulled_transfers (h.next _))
  · exact pulled_transfers (h.next _)

theorem resumeYielding_transfers {stream : SseStream} (h : t.Yielded stream.taken stream)
    (event : SseEvent) (request : IteratorRequest) :
    KeepsTransfer t (s.resumeYielding o event stream request) := by
  cases request with
  | next =>
    simp only [resumeYielding]
    split
    · exact after_transfers trivial (close_transfers _)
    · exact after_transfers trivial (commit_transfers h _)
  | «return» => exact close_transfers _
  | throw error => exact close_transfers _

theorem resumeCompletion_transfers (completion : Completion) :
    KeepsTransfer t (s.resumeCompletion o completion) := by
  cases completion with
  | returned => exact finish_transfers _
  | threw error => exact catchError_transfers _

theorem resumeDeciding_transfers (reason : ReconnectReason)
    (result : Except Thrown (Option JsNumber)) :
    KeepsTransfer t (s.resumeDeciding o reason result) := by
  unfold resumeDeciding
  split
  · exact finish_transfers _
  · split
    · exact finish_transfers _
    · exact finish_transfers _
  · exact finish_transfers _
  · split
    · exact finish_transfers _
    · exact finish_transfers _
    · exact ⟨⟨trivial, trivial⟩, trivial⟩
    · exact ⟨⟨trivial, trivial⟩, trivial⟩

theorem resumeSleeping_transfers (result : Except Thrown Unit) :
    KeepsTransfer t (s.resumeSleeping result : Step Event) := by
  unfold resumeSleeping
  split
  · exact finish_transfers _
  · exact finish_transfers _
  · exact connect_transfers

theorem resume_transfers (h : Transfers s t) (request : IteratorRequest) :
    KeepsTransfer t (s.resume o request) := by
  have hplace := h
  unfold Transfers at hplace
  unfold resume
  split
  · exact begin_transfers
  · exact finish_transfers _
  · exact finish_transfers _
  · next hs => rw [hs] at hplace; exact resumeYielding_transfers hplace _ _
  · exact finish_transfers _
  · exact finish_transfers _
  · exact ⟨trivial, h⟩

theorem step_transfers (h : Transfers s t) (input : SubscriptionInput Event) :
    KeepsTransfer t (s.step o input) := by
  have hplace := h
  unfold Transfers at hplace
  unfold step
  split
  · exact ⟨trivial, hplace⟩
  · exact ⟨trivial, hplace⟩
  · split
    · exact ⟨trivial, h⟩
    · exact resume_transfers h _
  all_goals try (rename_i hs; rw [hs] at hplace)
  · exact resumeLoading_transfers _
  · exact resumeRequesting_transfers hplace _
  · exact cancel_transfers _ _
  · exact useResponse_transfers hplace _ _
  · exact resumeCompletion_transfers _
  · exact resumeReading_transfers hplace _
  · exact resumeIterating_transfers hplace
  · exact resumeMapping_transfers hplace _ _
  · exact resumeSaving_transfers hplace _
  · exact resumeCompletion_transfers _
  · exact resumeDeciding_transfers _ _
  · exact resumeSleeping_transfers _
  · exact ⟨trivial, h⟩

end Subscription

end Events
