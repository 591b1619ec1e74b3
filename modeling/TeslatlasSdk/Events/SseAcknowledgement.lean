import TeslatlasSdk.Events.SseResume

/-!
# Acknowledgements

What a subscription's log says of its consumer, its mapper and its store is what they have done.  A
further monitor is told of the consumer's calls and of each answer that the body takes up.  It
permits an event to be acknowledged only where the body, suspended at the `yield` of the event, has
taken up a call of `next()`.
-/

open Text Core

namespace Events

/-- What a subscription is told while it runs. -/
inductive Heard (Event : Type) where
  /-- The consumer calls the iterator. -/
  | called (request : IteratorRequest)
  /-- The body takes up a call at the `yield` of an event. -/
  | taken (event : SseEvent) (request : IteratorRequest)
  | loaded (stored : Except Thrown StoredCheckpoint)
  | mapped (event : SseEvent) (result : Except Thrown (Option Event))
  | saved (result : Except Thrown Unit)

variable {Event : Type}

namespace Subscription

end Subscription

/-- The id that a stored checkpoint stands for. -/
def StoredCheckpoint.lastEventId : StoredCheckpoint → Option JsString
  | .string id => some id
  | _ => none

/-! ## The monitor -/

structure Hearing (Event : Type) where
  /-- The consumer's calls that are not answered, in order. -/
  calls : List IteratorRequest := []
  last : Option (Heard Event ⊕ SubscriptionAction Event) := none

namespace Hearing

def update (h : Hearing Event) : Heard Event ⊕ SubscriptionAction Event → List IteratorRequest
  | .inl (.called request) => h.calls ++ [request]
  | .inr (.yielded _ _) => h.calls.tail
  | .inr (.settled _) => h.calls.tail
  | _ => h.calls

def record (h : Hearing Event) (a : Heard Event ⊕ SubscriptionAction Event) : Hearing Event where
  calls := h.update a
  last := some a

/-- A call is taken up in its turn.  What the log says of others follows at once on what they have
done, and a commit on what has settled its item. -/
def Permits (h : Hearing Event) : Heard Event ⊕ SubscriptionAction Event → Prop
  | .inl (.taken _ request) => h.calls.head? = some request
  | .inr (.loaded lastEventId) =>
      ∃ stored, h.last = some (.inl (.loaded (.ok stored))) ∧ stored.lastEventId = lastEventId
  | .inr (.skipped event) => h.last = some (.inl (.mapped event (.ok none)))
  | .inr (.acknowledged event) => h.last = some (.inl (.taken event .next))
  | .inr (.commit item) => ∃ a, h.last = some (.inr a) ∧ Ledger.Settles a item
  | .inr .saved => h.last = some (.inl (.saved (.ok ())))
  | _ => True

def monitor : Monitor (Hearing Event) (Heard Event ⊕ SubscriptionAction Event) where
  initial := {}
  record := record
  permits := Permits

end Hearing

namespace Subscription

variable {o : SseSubscriptionOptions Event} {s : Subscription} {h : Hearing Event}

end Subscription

end Events
