import TeslatlasSdk.Hub.SessionRuns

/-!
# The credential store

The store is asked for one mutation at a time, and for none that is not made of a claim of the
operation's own.
-/

open Text Core Http

namespace Hub

/-! ## One mutation at a time -/

/-- The mutations that operations ask for. -/
@[ext]
structure StoreQueue where
  /-- Those that have asked and are not answered, in the order of asking. -/
  waiting : List Nat := []
  /-- The store is at work for the first of them. -/
  working : Bool := false
  asked : Nat → Bool := fun _ => false

namespace StoreQueue

def record (q : StoreQueue) (event : HubEvent) : StoreQueue :=
  let i := event.thread
  match event.action with
  | .saveQueued | .clearQueued =>
      { q with waiting := q.waiting ++ [i], asked := fun j => j = i || q.asked j }
  | .saveStarted _ | .clearStarted => { q with working := true }
  | .mutated _ => { q with waiting := q.waiting.tail, working := false }
  | _ => q

/-- The operation is the first that waits, and the store is at rest. -/
def MayStart (q : StoreQueue) (i : Nat) : Prop := q.waiting.head? = some i ∧ q.working = false

/-- An operation asks once, the store works for the first that waits, and it is done with that one,
whatever comes of it, before it works for the next. -/
def Permits (q : StoreQueue) (event : HubEvent) : Prop :=
  let i := event.thread
  match event.action with
  | .saveQueued | .clearQueued => q.asked i = false
  | .saveStarted _ | .clearStarted => q.MayStart i
  | .mutated result => q.waiting.head? = some i ∧ (result.isOk = true → q.working = true)
  | _ => True

def monitor : Monitor StoreQueue HubEvent where
  initial := {}
  record := record
  permits := Permits

end StoreQueue

section Refinement

variable {config : HubConfig} {s s' : Session} {i : Nat} {action : HubAction}

end Refinement

/-- What an operation has been told and has sent. -/
structure SaveRecord where
  loaded : Option (Option HubCredential) := none
  /-- It has sent a request or a pairing claim. -/
  sent : Bool := false
  authorization : Option JsString := none
  response : Option Response := none
  /-- What its body has given. -/
  body : BodyView := {}
  claim : Option HubClaim := none
  /-- When it has asked for its save. -/
  checked : Option Int := none

structure Saves where
  now : Int
  records : Nat → SaveRecord := fun _ => {}

/-- A claim that an operation has been given: its own request was answered with a status of 200, and
the body that it has read is that of the claim. -/
structure IsGiven (config : HubConfig) (r : SaveRecord) (claim : HubClaim) : Prop where
  sent : r.sent = true
  response : ∃ response, r.response = some response ∧ response.status = 200 ∧
    ReadAs response r.body config.decoders.claim claim

/-- A credential that may be saved: it is made of a claim that the operation has been given, which
had time left when the save was asked for, and which is for the device of the credential that the
request was sent with. -/
structure Legitimate (config : HubConfig) (r : SaveRecord) (credential : HubCredential) : Prop where
  claim : ∃ claim, r.claim = some claim ∧ IsGiven config r claim ∧ credential = asCredential claim
  unexpired : ∃ now, r.checked = some now ∧ isUnexpired credential.expiresAtMs now = true
  device : ∀ header, r.authorization = some header → ∃ previous,
    r.loaded = some (some previous) ∧ header = previous.bearer ∧
      credential.deviceId = previous.deviceId

/-- What an operation's action adds to its record. -/
def SaveRecord.add (r : SaveRecord) (now : Int) : HubAction → SaveRecord
  | .loaded credential => { r with loaded := some credential }
  | .dispatched _ authorization => { r with sent := true, authorization }
  | .claimStarted _ => { r with sent := true }
  | .responded response => { r with response := some response }
  | .body event => { r with body := r.body.record event }
  | .decoded claim => { r with claim := some claim }
  | .saveQueued => { r with checked := some now }
  | _ => r

namespace Saves

def record (saves : Saves) (event : HubEvent) : Saves where
  now := match event.action with
    | .clockSet now => now
    | _ => saves.now
  records := addTo saves.records event.thread (·.add saves.now event.action)

def Permits (config : HubConfig) (saves : Saves) (event : HubEvent) : Prop :=
  match event.action with
  | .saveStarted credential => Legitimate config (saves.records event.thread) credential
  | _ => True

def monitor (config : HubConfig) (start : HubStart) : Monitor Saves HubEvent where
  initial := { now := start.now }
  record := record
  permits := Permits config

end Saves

/-- An operation has what its record says, and what it may save rests on it. -/
structure Backs (config : HubConfig) (x : Operation) (r : SaveRecord) : Prop where
  loaded : r.loaded = x.loaded
  sent : r.sent = true ↔ x.sent ≠ none ∨ x.claimed ≠ none
  authorization : ∀ header, r.authorization = some header → x.sent ≠ none ∧
    ∃ previous, x.loaded = some (some previous) ∧ header = previous.bearer
  response : r.response = x.response
  body : r.body = x.body
  claim : r.claim = x.claim
  decoded : ∀ claim, x.claim = some claim → IsGiven config r claim
  checked : x.begun = true → x.mutation = .queued → ∃ now claim, r.checked = some now ∧
    x.claim = some claim ∧ isUnexpired claim.expiresAtMs now = true ∧
      ∀ previous, x.loaded = some (some previous) → claim.deviceId = previous.deviceId

section Records

variable {config : HubConfig} {s : Session} {saves : Saves} {i : Nat} {action : HubAction}
  {x : Operation} {r : SaveRecord}

theorem Backs.legitimate (h : Backs config x r) {claim : HubClaim} (hbegun : x.begun = true)
    (hqueued : x.mutation = .queued) (hclaim : x.claim = some claim) :
    Legitimate config r (asCredential claim) := by
  obtain ⟨now, found, hchecked, hfound, hunexpired, hdevice⟩ := h.checked hbegun hqueued
  obtain rfl : claim = found := Option.some.inj (hclaim.symm.trans hfound)
  refine ⟨⟨claim, h.claim.trans hclaim, h.decoded claim hclaim, rfl⟩,
    ⟨now, hchecked, hunexpired⟩, fun header hheader => ?_⟩
  obtain ⟨-, previous, hprevious, hbearer⟩ := h.authorization header hheader
  exact ⟨previous, h.loaded.trans hprevious, hbearer, hdevice previous hprevious⟩

-- An operation that has sent nothing has no claim, and has asked for no save.
theorem Backs.unclaimed (h : Backs config x r) (hsent : x.sent = none) (hclaimed : x.claimed = none) :
    x.claim = none ∧ r.authorization = none := by
  refine ⟨?_, ?_⟩
  · by_contra hne
    obtain ⟨claim, hclaim⟩ := Option.ne_none_iff_exists'.mp hne
    rcases h.sent.mp (h.decoded claim hclaim).sent with hne | hne
    · exact hne hsent
    · exact hne hclaimed
  · by_contra hne
    obtain ⟨header, hheader⟩ := Option.ne_none_iff_exists'.mp hne
    exact (h.authorization header hheader).1 hsent

theorem Backs.unchecked (h : Backs config x r) (hclaim : x.claim = none) :
    ¬ (x.begun = true ∧ x.mutation = .queued) := by
  rintro ⟨hbegun, hqueued⟩
  obtain ⟨now, claim, -, hfound, -⟩ := h.checked hbegun hqueued
  rw [hclaim] at hfound
  cases hfound

theorem Backs.loads (h : Backs config x r) (hsent : x.sent = none) (hclaimed : x.claimed = none)
    (credential : Option HubCredential) :
    Backs config { x with loaded := some credential } { r with loaded := some credential } := by
  obtain ⟨hclaim, hauthorization⟩ := h.unclaimed hsent hclaimed
  refine { h with loaded := rfl, authorization := fun header hheader => ?_,
                  decoded := fun claim hfound => { h.decoded claim hfound with },
                  checked := fun hbegun hqueued => absurd ⟨hbegun, hqueued⟩ (h.unchecked hclaim) }
  rw [hauthorization] at hheader
  cases hheader

theorem Backs.dispatches (h : Backs config x r) {route : HubRoute} {authorization : Option JsString}
    (hbearer : ∀ value, authorization = some value → ∃ previous, x.loaded = some (some previous) ∧
      value = previous.bearer) :
    Backs config { x with sent := some route } { r with sent := true, authorization } where
  loaded := h.loaded
  sent := ⟨fun _ => .inl nofun, fun _ => rfl⟩
  authorization header hheader := ⟨nofun, hbearer header hheader⟩
  response := h.response
  body := h.body
  claim := h.claim
  decoded claim hclaim := ⟨rfl, (h.decoded claim hclaim).response⟩
  checked := h.checked

theorem Backs.claims (h : Backs config x r) (request : HubClaimTransportRequest) :
    Backs config { x with claimed := some request } { r with sent := true } where
  loaded := h.loaded
  sent := ⟨fun _ => .inr nofun, fun _ => rfl⟩
  authorization := h.authorization
  response := h.response
  body := h.body
  claim := h.claim
  decoded claim hclaim := ⟨rfl, (h.decoded claim hclaim).response⟩
  checked := h.checked

theorem Backs.responds (h : Backs config x r) (hnone : x.response = none) (response : Response) :
    Backs config { x with response := some response } { r with response := some response } := by
  refine { h with response := rfl, decoded := fun claim hclaim => ?_ }
  obtain ⟨found, hfound, -⟩ := (h.decoded claim hclaim).response
  rw [h.response, hnone] at hfound
  cases hfound

theorem Backs.reads (h : Backs config x r) (event : BodyEvent) :
    Backs config { x with body := x.body.record event } { r with body := r.body.record event } := by
  refine { h with body := congrArg (BodyView.record · event) h.body,
                  decoded := fun claim hclaim => ?_ }
  obtain ⟨hsent, response, hresponse, hstatus, hread⟩ := h.decoded claim hclaim
  exact ⟨hsent, response, hresponse, hstatus, hread.record event⟩

theorem Backs.decodes (h : Backs config x r) {claim : HubClaim}
    (hanswered : x.sent ≠ none ∨ x.claimed ≠ none)
    (hread : ∃ response, x.response = some response ∧ response.status = 200 ∧
      ReadAs response x.body config.decoders.claim claim)
    (hunasked : x.mutation = .none) :
    Backs config { x with claim := some claim } { r with claim := some claim } := by
  refine { h with claim := rfl, decoded := fun found hfound => ?_, checked := fun _ hqueued => ?_ }
  · obtain rfl : claim = found := Option.some.inj hfound
    obtain ⟨response, hresponse, hstatus, hread⟩ := hread
    refine ⟨h.sent.mpr hanswered, response, h.response.trans hresponse, hstatus, ?_⟩
    rw [show r.body = x.body from h.body]
    exact hread
  · rw [show x.mutation = .queued from hqueued] at hunasked
    cases hunasked

theorem Backs.queues (h : Backs config x r) {now : Int} {claim : HubClaim}
    (hclaim : x.claim = some claim) (hunexpired : isUnexpired claim.expiresAtMs now = true)
    (hdevice : ∀ previous, x.loaded = some (some previous) → claim.deviceId = previous.deviceId) :
    Backs config { x with mutation := .queued } { r with checked := some now } :=
  { h with decoded := fun claim hfound => { h.decoded claim hfound with }
           checked := fun _ _ => ⟨now, claim, rfl, hclaim, hunexpired, hdevice⟩ }

-- What an operation backs, when its own action has been recorded.
theorem Backs.add (hpermits : Permits config s ⟨i, action⟩) (h : Backs config (s.operations i) r) :
    Backs config (action.change s (s.operations i)) (r.add s.now action) := by
  cases action with
  | began caller =>
    have hfresh : s.operations i = {} := hpermits.1
    rw [hfresh] at h ⊢
    exact { h with checked := nofun }
  | body event => exact h.reads event
  | loaded credential => exact h.loads hpermits.2.1 hpermits.2.2 credential
  | dispatched route authorization =>
    refine h.dispatches fun value hvalue => ?_
    obtain ⟨-, credential, hloaded, hbearer⟩ := hpermits.bearer value hvalue
    exact ⟨credential, hloaded.1, hbearer⟩
  | claimStarted request => exact h.claims request
  | responded response => exact h.responds hpermits response
  | decoded claim =>
    exact h.decodes hpermits.answered hpermits.response hpermits.unasked
  | saveQueued =>
    obtain ⟨claim, hclaim, hunexpired, hdevice⟩ := MayQueue.claim hpermits
    exact h.queues hclaim hunexpired hdevice
  | clearQueued =>
    refine { h with checked := fun hbegun _ => ?_ }
    have hnot : (s.operations i).begun = false := hpermits.2
    rw [show (s.operations i).begun = true from hbegun] at hnot
    cases hnot
  | saveStarted | clearStarted | mutated => exact { h with checked := nofun }
  | _ => exact { h with }

theorem saves_now (hnow : saves.now = s.now) :
    (saves.record ⟨i, action⟩).now = (s.record ⟨i, action⟩).now := by
  cases action with
  | left result =>
    have hfollows := FollowsAs.leave s i result
    exact hnow.trans hfollows.now.symm
  | aborted source reason =>
    have hfollows : FollowsAs s (s.abort source reason) :=
      FollowsAs.trans {} (FollowsAs.foldl _ (s.mark source reason))
    cases source with
    | owner | session | caller => exact hnow.trans hfollows.now.symm
  | clockSet now => rfl
  | _ => exact hnow

end Records

-- Nothing is saved but what the hub has answered the operation's own request with.
theorem saves_legitimate (config : HubConfig) (start : HubStart)
    (inputs : List (SystemInput (Answer HubCredential) HubCall)) :
    (Saves.monitor config start).Permitted { now := start.now }
      ((hubSystem config start).machine.run inputs).2 := by
  obtain ⟨hpermitted, -⟩ := session_follows config start inputs
  refine hpermitted.refine (R := fun s saves => saves.now = s.now ∧
    ∀ i, Backs config (s.operations i) (saves.records i)) ⟨rfl, fun i => ?_⟩ ?_
  · exact { loaded := rfl, sent := ⟨nofun, fun h => h.elim (absurd rfl) (absurd rfl)⟩,
            authorization := nofun, response := rfl, body := rfl, claim := rfl, decoded := nofun,
            checked := nofun }
  · rintro s saves ⟨i, action⟩ ⟨hnow, hbacks⟩ hpermits
    have hadd : Backs config (action.change s (s.operations i))
        ((saves.records i).add saves.now action) := hnow ▸ (hbacks i).add hpermits
    refine ⟨?_, saves_now hnow, records_kept s i action _ (SaveRecord.add · saves.now action) hadd hbacks⟩
    cases action with
    | saveStarted credential =>
      obtain ⟨hlive, hturn, claim, hclaim, rfl⟩ := hpermits
      exact (hbacks i).legitimate hlive.begun hturn.queued hclaim
    | _ => exact trivial

end Hub
