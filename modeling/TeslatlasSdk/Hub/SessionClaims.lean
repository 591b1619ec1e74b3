import TeslatlasSdk.Hub.SessionTasks

/-!
# Claims and the credential store

A claim is decoded from the response of its operation, and stored in the turn of the operation's
mutation.
-/

open Text Core Http

namespace Hub

/-- An operation that has the claim of its response. -/
structure Claimed (config : HubConfig) (opened : Bool) (K : Option (Option HubCredential) → Prop)
    (claim : HubClaim) (mutation : Mutation) (x : Operation) : Prop where
  begun : x.begun = true
  refused : x.refused = false
  opened : x.opened = opened
  result : x.result = none
  loaded : K x.loaded
  released : ∀ response, x.response = some response → Released response x.body
  answered : x.sent ≠ none ∨ x.claimed ≠ none
  response : ∃ response, x.response = some response ∧ response.status = 200 ∧
    ReadAs response x.body config.decoders.claim claim
  claim : x.claim = some claim
  mutation : x.mutation = mutation
  bound : x.bound = none

section Claims

variable {config : HubConfig} {start : HubStart} {i : Nat} {opened : Bool}
  {K : Option (Option HubCredential) → Prop} {sent : Option HubRoute} {claim : HubClaim}
  {mutation : Mutation}

theorem Claimed.failed {x : Operation} (h : Claimed config opened K claim mutation x) :
    Failed opened x :=
  ⟨h.opened, h.result, h.released, h.bound⟩

/-! ## Responses -/

theorem decoded_claimed {response : Response} {s : Session} (hstatus : response.status = 200)
    (h : Decoded i opened K sent response config.decoders.claim claim s) :
    At i (Claimed config opened K claim .none) (s.record ⟨i, .decoded claim⟩) := by
  refine at_record (A := fun x => Given opened K sent (some response) x ∧
    WasRead response x.body ∧ ReadAs response x.body config.decoders.claim claim)
      (.decoded claim) h fun x hx =>
      { hx.1 with claim := rfl, released := fun other hother => ?_,
                  response := ⟨response, hx.1.response, hstatus, hx.2.2⟩ }
  obtain rfl : response = other := Option.some.inj (hx.1.response.symm.trans hother)
  exact hx.2.1.released

theorem decoded_lost {response : Response} {s : Session}
    (h : Decoded i opened K sent response config.decoders.claim claim s) :
    Lost i opened response (s.record ⟨i, .decoded claim⟩) := by
  have hlost : Lost i opened response s := Answered.lost h fun _ hread => hread.1.1
  refine ⟨at_record (.decoded claim) hlost.1 fun _ hx => { hx with }, ?_⟩
  exact at_record (A := fun x => x.body.Guarded) (B := fun x => x.body.Guarded) (.decoded claim)
    hlost.2 fun _ hx => hx

theorem triple_decodeClaimResponse (response : Response) (claimRoute : ClaimRoute) :
    (hubLogic config start).Triple i (Answered i opened K sent response Untouched)
      (decodeClaimResponse config i response claimRoute)
      (Outcome (fun result => At i (Claimed config opened K result.value .none))
        (At i (Failed opened))) := by
  have hstable : ∀ result : HubResponse HubClaim,
      (hubLogic config start).Stable i (At i (Claimed config opened K result.value .none)) :=
    fun _ => stable_at _
  refine triple_owned hstable (answered_bind (fun _ h => h.guarded) ?_)
  refine .weaken (W := Answered i opened K sent response Untouched) ?_ (fun _ hs => hs.1)
    fun _ _ hr => hr
  refine .ite (fun hother => .ite (fun _ => ?_) fun _ => ?_) fun hother => ?_
  · exact bodyLaws.awaited (triple_throwClaimExtractorError response _) (stable_consumed hstable)
  · exact bodyLaws.awaited (triple_throwHubError response .other _) (stable_consumed hstable)
  · have hstatus : response.status = 200 := by simpa using hother
    refine .bind (bodyLaws.awaited (triple_decodeResponse response config.decoders.claim "HubClaim")
      (stable_consumed fun _ => stable_decoded _)) (fun claim => ?_) fun _ _ hs => hs
    refine decoded_bind ?_
    refine .perform_bind (W := fun s => At i (Claimed config opened K claim .none) s ∧
      Lost i opened response s) rfl
      (fun s _ hs => ⟨?_, decoded_claimed hstatus hs.1, decoded_lost hs.1⟩) ?_
    · have hgiven : Given opened K sent (some response) (s.operations i) := hs.1.1
      exact ⟨⟨hs.2, hgiven.begun⟩, hgiven.claim, hgiven.mutation, hgiven.answered, response,
        hgiven.response, hstatus, hs.1.2.2⟩
    · exact .ofExcept_bind (fun metadata _ => .pure fun s hs => hs.1) fun e s _ hs => hs.2

/-! ## Mutations -/

/-- The operation's mutation is the first of those that are not settled. -/
def Turn (i : Nat) (A : Operation → Prop) (s : Session) : Prop :=
  At i A s ∧ s.mutations.head? = some i

theorem stable_turn (A : Operation → Prop) : (hubLogic config start).Stable i (Turn i A) :=
  fun s s' hkeeps hs => ⟨stable_at A s s' hkeeps hs.1, Keeps.head hkeeps hs.2⟩

theorem accepts_turn {s : Session} {answer : Answer HubCredential}
    (h : accepts s (.turn i) answer = true) : s.mutations.head? = some i := by
  cases answer with
  | tick => exact of_decide_eq_true h
  | aborted | authorization | response | chunk | credential | mutation => cases h

-- The store is at rest when a mutation's turn comes.
theorem has_turn {s : Session} (hinv : Inv config s) (hhead : s.mutations.head? = some i)
    (hqueued : (s.operations i).mutation = .queued) : HasTurn s i where
  head := hhead
  queued := hqueued
  rest := by
    by_contra hmutating
    obtain ⟨j, hj⟩ := hinv.queue.mutating (by simpa using hmutating)
    have hfirst := (hinv.queue.storing j hj).1
    rw [hhead, Option.some.injEq] at hfirst
    rw [← hfirst, hqueued] at hj
    cases hj

theorem quiet_awaitMutation : (hubLogic config start).Quiet i awaitMutation := by
  refine .bind (.await fun _ _ _ => trivial) fun answer => ?_
  cases answer with
  | mutation result => exact .ofExcept result
  | tick | aborted | authorization | response | chunk | credential => exact .throw _

-- A mutation waits for its turn and is settled in it.
theorem triple_enqueueCredentialMutation {P : Session → Prop} {B : Mutation → Operation → Prop}
    {E : Operation → Prop} {enqueue : HubAction} {begin : HubAsync Unit}
    (henqueue : ∀ s, Inv config s → P s → Permits config s ⟨i, enqueue⟩ ∧
      At i (B .queued) (s.record ⟨i, enqueue⟩))
    (hbegin : (hubLogic config start).Triple i (Turn i (B .queued)) begin
      (Outcome (fun _ => Turn i fun x => B .storing x ∧ x.mutation = .storing) (Turn i E)))
    (hB : ∀ x, B .storing x → B (.settled true) { x with mutation := .settled true })
    (hBE : ∀ x, B .storing x → E x)
    (hE : ∀ x, E x → E { x with mutation := .settled false }) :
    (hubLogic config start).Triple i P (enqueueCredentialMutation i enqueue begin)
      (Outcome (fun _ => At i (B (.settled true))) (At i E)) := by
  refine .perform_bind (W := At i (B .queued)) rfl henqueue ?_
  refine .bind (Q := fun r s => (∃ answer, r = .ok answer) ∧ Turn i (B .queued) s) ?_
    (fun answer => ?_) ?_
  · exact .await (fun _ _ _ _ => trivial) fun s s' answer hs hkeeps _ haccepts =>
      ⟨⟨answer, rfl⟩, stable_at _ s s' hkeeps hs, accepts_turn haccepts⟩
  · have hrun : (hubLogic config start).Triple i (Turn i (B .queued)) (do
          begin
          awaitMutation)
        (Outcome (fun _ => Turn i fun x => B .storing x ∧ x.mutation = .storing) (Turn i E)) := by
      refine .bind hbegin (fun _ => ?_) fun _ _ hs => hs
      refine (quiet_awaitMutation _ (stable_turn _)).weaken (fun _ hs => hs) fun r s hs => ?_
      cases r with
      | ok u => exact hs
      | error e => exact ⟨hBE _ hs.1.1, hs.2⟩
    refine .attempt_bind (hrun.weaken (fun _ hs => hs.2) fun _ _ hr => hr) fun result => ?_
    cases result with
    | ok u =>
      refine .perform_bind (W := At i (B (.settled true))) rfl
        (fun s _ hs => ⟨⟨hs.2, fun _ => hs.1.2⟩, ?_⟩) (.ofExcept fun _ hs => hs)
      exact at_record (.mutated (.ok u)) hs.1 fun x hx => hB x hx.1
    | error e =>
      refine .perform_bind (W := At i E) rfl (fun s _ hs => ⟨⟨hs.2, nofun⟩, ?_⟩)
        (.ofExcept fun _ hs => hs)
      exact at_record (.mutated (.error e)) hs.1 hE
  · rintro e s ⟨⟨answer, herror⟩, -⟩
    cases herror

theorem triple_saveCredential
    (hdevice : ∀ previous, K (some (some previous)) → claim.deviceId = previous.deviceId) :
    (hubLogic config start).Triple i
      (fun s => At i (Claimed config opened K claim .none) s ∧
        isUnexpired claim.expiresAtMs s.now = true)
      (saveCredential i (asCredential claim))
      (Outcome (fun _ => At i (Claimed config opened K claim (.settled true)))
        (At i (Failed opened))) := by
  have hbegin : (hubLogic config start).Triple i (Turn i (Claimed config opened K claim .queued)) (do
        assertOperation i
        act i (.saveStarted (asCredential claim)))
      (Outcome (fun _ => Turn i fun x =>
          Claimed config opened K claim .storing x ∧ x.mutation = .storing)
        (Turn i (Failed opened))) := by
    refine assert_bind (E := Turn i (Failed opened))
      (fun s hs _ => ⟨failed_refused (Claimed.failed hs.1), hs.2⟩) ?_ fun _ _ hs => hs
    refine .perform rfl fun s hinv hs =>
      ⟨⟨⟨hs.2, Claimed.begun hs.1.1⟩, ?_, claim, Claimed.claim hs.1.1, rfl⟩, ?_, hs.1.2⟩
    · exact has_turn hinv hs.1.2 (Claimed.mutation hs.1.1)
    · exact at_record (.saveStarted (asCredential claim)) hs.1.1 fun x hx =>
        ⟨{ hx with mutation := rfl }, rfl⟩
  refine .tryCatch (Q := Outcome (fun _ => At i (Claimed config opened K claim (.settled true)))
    (At i (Failed opened))) ?_ (fun error => ?_) fun _ _ hs => hs
  · refine .bind (bodyLaws.awaited (triple_enqueueCredentialMutation
      (B := Claimed config opened K claim) (E := Failed opened) (fun s _ hs => ⟨?_, ?_⟩) hbegin
      (fun x hx => { hx with mutation := rfl }) (fun x hx => hx.failed)
      fun x hx => { hx with }) fun r => ?_) (fun _ => ?_) fun _ _ hs => hs
    · refine ⟨Claimed.mutation hs.1, claim, Claimed.claim hs.1, hs.2, fun previous hprevious => ?_⟩
      have hloaded := Claimed.loaded hs.1
      rw [hprevious] at hloaded
      exact hdevice previous hloaded
    · exact at_record .saveQueued hs.1 fun x hx => { hx with mutation := rfl }
    · cases r with
      | ok u => exact stable_at (Claimed config opened K claim (.settled true))
      | error e => exact stable_at (Failed opened)
    · refine (triple_assertOperation (E := At i (Failed opened)) fun s hs _ =>
        failed_refused (Claimed.failed hs)).weaken (fun _ hs => hs) fun r s hs => ?_
      cases r with
      | ok u => exact hs.1
      | error e => exact hs
  · refine (triple_rethrow error).weaken (fun s hs => hs) fun r s hs => ?_
    cases r with
    | ok value => exact hs.elim
    | error e => exact hs

theorem requireUnexpiredClaim_ok {now : Int} (h : requireUnexpiredClaim now claim = .ok ()) :
    isUnexpired claim.expiresAtMs now = true := by
  unfold requireUnexpiredClaim at h
  split at h
  · assumption
  · cases h

-- A claim that is returned has been stored.
theorem triple_storeClaim {result : HubResponse HubClaim} {check : Except Thrown Unit}
    (hcheck : check = .ok () → ∀ previous, K (some (some previous)) →
      result.value.deviceId = previous.deviceId) :
    (hubLogic config start).Triple i (At i (Claimed config opened K result.value .none))
      (storeClaim i result check)
      (Outcome (fun found s => found = result ∧
        At i (Claimed config opened K result.value (.settled true)) s) (At i (Failed opened))) := by
  refine assert_bind (E := At i (Failed opened)) (fun s hs _ => failed_refused (Claimed.failed hs))
    ?_ fun _ _ hs => hs
  refine .get_bind fun s _ hs => ?_
  have hfailed : ∀ s', s' = s → At i (Failed opened) s' := fun s' heq => heq ▸ Claimed.failed hs.1
  refine .ofExcept_bind (fun u hunexpired => ?_) fun e s' _ heq => hfailed s' heq
  refine .ofExcept_bind (fun u' hu' => ?_) fun e s' _ heq => hfailed s' heq
  refine .bind ((bodyLaws.awaited (triple_saveCredential (hcheck hu')) fun r => ?_).weaken
    (fun s' heq => ?_) fun _ _ hr => hr) (fun _ => ?_) fun _ _ hs => hs
  · cases r with
    | ok u => exact stable_at (Claimed config opened K result.value (.settled true))
    | error e => exact stable_at (Failed opened)
  · subst heq
    exact ⟨hs.1, requireUnexpiredClaim_ok hunexpired⟩
  · refine assert_bind (E := At i (Failed opened))
      (fun s hs _ => failed_refused (Claimed.failed hs)) ?_ fun _ _ hs => hs
    exact .pure fun s hs => ⟨rfl, hs.1⟩

end Claims

end Hub
