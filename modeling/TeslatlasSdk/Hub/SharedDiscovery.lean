import TeslatlasSdk.Hub.SessionRuns

/-!
# Shared discovery

Any number of operations wait for one discovery.  Each of them leaves it on its own, and it is given
up with the last of them.
-/

open Text Core Http

namespace Hub

/-- A shared discovery that is neither settled nor aborted. -/
structure Alive (s : Session) (p : Nat) : Prop where
  opened : (s.operations p).opened = true
  unsettled : (s.operations p).result = none
  signal : s.reasons p = none

/-- What holds of the callers of shared discoveries at any time: those that wait are counted, none of
them is aborted, there is one discovery that is alive, and a pending one is not settled and has
somebody who waits for it, unless nobody has left it yet. -/
structure Shared (s : Session) : Prop where
  counted : ∀ d, ∃ callers : List Nat, callers.Nodup ∧
    (∀ i, i ∈ callers ↔ s.waits i = .waiting d) ∧ s.waiters d = callers.length
  signals : ∀ i d, s.waits i = .waiting d → s.reasons i = none
  single : ∀ p q, Alive s p → Alive s q → p = q
  pending : ∀ p, s.discoveryPending = some p → (s.operations p).result = none ∧
    ((∃ i, s.waits i = .waiting p) ∨ ∀ i result, s.waits i ≠ .left p result)

/-- Callers leave: the others stay, and a discovery is given up with the last of its callers alone. -/
structure Leaves (callers : Nat → Prop) (s s' : Session) : Prop where
  others : ∀ j, ¬ callers j → s'.waits j = s.waits j
  waiters : ∀ d, s'.waiters d ≤ s.waiters d
  pending : ∀ d, s'.discoveryPending = some d → s.discoveryPending = some d
  kept : ∀ d, s.discoveryPending = some d →
    s'.discoveryPending = some d ∨ s'.discoveryPending = none ∧ s'.waiters d = 0
  signals : ∀ p, ¬ callers p → s.reasons p = none → s'.reasons p ≠ none →
    s.discoveryPending = some p ∧ s'.waiters p = 0

/-- A caller leaves once: with the settlement of its discovery, with the error of its own check, or
with the reason of its own signal's abort.  What a discovery finds counts as long as it is the
pending one. -/
def SharingPermits (s : Session) (event : HubEvent) : Prop :=
  let i := event.thread
  let s' := s.record event
  match event.action with
  | .opened => s.discoveryPending = none
  | .joined d => s.discoveryPending = some d ∧ s.waits i = .none
  | .left result => MayLeave s i result ∧ Leaves (· = i) s s'
  | .aborted source reason =>
      (∀ j d, s.follows (s.operations j) source = true → s.waits j = .waiting d →
        s'.waits j = .left d (.error (abortReason reason))) ∧
      Leaves (fun j => s.follows (s.operations j) source = true) s s'
  | .published _ => s.discoveryPending = some i
  | .invalidated => s.discoveryPending = some i ∧ s.isExpired i = false
  | .settled _ => (s.operations i).result = none ∧ s'.waits = s.waits
  | _ => s'.waits = s.waits

/-- The callers that have left a discovery. -/
structure CrowdInv (s : Session) : Prop where
  parted : ∀ i d result, s.waits i = .left d result → (s.operations d).opened = true
  crowded : ∀ p, s.discoveryPending = some p → s.waiters p = 0 →
    ∀ i result, s.waits i ≠ .left p result

section Crowd

variable {config : HubConfig} {s s' : Session} {i : Nat} {action : HubAction}
  {callers : Nat → Prop}

/-! ## Callers that leave -/

theorem Leaves.refl (callers : Nat → Prop) (s : Session) : Leaves callers s s where
  others _ _ := rfl
  waiters _ := Nat.le_refl _
  pending _ h := h
  kept _ h := .inl h
  signals _ _ h hne := absurd h hne

theorem Leaves.trans {s'' : Session} (h : Leaves callers s s') (h' : Leaves callers s' s'') :
    Leaves callers s s'' where
  others j hj := (h'.others j hj).trans (h.others j hj)
  waiters d := Nat.le_trans (h'.waiters d) (h.waiters d)
  pending d hd := h.pending d (h'.pending d hd)
  kept d hd := by
    rcases h.kept d hd with hsame | ⟨hnone, hzero⟩
    · exact h'.kept d hsame
    · refine .inr ⟨?_, Nat.le_zero.mp (hzero ▸ h'.waiters d)⟩
      by_contra hne
      obtain ⟨e, he⟩ := Option.ne_none_iff_exists'.mp hne
      have hmiddle := h'.pending e he
      rw [hnone] at hmiddle
      cases hmiddle
  signals p hp hnone hne := by
    by_cases hmiddle : s'.reasons p = none
    · obtain ⟨hpending, hzero⟩ := h'.signals p hp hmiddle hne
      exact ⟨h.pending p hpending, hzero⟩
    · obtain ⟨hpending, hzero⟩ := h.signals p hp hnone hmiddle
      exact ⟨hpending, Nat.le_zero.mp (hzero ▸ h'.waiters p)⟩

theorem Leaves.weaken {callers' : Nat → Prop} (h : Leaves callers s s')
    (hle : ∀ j, callers j → callers' j) : Leaves callers' s s' where
  others j hj := h.others j fun hcaller => hj (hle j hcaller)
  waiters := h.waiters
  pending := h.pending
  kept := h.kept
  signals p hp := h.signals p fun hcaller => hp (hle p hcaller)

theorem Leaves.leave (s : Session) (waiter : Nat) (result : Discovered) :
    Leaves (· = waiter) s (s.leave waiter result) := by
  cases hwait : s.waits waiter with
  | none | left =>
    rw [leave_not_waiting (by rw [hwait]; rfl)]
    exact .refl _ s
  | waiting d =>
    rw [leave_waiting hwait]
    have hothers : ∀ j, ¬ j = waiter → (s.release waiter d result).waits j = s.waits j :=
      fun j hj => if_neg hj
    have hwaiters : ∀ e, (s.release waiter d result).waiters e ≤ s.waiters e := by
      intro e
      show (if e = d then s.waiters e - 1 else s.waiters e) ≤ s.waiters e
      split
      · exact Nat.sub_le _ _
      · exact Nat.le_refl _
    unfold Session.abandon
    split
    · next habandon =>
      refine { others := hothers, waiters := hwaiters, pending := nofun, kept := fun e he => ?_,
               signals := fun p _ hnone hne => ?_ }
      · obtain rfl : d = e := Option.some.inj (habandon.2.symm.trans he)
        exact .inr ⟨rfl, habandon.1⟩
      · have hne' : (if p = d then (s.reasons p).or (some Session.noActiveCallers)
          else s.reasons p) ≠ none := hne
        split at hne'
        · next heq =>
          rw [heq]
          exact ⟨habandon.2, habandon.1⟩
        · exact absurd hnone hne'
    · exact { others := hothers, waiters := hwaiters, pending := fun _ hd => hd,
              kept := fun _ hd => .inl hd, signals := fun _ _ hnone hne => absurd hnone hne }

theorem Leaves.onAbort (s : Session) (waiter : Nat) : Leaves (· = waiter) s (s.onAbort waiter) := by
  unfold Session.onAbort
  split
  · exact .leave s waiter _
  · exact .refl _ s

theorem Leaves.foldl (l : List Nat) (s : Session) : Leaves (· ∈ l) s (l.foldl Session.onAbort s) := by
  induction l generalizing s with
  | nil => exact .refl _ s
  | cons waiter l ih =>
    refine ((Leaves.onAbort s waiter).weaken ?_).trans ((ih _).weaken ?_)
    · rintro j rfl
      exact List.mem_cons_self
    · exact fun j hj => List.mem_cons_of_mem _ hj

theorem Leaves.abort (s : Session) (source : SignalSource) (reason : Thrown) :
    Leaves (fun j => s.follows (s.operations j) source = true) s (s.abort source reason) := by
  have hmark : Leaves (fun j => s.follows (s.operations j) source = true) s
      (s.mark source reason) := by
    refine { Leaves.refl _ s with signals := fun p hp hnone hne => ?_ }
    have hne' : (if s.follows (s.operations p) source then (s.reasons p).or (some reason)
      else s.reasons p) ≠ none := hne
    rw [if_neg hp] at hne'
    exact absurd hnone hne'
  exact hmark.trans ((Leaves.foldl _ _).weaken fun j hj => (List.mem_filter.mp hj).2)

-- A caller whose listener runs is told the reason of its own signal.
theorem foldl_left {l : List Nat} {j d : Nat} {reason : Thrown} (hmem : j ∈ l)
    (hwait : s.waits j = .waiting d) (hreason : s.reasons j = some reason) :
    (l.foldl Session.onAbort s).waits j = .left d (.error (abortReason reason)) := by
  induction l generalizing s with
  | nil => cases hmem
  | cons waiter l ih =>
    by_cases hj : j = waiter
    · subst hj
      have hleft : (s.onAbort j).waits j = .left d (.error (abortReason reason)) := by
        unfold Session.onAbort
        rw [hreason]
        simp only
        rw [leave_waiting hwait, abandon_waits]
        exact if_pos rfl
      rcases (Aborts.foldl l (s.onAbort j)).waits j with hsame | ⟨e, other, hwaiting, -⟩
      · exact hsame.trans hleft
      · rw [hleft] at hwaiting
        cases hwaiting
    · have hothers := (Leaves.onAbort s waiter).others j hj
      refine ih ((List.mem_cons.mp hmem).resolve_left hj) (hothers.trans hwait) ?_
      exact (Aborts.onAbort s waiter).reasons j reason hreason

-- The callers of an aborted signal leave at once, with its reason.
theorem abort_left (hinv : SharingInv [] s) {source : SignalSource} {reason : Thrown} {j d : Nat}
    (hfollows : s.follows (s.operations j) source = true) (hwait : s.waits j = .waiting d) :
    (s.abort source reason).waits j = .left d (.error (abortReason reason)) := by
  have hwaiting : (s.waits j).isWaiting = true := by
    rw [hwait]
    rfl
  have hnone : s.reasons j = none := by
    by_contra hne
    exact List.not_mem_nil (hinv.unaborted j hwaiting hne)
  refine foldl_left (List.mem_filter.mpr ⟨(hinv.listening j).mpr hwaiting, hfollows⟩) hwait ?_
  show (if s.follows (s.operations j) source then (s.reasons j).or (some reason)
    else s.reasons j) = some reason
  rw [if_pos hfollows, hnone]
  rfl

/-! ## The callers that have left -/

theorem CrowdInv.leave (h : CrowdInv s) (hjoined : ∀ i d, s.waits i = .waiting d →
    (s.operations d).opened = true) (waiter : Nat) (result : Discovered) :
    CrowdInv (s.leave waiter result) := by
  cases hwait : s.waits waiter with
  | none | left =>
    rw [leave_not_waiting (by rw [hwait]; rfl)]
    exact h
  | waiting d =>
    rw [leave_waiting hwait]
    have hwaits : ∀ j, ((s.release waiter d result).abandon d).waits j =
        if j = waiter then .left d result else s.waits j := by
      intro j
      rw [abandon_waits]
      rfl
    refine ⟨fun j e found hj => ?_, fun p hp hzero j found hj => ?_⟩
    · rw [(Aborts.abandon _ d).operations]
      rw [hwaits] at hj
      split at hj
      · obtain ⟨rfl, -⟩ := Wait.left.inj hj
        exact hjoined waiter d hwait
      · exact h.parted j e found hj
    · unfold Session.abandon at hp hzero
      split at hp
      · cases hp
      · next hnot =>
        rw [if_neg hnot] at hzero
        have hpd : p ≠ d := by
          rintro rfl
          exact hnot ⟨hzero, hp⟩
        rw [hwaits] at hj
        split at hj
        · exact hpd (Wait.left.inj hj).1.symm
        · refine h.crowded p hp ?_ j found hj
          have hzero' : (if p = d then s.waiters p - 1 else s.waiters p) = 0 := hzero
          rw [if_neg hpd] at hzero'
          exact hzero'

theorem CrowdInv.foldl (l : List Nat) {s : Session} (h : CrowdInv s)
    (hjoined : ∀ i d, s.waits i = .waiting d → (s.operations d).opened = true) :
    CrowdInv (l.foldl Session.onAbort s) := by
  induction l generalizing s with
  | nil => exact h
  | cons waiter l ih =>
    have hone : CrowdInv (s.onAbort waiter) := by
      unfold Session.onAbort
      split
      · exact h.leave hjoined waiter _
      · exact h
    refine ih hone fun j d hj => ?_
    rw [(Aborts.onAbort s waiter).operations]
    rcases (Aborts.onAbort s waiter).waits j with hsame | ⟨e, reason, -, hleft⟩
    · exact hjoined j d (hsame ▸ hj)
    · rw [hleft] at hj
      cases hj

theorem CrowdInv.transfer (h : CrowdInv s) (hwaits : s'.waits = s.waits)
    (hwaiters : s'.waiters = s.waiters)
    (hpending : ∀ p, s'.discoveryPending = some p → s.discoveryPending = some p)
    (hopened : ∀ j, (s.operations j).opened = true → (s'.operations j).opened = true) :
    CrowdInv s' where
  parted j d result hj := hopened d (h.parted j d result (hwaits ▸ hj))
  crowded p hp hzero j result hj :=
    h.crowded p (hpending p hp) (hwaiters ▸ hzero) j result (hwaits ▸ hj)

theorem CrowdInv.record (h : CrowdInv s) (hinv : Inv config s)
    (hpermits : Permits config s ⟨i, action⟩) : CrowdInv (s.record ⟨i, action⟩) := by
  have hjoined : ∀ i d, s.waits i = .waiting d → (s.operations d).opened = true :=
    hinv.sharing.joined
  have hopened : ∀ j, (s.operations j).opened = true →
      ((s.record ⟨i, action⟩).operations j).opened = true := by
    intro j hj
    rw [record_operations]
    split
    · cases action with
      | opened => rfl
      | _ => exact hj
    · exact hj
  cases action with
  | opened =>
    refine ⟨fun j d result hj => hopened d (h.parted j d result hj), fun p hp _ j result hj => ?_⟩
    -- nobody has left a discovery that is new
    obtain rfl : i = p := Option.some.inj hp
    have hold := h.parted j i result hj
    rw [hpermits.2.2.2.1] at hold
    cases hold
  | joined d =>
    have hwaits : ∀ j, (s.record ⟨i, .joined d⟩).waits j =
        if j = i then .waiting d else s.waits j := fun _ => rfl
    refine ⟨fun j e result hj => ?_, fun p hp hzero j result hj => ?_⟩
    · rw [hwaits] at hj
      split at hj
      · cases hj
      · exact h.parted j e result hj
    · rw [hwaits] at hj
      split at hj
      · cases hj
      · refine h.crowded p hp ?_ j result hj
        have hzero' : (if p = d then s.waiters p + 1 else s.waiters p) = 0 := hzero
        split at hzero'
        · cases hzero'
        · exact hzero'
  | left result => exact h.leave hjoined i result
  | aborted source reason =>
    have hmark : CrowdInv (s.mark source reason) := h.transfer rfl rfl (fun _ hp => hp) fun _ hj => hj
    have habort : CrowdInv (s.abort source reason) := hmark.foldl _ hjoined
    cases source with
    | owner | session | caller =>
      exact habort.transfer rfl rfl (fun _ hp => hp) fun _ hj => hj
  | settled result =>
    refine h.transfer rfl rfl (fun p hp => ?_) hopened
    have hp' : (if s.discoveryPending = some i then none else s.discoveryPending) = some p := hp
    split at hp'
    · cases hp'
    · exact hp'
  | loggedOut | forgot => exact h.transfer rfl rfl nofun hopened
  | _ => exact h.transfer rfl rfl (fun _ hp => hp) hopened

/-! ## The law -/

theorem shared_of_inv (hinv : Inv config s) (hcrowd : CrowdInv s) : Shared s where
  counted d := by
    refine ⟨s.listeners.filter fun i => (s.waits i).isFor d, hinv.sharing.nodup.filter _,
      fun i => ?_, ?_⟩
    · rw [List.mem_filter, hinv.sharing.listening, isFor_iff]
      refine ⟨fun h => h.2, fun h => ⟨?_, h⟩⟩
      rw [h]
      rfl
    · rw [← List.countP_eq_length_filter]
      exact hinv.sharing.counted d
  signals i d hwait := by
    by_contra hne
    refine List.not_mem_nil (hinv.sharing.unaborted i ?_ hne)
    rw [hwait]
    rfl
  single p q hp hq := by
    have hp' := hinv.sharing.live p hp.opened hp.unsettled hp.signal
    have hq' := hinv.sharing.live q hq.opened hq.unsettled hq.signal
    exact Option.some.inj (hp'.symm.trans hq')
  pending p hp := by
    refine ⟨(hinv.sharing.pending p hp).2, ?_⟩
    by_cases hzero : s.waiters p = 0
    · exact .inr (hcrowd.crowded p hp hzero)
    · rw [hinv.sharing.counted, ← Ne, ← Nat.pos_iff_ne_zero, List.countP_pos_iff] at hzero
      obtain ⟨i, -, hfor⟩ := hzero
      exact .inl ⟨i, isFor_iff.mp hfor⟩

theorem sharing_permits (hinv : Inv config s) (hpermits : Permits config s ⟨i, action⟩) :
    SharingPermits s ⟨i, action⟩ := by
  cases action with
  | opened => exact hpermits.2.1
  | joined d => exact ⟨hpermits.2.1, hpermits.2.2.1⟩
  | left result => exact ⟨hpermits, Leaves.leave s i result⟩
  | aborted source reason =>
    have hleaves := Leaves.abort s source reason
    cases source with
    | owner | session | caller => exact ⟨fun j d hfollows => abort_left hinv.sharing hfollows,
        hleaves.others, hleaves.waiters, hleaves.pending, hleaves.kept, hleaves.signals⟩
  | published d => exact hpermits.2.1
  | invalidated => exact hpermits
  | settled result => exact ⟨hpermits.1, rfl⟩
  | _ => exact rfl

end Crowd

/-- Shared discovery, over the state of the session. -/
def sharing (start : HubStart) : Monitor Session HubEvent where
  initial := { invitations := start.invitations, now := start.now }
  record := Session.record
  permits s event := Shared s ∧ SharingPermits s event

-- Callers are independent of each other, whatever they share.
theorem discovery_shared (config : HubConfig) (start : HubStart)
    (inputs : List (SystemInput (Answer HubCredential) HubCall)) :
    (sharing start).Permitted (sharing start).initial
        ((hubSystem config start).machine.run inputs).2 ∧
      Shared ((hubSystem config start).machine.run inputs).1.state := by
  obtain ⟨hpermitted, hsane, hstate⟩ := session_follows config start inputs
  have hcrowd : CrowdInv (sharing start).initial := ⟨nofun, nofun⟩
  have hinitial : Inv config (sharing start).initial := inv_initial config start
  have hkept : ∀ s event, Inv config s ∧ CrowdInv s → Permits config s event →
      Inv config (s.record event) ∧ CrowdInv (s.record event) :=
    fun s event h hpermits => ⟨h.1.record hpermits, h.2.record h.1 hpermits⟩
  refine ⟨hpermitted.refine (R := fun s s' => (Inv config s ∧ CrowdInv s) ∧ s = s')
    ⟨⟨hinitial, hcrowd⟩, rfl⟩ ?_, ?_⟩
  · rintro s _ event ⟨h, rfl⟩ hpermits
    exact ⟨⟨shared_of_inv h.1 h.2, sharing_permits h.1 hpermits⟩, hkept s event h hpermits, rfl⟩
  · obtain ⟨hinv, hlast⟩ := hpermitted.preserves (P := fun s => Inv config s ∧ CrowdInv s)
      ⟨hinitial, hcrowd⟩ hkept
    rw [hstate]
    exact shared_of_inv hinv hlast

end Hub
