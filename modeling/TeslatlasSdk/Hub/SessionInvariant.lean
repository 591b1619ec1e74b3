import TeslatlasSdk.Hub.SessionSharing

/-!
# The invariant of a hub session

Every permitted action keeps the invariant, and leaves to the other operations what they rest on.
-/

open Text Core Http

namespace Hub

section Preservation

variable {config : HubConfig} {s s' : Session} {i j : Nat} {action : HubAction}

/-! ## What an action keeps -/

-- A caller that may leave is one of a discovery.
theorem record_left {result : Discovered} (h : MayLeave s i result) :
    ∃ d, s.waits i = .waiting d ∧ ((s.operations d).result = some result ∨ ∃ e, result = .error e) ∧
      s.record ⟨i, .left result⟩ = (s.release i d result).abandon d := by
  obtain ⟨d, hwait, hsettled⟩ := h.settled
  refine ⟨d, hwait, hsettled.imp id fun ⟨e, herror, _⟩ => ⟨e, herror⟩, ?_⟩
  exact leave_waiting hwait

theorem expected_error (config : HubConfig) (s : Session) (i : Nat) (e : Thrown) :
    Expected config s i (.error e) := nofun

theorem ReadAs.record {β : Type} {response : Response} {body : BodyView}
    {decode : JsString → Except Thrown β} {value : β} (h : ReadAs response body decode value)
    (event : BodyEvent) : ReadAs response (body.record event) decode value := by
  obtain ⟨text, htext, hdecode⟩ := h
  exact ⟨text, htext.record event, hdecode⟩

-- What an operation has fetched stays so: it sends once, and is answered once.
theorem Fetched.change {β : Type} {route : HubRoute} {statuses : List Nat}
    {decode : JsString → Except Thrown β} {value : β} (hpermits : Permits config s ⟨i, action⟩)
    (h : Fetched (s.operations i) route statuses decode value) :
    Fetched (action.change s (s.operations i)) route statuses decode value := by
  obtain ⟨hsent, response, hresponse, hstatus, hread⟩ := h
  cases action with
  | began caller =>
    rw [hpermits.1] at hsent
    cases hsent
  | dispatched other authorization =>
    rw [MayDispatch.sent hpermits] at hsent
    cases hsent
  | responded other =>
    rw [show (s.operations i).response = none from hpermits] at hresponse
    cases hresponse
  | body event => exact ⟨hsent, response, hresponse, hstatus, hread.record event⟩
  | _ => exact ⟨hsent, response, hresponse, hstatus, hread⟩

theorem Fetched.record {β : Type} {route : HubRoute} {statuses : List Nat}
    {decode : JsString → Except Thrown β} {value : β} (hpermits : Permits config s ⟨i, action⟩)
    (h : Fetched (s.operations j) route statuses decode value) :
    Fetched ((s.record ⟨i, action⟩).operations j) route statuses decode value := by
  by_cases hj : j = i
  · subst hj
    rw [record_self]
    exact h.change hpermits
  · rw [record_ne s action hj]
    exact h

theorem Documented.record {d : HubDiscovery} (hpermits : Permits config s ⟨i, action⟩)
    (h : Documented config s d) : Documented config (s.record ⟨i, action⟩) d := by
  obtain ⟨p, hfetched⟩ := h
  exact ⟨p, hfetched.record hpermits⟩

-- What is vouched for stays so, as long as the operation is one of the generation.
theorem Vouched.transfer {d : HubDiscovery} (h : Vouched config s j d)
    (hfetched : Documented config s d → Documented config s' d)
    (hgeneration : (s'.operations j).generation ≤ s'.sessionGeneration)
    (hpublished : (s'.operations j).generation = s'.sessionGeneration →
      (s.operations j).generation = s.sessionGeneration ∧ ∀ d ∈ s.published, d ∈ s'.published) :
    Vouched config s' j d where
  fetched := hfetched h.fetched
  hub := h.hub
  generation := hgeneration
  published hcurrent := by
    obtain ⟨hold, hmem⟩ := hpublished hcurrent
    exact hmem d (h.published hold)

/-- A change that adds to what is known of the hub only what is vouched for. -/
structure Identifies (config : HubConfig) (s s' : Session) : Prop where
  documented : ∀ d, Documented config s d → Documented config s' d
  generations : ∀ j, (s'.operations j).generation = (s.operations j).generation
  results : ∀ p result, (s'.operations p).result = some result →
    (s.operations p).result = some result ∨ Expected config s p result
  admitted : ∀ j d, (s'.operations j).admitted = some d →
    (s.operations j).admitted = some d ∨ Vouched config s j d
  generation : s'.sessionGeneration = s.sessionGeneration := by rfl
  disposed : s'.disposed = s.disposed := by rfl
  published : ∀ d ∈ s.published, d ∈ s'.published := by exact fun _ h => h
  hubs : ∀ d ∈ s'.published, d ∈ s.published ∨
    Documented config s d ∧ d.hubId = config.expectedHubId := by exact fun _ h => .inl h
  discovery : ∀ d, s'.discovery = some d → s.discovery = some d ∨ d ∈ s'.published := by
    exact fun _ h => .inl h
  left : ∀ j d result, s'.waits j = .left d result →
    s.waits j = .left d result ∨ Expected config s j result := by exact fun _ _ _ h => .inl h
  pending : ∀ p, s'.discoveryPending = some p → s.discoveryPending = some p ∨
    (s.operations p).generation = s.sessionGeneration := by exact fun _ h => .inl h
  together : ∀ j d, s'.waits j = .waiting d → s.waits j = .waiting d ∨
    (s.operations j).generation = (s.operations d).generation := by exact fun _ _ h => .inl h

theorem Identifies.vouched (h : Identifies config s s') {d : HubDiscovery}
    (hvouched : Vouched config s j d) : Vouched config s' j d := by
  refine hvouched.transfer (h.documented d) ?_ fun hcurrent => ⟨?_, h.published⟩
  · rw [h.generations, h.generation]
    exact hvouched.generation
  · rw [h.generations, h.generation] at hcurrent
    exact hcurrent

theorem IdentityInv.transfer (h : IdentityInv config s) (hs : Identifies config s s') :
    IdentityInv config s' where
  published d hd := by
    obtain ⟨hfetched, hhub⟩ := (hs.hubs d hd).elim (h.published d) id
    exact ⟨hs.documented d hfetched, hhub⟩
  discovery d hd := (hs.discovery d hd).elim (fun hold => hs.published d (h.discovery d hold)) id
  results p result hp response hok := by
    have hexpected : Expected config s p result := (hs.results p result hp).elim (h.results p result) id
    exact hs.vouched (hexpected response hok)
  left j d result hj response hok := by
    have hexpected : Expected config s j result := (hs.left j d result hj).elim (h.left j d result) id
    exact hs.vouched (hexpected response hok)
  admitted j d hj := hs.vouched ((hs.admitted j d hj).elim (h.admitted j d) id)
  pending p hp hdisposed := by
    rw [hs.generations, hs.generation]
    exact (hs.pending p hp).elim (fun hold => h.pending p hold (hs.disposed ▸ hdisposed)) id
  together j d hj := by
    rw [hs.generations, hs.generations]
    exact (hs.together j d hj).elim (h.together j d) id

-- The operation that begins has no result, and nobody waits for it.
theorem IdentityInv.began (h : IdentityInv config s) (hsharing : SharingInv [] s)
    {caller : Option Nat} (hpermits : Permits config s ⟨i, .began caller⟩) :
    IdentityInv config (s.record ⟨i, .began caller⟩) := by
  have hfresh : s.operations i = {} := hpermits.1
  have hwait : s.waits i = .none := hpermits.2.1
  have hself := record_self s i (.began caller)
  have hother : ∀ j, j ≠ i → (s.record ⟨i, .began caller⟩).operations j = s.operations j :=
    fun j hj => record_ne s (.began caller) hj
  have hvouched : ∀ j d, j ≠ i → Vouched config s j d → Vouched config (s.record ⟨i, .began caller⟩) j d := by
    intro j d hj hd
    refine hd.transfer (Documented.record hpermits) ?_ fun hcurrent => ⟨?_, fun _ hmem => hmem⟩
    · rw [hother j hj]
      exact hd.generation
    · rw [hother j hj] at hcurrent
      exact hcurrent
  refine { published := fun d hd => ⟨(h.published d hd).1.record hpermits, (h.published d hd).2⟩,
           discovery := h.discovery, results := fun p result hp => ?_,
           left := fun j d result hj => ?_, admitted := fun j d hj => ?_,
           pending := fun p hp hdisposed => ?_, together := fun j d hj => ?_ }
  · by_cases heq : p = i
    · rw [heq, hself, hfresh] at hp
      cases hp
    · rw [hother p heq] at hp
      exact fun response hok => hvouched p _ heq (h.results p result hp response hok)
  · have hne : j ≠ i := by
      rintro rfl
      have hleft : s.waits j = .left d result := hj
      rw [hwait] at hleft
      cases hleft
    exact fun response hok => hvouched j _ hne (h.left j d result hj response hok)
  · by_cases heq : j = i
    · rw [heq, hself, hfresh] at hj
      cases hj
    · rw [hother j heq] at hj
      exact hvouched j d heq (h.admitted j d hj)
  · by_cases heq : p = i
    · rw [heq, hself]
      rfl
    · rw [hother p heq]
      exact h.pending p hp hdisposed
  · have hwaiting : s.waits j = .waiting d := hj
    have hj' : j ≠ i := by
      rintro rfl
      rw [hwait] at hwaiting
      cases hwaiting
    have hd' : d ≠ i := by
      rintro rfl
      have hopened := hsharing.joined j d hwaiting
      rw [hfresh] at hopened
      cases hopened
    rw [hother j hj', hother d hd']
    exact h.together j d hwaiting

-- A generation that is over leaves nothing to vouch for.
theorem IdentityInv.over (h : IdentityInv config s)
    (hoperations : s'.operations = s.operations) (hwaits : s'.waits = s.waits)
    (hgeneration : s.sessionGeneration < s'.sessionGeneration)
    (hpublished : ∀ d ∈ s'.published, d ∈ s.published)
    (hdiscovery : ∀ d, s'.discovery = some d → d ∈ s'.published)
    (hpending : s'.discoveryPending = none ∨ s'.disposed = true) : IdentityInv config s' := by
  have hfetched : ∀ d, Documented config s d → Documented config s' d := by
    rintro d ⟨p, hp⟩
    exact ⟨p, hoperations ▸ hp⟩
  have hvouched : ∀ j d, Vouched config s j d → Vouched config s' j d := by
    intro j d hd
    have hle := hd.generation
    refine hd.transfer (hfetched d) ?_ fun hcurrent => ?_
    · rw [hoperations]
      omega
    · rw [hoperations] at hcurrent
      omega
  refine { published := fun d hd => ⟨hfetched d (h.published d (hpublished d hd)).1,
             (h.published d (hpublished d hd)).2⟩, discovery := hdiscovery,
           results := fun p result hp response hok => ?_, left := fun j d result hj response hok => ?_,
           admitted := fun j d hj => ?_, pending := fun p hp hdisposed => ?_,
           together := fun j d hj => ?_ }
  · rw [hoperations] at hp
    exact hvouched p _ (h.results p result hp response hok)
  · rw [hwaits] at hj
    exact hvouched j _ (h.left j d result hj response hok)
  · rw [hoperations] at hj
    exact hvouched j d (h.admitted j d hj)
  · rcases hpending with hnone | htrue
    · rw [hnone] at hp
      cases hp
    · rw [htrue] at hdisposed
      cases hdisposed
  · rw [hwaits] at hj
    rw [hoperations]
    exact h.together j d hj

theorem IdentityInv.record (h : IdentityInv config s) (hsharing : SharingInv [] s)
    (hpermits : Permits config s ⟨i, action⟩) : IdentityInv config (s.record ⟨i, action⟩) := by
  have hdocumented : ∀ d, Documented config s d → Documented config (s.record ⟨i, action⟩) d :=
    fun _ => .record hpermits
  have hgenerations : (∀ caller, action ≠ .began caller) → ∀ j,
      ((s.record ⟨i, action⟩).operations j).generation = (s.operations j).generation := by
    intro hbegan
    refine record_part Operation.generation (fun x => ?_) i
    cases action with
    | began caller => exact absurd rfl (hbegan caller)
    | _ => rfl
  have hresults : (∀ result, action ≠ .settled result) → ∀ p result,
      ((s.record ⟨i, action⟩).operations p).result = some result →
        (s.operations p).result = some result ∨ Expected config s p result := by
    intro hsettled p result hp
    rw [record_part Operation.result (fun x => ?_) i p] at hp
    · exact .inl hp
    cases action with
    | settled result => exact absurd rfl (hsettled result)
    | _ => rfl
  have hadmitted : (∀ d, action ≠ .admitted d) → ∀ j d,
      ((s.record ⟨i, action⟩).operations j).admitted = some d →
        (s.operations j).admitted = some d ∨ Vouched config s j d := by
    intro hother j d hj
    rw [record_part Operation.admitted (fun x => ?_) i j] at hj
    · exact .inl hj
    cases action with
    | admitted d => exact absurd rfl (hother d)
    | _ => rfl
  cases action with
  | began caller => exact h.began hsharing hpermits
  | loggedOut =>
    exact h.over rfl rfl (Nat.lt_succ_self _) nofun nofun (.inl rfl)
  | disposed =>
    exact h.over rfl rfl (Nat.lt_succ_self _) (fun _ hd => hd) h.discovery (.inr rfl)
  | opened =>
    refine h.transfer { documented := hdocumented, generations := hgenerations nofun,
                        results := hresults nofun,
                        admitted := hadmitted nofun, pending := fun p hp => .inr ?_ }
    obtain rfl : i = p := Option.some.inj hp
    exact hpermits.1.toCurrent.generation
  | joined d =>
    refine h.transfer { documented := hdocumented, generations := hgenerations nofun,
                        results := hresults nofun,
                        admitted := hadmitted nofun, left := fun j d' result hj => .inl ?_,
                        together := fun j d' hj => ?_ }
    · have hj' : (if j = i then .waiting d else s.waits j) = Wait.left d' result := hj
      split at hj'
      · cases hj'
      · exact hj'
    · have hj' : (if j = i then .waiting d else s.waits j) = Wait.waiting d' := hj
      split at hj'
      · next heq =>
        rw [heq, ← Wait.waiting.inj hj', h.pending d hpermits.2.1 hpermits.1.toCurrent.disposed]
        exact .inr hpermits.1.toCurrent.generation
      · exact .inl hj'
  | left found =>
    obtain ⟨d, hwait, hsettled, hrecord⟩ := record_left hpermits
    have haborts := Aborts.abandon (s.release i d found) d
    have hwaits : ∀ j, (s.record ⟨i, .left found⟩).waits j =
        if j = i then .left d found else s.waits j := by
      intro j
      rw [hrecord, abandon_waits]
      rfl
    refine h.transfer { documented := hdocumented, generations := hgenerations nofun,
                        results := hresults nofun,
                        admitted := hadmitted nofun, generation := hrecord ▸ haborts.generation,
                        disposed := hrecord ▸ haborts.disposed,
                        published := fun d hd => by rw [hrecord, haborts.published]; exact hd,
                        hubs := fun d hd => .inl (by rw [hrecord, haborts.published] at hd; exact hd),
                        discovery := fun d hd => .inl (by rw [hrecord, haborts.discovery] at hd; exact hd),
                        pending := fun p hp => .inl (haborts.pending p (hrecord ▸ hp)),
                        left := fun j d' result hj => ?_, together := fun j d' hj => .inl ?_ }
    · rw [hwaits] at hj
      split at hj
      · next heq =>
        obtain ⟨-, rfl⟩ := Wait.left.inj hj
        refine .inr fun response hok => ?_
        have hgeneration := (hpermits.ok response hok).generation
        rcases hsettled with hresult | ⟨e, herror⟩
        · have hvouched := h.results d found hresult response hok
          rw [heq]
          refine ⟨hvouched.fetched, hvouched.hub, Nat.le_of_eq hgeneration,
            fun _ => hvouched.published ?_⟩
          rw [← h.together i d hwait, hgeneration]
        · rw [hok] at herror
          cases herror
      · exact .inl hj
    · rw [hwaits] at hj
      split at hj
      · cases hj
      · exact hj
  | published d =>
    refine h.transfer { documented := hdocumented, generations := hgenerations nofun,
                        results := hresults nofun,
                        admitted := hadmitted nofun,
                        published := fun _ hmem => List.mem_cons_of_mem d hmem,
                        hubs := fun d' hmem => ?_, discovery := fun d' hd => .inr ?_ }
    · rcases List.mem_cons.mp hmem with rfl | hold
      · exact .inr ⟨⟨i, hpermits.2.2.2⟩, hpermits.2.2.1⟩
      · exact .inl hold
    · obtain rfl : d = d' := Option.some.inj hd
      exact List.mem_cons_self
  | invalidated =>
    exact h.transfer { documented := hdocumented, generations := hgenerations nofun,
                       results := hresults nofun,
                       admitted := hadmitted nofun, discovery := nofun }
  | forgot =>
    exact h.transfer { documented := hdocumented, generations := hgenerations nofun,
                       results := hresults nofun,
                       admitted := hadmitted nofun, discovery := nofun, pending := nofun }
  | settled result =>
    refine h.transfer { documented := hdocumented, generations := hgenerations nofun,
                        results := fun p found hp => ?_,
                        admitted := hadmitted nofun, pending := fun p hp => .inl ?_ }
    · rw [record_operations] at hp
      split at hp
      · next heq =>
        obtain rfl : result = found := Option.some.inj hp
        exact .inr (heq ▸ hpermits.2.1)
      · exact .inl hp
    · have hp' : (if s.discoveryPending = some i then none else s.discoveryPending) = some p := hp
      split at hp'
      · cases hp'
      · exact hp'
  | admitted d =>
    refine h.transfer { documented := hdocumented, generations := hgenerations nofun,
                        results := hresults nofun,
                        admitted := fun j d' hj => ?_ }
    rw [record_operations] at hj
    split at hj
    · next heq =>
      obtain rfl : d = d' := Option.some.inj hj
      exact .inr (heq ▸ hpermits)
    · exact .inl hj
  | aborted source reason =>
    have haborts : Aborts s (s.record ⟨i, .aborted source reason⟩) := Aborts.abort s source reason
    refine h.transfer { documented := hdocumented, generations := hgenerations nofun,
                        results := hresults nofun,
                        admitted := hadmitted nofun, generation := haborts.generation,
                        disposed := haborts.disposed,
                        published := fun d hd => by rw [haborts.published]; exact hd,
                        hubs := fun d hd => .inl (by rw [haborts.published] at hd; exact hd),
                        discovery := fun d hd => .inl (by rw [haborts.discovery] at hd; exact hd),
                        pending := fun p hp => .inl (haborts.pending p hp),
                        left := fun j d result hj => ?_, together := fun j d hj => .inl ?_ }
    · rcases haborts.waits j with hsame | ⟨d', reason', -, hleft⟩
      · exact .inl (hsame ▸ hj)
      · obtain ⟨-, rfl⟩ := Wait.left.inj (hleft.symm.trans hj)
        exact .inr (expected_error config s j _)
    · rcases haborts.waits j with hsame | ⟨d', reason', -, hleft⟩
      · exact hsame ▸ hj
      · rw [hleft] at hj
        cases hj
  | _ =>
    exact h.transfer { documented := hdocumented, generations := hgenerations nofun,
                       results := hresults nofun,
                       admitted := hadmitted nofun }

theorem combinedReason_owner (caller : Option Nat) (h : s.owner ≠ none) :
    s.combinedReason caller ≠ none := by
  rw [Session.combinedReason]
  cases howner : s.owner with
  | none => exact absurd howner h
  | some reason =>
    rw [Option.some_or]
    exact nofun

theorem combinedReason_caller {c : Nat} (h : s.callers c ≠ none) :
    s.combinedReason (some c) ≠ none := by
  rw [Session.combinedReason, Option.bind_some]
  cases s.owner with
  | some reason => exact nofun
  | none => exact h

theorem SignalInv.transfer (h : SignalInv s) (howner : s'.owner = s.owner)
    (hcallers : s'.callers = s.callers)
    (hops : ∀ j, (s'.operations j).begun = (s.operations j).begun ∧
      (s'.operations j).caller = (s.operations j).caller)
    (hreasons : ∀ j, s.reasons j ≠ none → s'.reasons j ≠ none) : SignalInv s' where
  owner hne j hj := hreasons j (h.owner (howner ▸ hne) j ((hops j).1 ▸ hj))
  callers c hne j hj hcaller :=
    hreasons j (h.callers c (hcallers ▸ hne) j ((hops j).1 ▸ hj) ((hops j).2 ▸ hcaller))

theorem SignalInv.began (h : SignalInv s) (caller : Option Nat) :
    SignalInv (s.record ⟨i, .began caller⟩) := by
  have hself : (s.record ⟨i, .began caller⟩).reasons i = s.combinedReason caller := if_pos rfl
  have hother : ∀ j, j ≠ i → (s.record ⟨i, .began caller⟩).reasons j = s.reasons j :=
    fun j hj => if_neg hj
  refine ⟨fun howner j hj => ?_, fun c hc j hj hcaller => ?_⟩
  · by_cases heq : j = i
    · rw [heq, hself]
      exact combinedReason_owner caller howner
    · rw [hother j heq]
      rw [record_ne s _ heq] at hj
      exact h.owner howner j hj
  · by_cases heq : j = i
    · rw [heq, record_self] at hcaller
      obtain rfl : caller = some c := hcaller
      rw [heq, hself]
      exact combinedReason_caller hc
    · rw [hother j heq]
      rw [record_ne s _ heq] at hj hcaller
      exact h.callers c hc j hj hcaller

-- When an abort is over, the signals of all operations that follow its source are aborted.
theorem aborted_follows (source : SignalSource) (reason : Thrown)
    (h : s.follows (s.operations j) source = true) :
    (s.record ⟨i, .aborted source reason⟩).reasons j ≠ none := by
  have hmark : (s.mark source reason).reasons j ≠ none := by
    show (if s.follows (s.operations j) source then (s.reasons j).or (some reason)
      else s.reasons j) ≠ none
    rw [if_pos h]
    cases s.reasons j with
    | none => exact nofun
    | some old => exact nofun
  have habort : (s.abort source reason).reasons j ≠ none :=
    (Aborts.foldl _ (s.mark source reason)).aborted hmark
  cases source with
  | owner | session | caller => exact habort

theorem SignalInv.aborted (h : SignalInv s) (source : SignalSource) (reason : Thrown) :
    SignalInv (s.record ⟨i, .aborted source reason⟩) := by
  have haborts : Aborts s (s.record ⟨i, .aborted source reason⟩) := Aborts.abort s source reason
  have hops : ∀ j, (s.record ⟨i, .aborted source reason⟩).operations j = s.operations j :=
    fun j => by rw [haborts.operations]
  have hfollows : FollowsAs s (s.abort source reason) :=
    FollowsAs.trans {} (FollowsAs.foldl _ (s.mark source reason))
  have habort : SignalInv (s.abort source reason) := by
    refine h.transfer hfollows.owner hfollows.callers (fun j => ?_) fun j => ?_
    · rw [(Aborts.listeners s source reason).operations]
      exact ⟨rfl, rfl⟩
    · exact (Aborts.listeners s source reason).aborted
  cases source with
  | session => exact habort
  | owner =>
    refine ⟨fun _ j hj => aborted_follows .owner reason ((hops j) ▸ hj), habort.callers⟩
  | caller caller =>
    refine ⟨habort.owner, fun c hc j hj hcaller => ?_⟩
    rw [hops] at hj hcaller
    by_cases hsame : c = caller
    · refine aborted_follows (.caller caller) reason ?_
      show ((s.operations j).begun && decide ((s.operations j).caller = some caller)) = true
      rw [hj, hcaller, hsame, Bool.true_and]
      exact decide_eq_true rfl
    · refine haborts.aborted (h.callers c ?_ j hj hcaller)
      have hold : (if c = caller then ((s.abort (.caller caller) reason).callers c).or (some reason)
        else (s.abort (.caller caller) reason).callers c) ≠ none := hc
      rw [if_neg hsame, hfollows.callers] at hold
      exact hold

theorem SignalInv.record (h : SignalInv s) (hpermits : Permits config s ⟨i, action⟩) :
    SignalInv (s.record ⟨i, action⟩) := by
  cases action with
  | began caller => exact h.began caller
  | left result =>
    obtain ⟨d, -, -, hrecord⟩ := record_left hpermits
    have hfollows : FollowsAs s ((s.release i d result).abandon d) :=
      FollowsAs.trans {} (FollowsAs.abandon _ d)
    rw [hrecord]
    refine h.transfer hfollows.owner hfollows.callers (fun j => ?_) fun j hj => ?_
    · rw [(Aborts.abandon _ d).operations]
      exact ⟨rfl, rfl⟩
    · exact (Aborts.abandon _ d).aborted hj
  | aborted source reason => exact h.aborted source reason
  | _ =>
    exact h.transfer rfl rfl (fun j => ⟨record_part Operation.begun (fun _ => rfl) i j,
      record_part Operation.caller (fun _ => rfl) i j⟩) fun _ hj => hj

theorem SharingInv.record (h : SharingInv [] s) (hpermits : Permits config s ⟨i, action⟩) :
    SharingInv [] (s.record ⟨i, action⟩) := by
  cases action with
  | began caller => exact h.began hpermits.1 hpermits.2.1
  | opened => exact h.opened hpermits.1 hpermits.2.1 hpermits.2.2.1 hpermits.2.2.2.2
  | joined d => exact h.enter hpermits.1.toCurrent hpermits.2.1 hpermits.2.2.1 hpermits.2.2.2
  | left result =>
    obtain ⟨d, hwait, -, -⟩ := record_left hpermits
    have hwaiting : (s.waits i).isWaiting = true := by
      rw [hwait]
      rfl
    exact SharingInv.leave (h.weaken fun j hj _ _ => absurd hj List.not_mem_nil) result hwaiting
  | settled result => exact h.settled result
  | aborted source reason =>
    have habort := h.abort source reason
    cases source with
    | owner | session => exact habort.transfer {}
    | caller caller => exact habort.transfer {}
  | loggedOut =>
    exact h.forget rfl rfl rfl rfl rfl rfl (Nat.le_succ _) (fun _ => rfl) hpermits
  | disposed =>
    exact { h with current := nofun,
                   generations := fun j => Nat.le_succ_of_le (h.generations j) }
  | forgot =>
    exact h.forget rfl rfl rfl rfl rfl rfl (Nat.le_refl _) h.current hpermits.2
  | _ => exact h.transfer (.record fun _ => ⟨rfl, rfl, rfl, rfl⟩)

theorem QueueInv.transfer (h : QueueInv s) (hmutations : s'.mutations = s.mutations)
    (hmutating : s'.mutating = s.mutating)
    (hops : ∀ j, (s'.operations j).mutation = (s.operations j).mutation) : QueueInv s' where
  nodup := hmutations ▸ h.nodup
  members j := by
    rw [hmutations, hops]
    exact h.members j
  storing j hj := by
    rw [hmutations, hmutating]
    exact h.storing j (hops j ▸ hj)
  mutating hm := by
    obtain ⟨j, hj⟩ := h.mutating (hmutating ▸ hm)
    exact ⟨j, (hops j).trans hj⟩

theorem QueueInv.queued (h : QueueInv s) (hnone : (s.operations i).mutation = .none)
    (hself : (s'.operations i).mutation = .queued)
    (hother : ∀ j, j ≠ i → s'.operations j = s.operations j)
    (hmutations : s'.mutations = s.mutations ++ [i]) (hmutating : s'.mutating = s.mutating) :
    QueueInv s' := by
  have hnew : i ∉ s.mutations := by
    rw [h.members, hnone]
    exact fun hmem => hmem.elim nofun nofun
  refine { nodup := ?_, members := fun j => ?_, storing := fun j hj => ?_, mutating := fun hm => ?_ }
  · rw [hmutations]
    refine List.nodup_append.mpr ⟨h.nodup, List.nodup_singleton i, fun j hj k hk => ?_⟩
    rintro rfl
    exact hnew (List.mem_singleton.mp hk ▸ hj)
  · rw [hmutations, List.mem_append, List.mem_singleton, h.members]
    by_cases hj : j = i
    · subst hj
      rw [hself]
      exact ⟨fun _ => .inl rfl, fun _ => .inr rfl⟩
    · rw [hother j hj]
      exact ⟨fun hmem => hmem.resolve_right hj, .inl⟩
  · have hne : j ≠ i := by
      rintro rfl
      rw [hself] at hj
      cases hj
    rw [hother j hne] at hj
    obtain ⟨hhead, hm⟩ := h.storing j hj
    refine ⟨?_, hmutating.trans hm⟩
    rw [hmutations, List.head?_append, hhead, Option.some_or]
  · obtain ⟨j, hj⟩ := h.mutating (hmutating ▸ hm)
    have hne : j ≠ i := by
      rintro rfl
      rw [hnone] at hj
      cases hj
    exact ⟨j, by rw [hother j hne, hj]⟩

theorem QueueInv.started (h : QueueInv s) (hturn : HasTurn s i)
    (hself : (s'.operations i).mutation = .storing)
    (hother : ∀ j, j ≠ i → s'.operations j = s.operations j)
    (hmutations : s'.mutations = s.mutations) (hmutating : s'.mutating = true) : QueueInv s' := by
  have hidle : ∀ j, (s.operations j).mutation ≠ .storing := by
    intro j hj
    have hm := (h.storing j hj).2
    rw [hturn.rest] at hm
    cases hm
  refine { nodup := hmutations ▸ h.nodup, members := fun j => ?_, storing := fun j hj => ?_,
           mutating := fun _ => ⟨i, hself⟩ }
  · rw [hmutations, h.members]
    by_cases hj : j = i
    · subst hj
      rw [hself, hturn.queued]
      exact ⟨fun _ => .inr rfl, fun _ => .inl rfl⟩
    · rw [hother j hj]
  · by_cases hne : j = i
    · rw [hmutations, hne]
      exact ⟨hturn.head, hmutating⟩
    · rw [hother j hne] at hj
      exact absurd hj (hidle j)

theorem QueueInv.mutated (h : QueueInv s) (hhead : s.mutations.head? = some i) {stored : Bool}
    (hself : (s'.operations i).mutation = .settled stored)
    (hother : ∀ j, j ≠ i → s'.operations j = s.operations j)
    (hmutations : s'.mutations = s.mutations.tail) (hmutating : s'.mutating = false) :
    QueueInv s' := by
  obtain ⟨later, hlater⟩ : ∃ later, s.mutations = i :: later := by
    cases hqueue : s.mutations with
    | nil =>
      rw [hqueue] at hhead
      cases hhead
    | cons j later =>
      rw [hqueue] at hhead
      exact ⟨later, by rw [Option.some.inj hhead]⟩
  have hnodup := h.nodup
  rw [hlater, List.nodup_cons] at hnodup
  -- only the first mutation can be one that the store is at work on
  have hidle : ∀ j, j ≠ i → (s.operations j).mutation ≠ .storing := by
    intro j hj hstoring
    have hfirst := (h.storing j hstoring).1
    rw [hhead, Option.some.injEq] at hfirst
    exact hj hfirst.symm
  have htail : s'.mutations = later := by rw [hmutations, hlater, List.tail_cons]
  refine { nodup := htail ▸ hnodup.2, members := fun j => ?_, storing := fun j hj => ?_,
           mutating := fun hm => ?_ }
  · rw [htail]
    by_cases hj : j = i
    · subst hj
      rw [hself]
      exact ⟨fun hmem => absurd hmem hnodup.1, fun hmem => hmem.elim nofun nofun⟩
    · rw [hother j hj, ← h.members, hlater, List.mem_cons]
      exact ⟨.inr, fun hmem => hmem.resolve_left hj⟩
  · have hne : j ≠ i := by
      rintro rfl
      rw [hself] at hj
      cases hj
    rw [hother j hne] at hj
    exact absurd hj (hidle j hne)
  · rw [hmutating] at hm
    cases hm

theorem QueueInv.record (h : QueueInv s) (hpermits : Permits config s ⟨i, action⟩) :
    QueueInv (s.record ⟨i, action⟩) := by
  have hself := record_self s i action
  have hother : ∀ j, j ≠ i → (s.record ⟨i, action⟩).operations j = s.operations j :=
    fun j hj => record_ne s action hj
  cases action with
  | saveQueued =>
    exact h.queued (MayQueue.fresh hpermits) (congrArg Operation.mutation hself) hother rfl rfl
  | clearQueued => exact h.queued hpermits.1 (congrArg Operation.mutation hself) hother rfl rfl
  | saveStarted credential =>
    exact h.started hpermits.2.1 (congrArg Operation.mutation hself) hother rfl rfl
  | clearStarted => exact h.started hpermits (congrArg Operation.mutation hself) hother rfl rfl
  | mutated result =>
    exact h.mutated hpermits.1 (congrArg Operation.mutation hself) hother rfl rfl
  | left result =>
    obtain ⟨d, -, -, hrecord⟩ := record_left hpermits
    rw [hrecord]
    refine h.transfer (Aborts.abandon _ d).mutations (Aborts.abandon _ d).mutating fun j => ?_
    rw [(Aborts.abandon _ d).operations]
    rfl
  | aborted source reason =>
    have haborts : Aborts s (s.record ⟨i, .aborted source reason⟩) := Aborts.abort s source reason
    exact h.transfer haborts.mutations haborts.mutating fun j => by rw [haborts.operations]
  | _ => exact h.transfer rfl rfl (record_part Operation.mutation (fun _ => rfl) i)

theorem CursorInv.transfer (h : CursorInv s) (hbindings : s'.cursorBindings = s.cursorBindings)
    (hissued : s'.issued = s.issued) (hepoch : s'.epoch = s.epoch)
    (hops : ∀ j, (s'.operations j).epoch = (s.operations j).epoch ∧
      (s'.operations j).bindings = (s.operations j).bindings) : CursorInv s' where
  bound cursor binding := by
    rw [Session.cursorBinding?, hbindings, hissued]
    exact h.bound cursor binding
  issued cursor binding := by
    rw [Session.cursorBinding?, hbindings, hissued]
    exact h.issued cursor binding
  epochs j := by
    rw [(hops j).1, hepoch]
    exact h.epochs j
  begun j := by
    rw [(hops j).1, (hops j).2, hepoch, hissued]
    exact h.begun j

-- Bindings that are cleared are those of another time.
theorem CursorInv.unbind (h : CursorInv s) (hbindings : s'.cursorBindings = [])
    (hissued : s'.issued = []) (hepoch : s'.epoch = s.epoch + 1)
    (hops : s'.operations = s.operations) : CursorInv s' where
  bound cursor binding hfound := by
    rw [Session.cursorBinding?, hbindings] at hfound
    cases hfound
  issued cursor binding hmem := by
    rw [hissued] at hmem
    cases hmem
  epochs j := by
    rw [hops, hepoch]
    exact Nat.le_succ_of_le (h.epochs j)
  begun j hj := by
    have hle := h.epochs j
    rw [hops, hepoch] at hj
    omega

theorem CursorInv.began (h : CursorInv s) (caller : Option Nat) :
    CursorInv (s.record ⟨i, .began caller⟩) where
  bound := h.bound
  issued := h.issued
  epochs j := by
    rw [record_operations]
    split
    · exact Nat.le_refl _
    · exact h.epochs j
  begun j := by
    rw [record_operations]
    split
    · exact fun _ query hquery => hquery
    · exact h.begun j

theorem find_filter_ne {l : List (JsString × JsString)} {cursor other : JsString}
    (h : other ≠ cursor) :
    (l.filter (·.1 ≠ cursor)).find? (·.1 = other) = l.find? (·.1 = other) := by
  rw [List.find?_filter]
  congr 1
  funext entry
  by_cases hentry : entry.1 = other
  · simp [hentry, h]
  · simp [hentry]

theorem CursorInv.cursorBound (h : CursorInv s) (cursor binding : JsString) :
    CursorInv (s.record ⟨i, .cursorBound cursor binding⟩) := by
  have hself : (s.record ⟨i, .cursorBound cursor binding⟩).cursorBinding? cursor = some binding := by
    exact congrArg (Option.map _) (List.find?_cons_of_pos (by simp))
  have hother : ∀ other, other ≠ cursor →
      (s.record ⟨i, .cursorBound cursor binding⟩).cursorBinding? other =
        s.cursorBinding? other := by
    intro other hne
    refine congrArg (Option.map _) ((List.find?_cons_of_neg ?_).trans (find_filter_ne hne))
    simpa using Ne.symm hne
  refine { bound := fun other value hfound => ?_, issued := fun other value hmem => ?_,
           epochs := fun j => ?_, begun := fun j hj query hquery => ?_ }
  · by_cases heq : other = cursor
    · subst heq
      rw [hself, Option.some.injEq] at hfound
      rw [hfound]
      exact List.mem_cons_self
    · rw [hother other heq] at hfound
      exact List.mem_cons_of_mem _ (h.bound other value hfound)
  · by_cases heq : other = cursor
    · rw [heq, hself]
      exact nofun
    · rw [hother other heq]
      refine h.issued other value ((List.mem_cons.mp hmem).resolve_left fun hpair => ?_)
      exact heq (congrArg Prod.fst hpair)
  · have hepoch : ((s.record ⟨i, .cursorBound cursor binding⟩).operations j).epoch =
        (s.operations j).epoch := record_part Operation.epoch (fun _ => rfl) i j
    rw [hepoch]
    exact h.epochs j
  · have hepoch : ((s.record ⟨i, .cursorBound cursor binding⟩).operations j).epoch =
        (s.operations j).epoch := record_part Operation.epoch (fun _ => rfl) i j
    have hbindings : ((s.record ⟨i, .cursorBound cursor binding⟩).operations j).bindings =
        (s.operations j).bindings := record_part Operation.bindings (fun _ => rfl) i j
    rw [hepoch] at hj
    rw [hbindings] at hquery
    exact List.mem_cons_of_mem _ (h.begun j hj query hquery)

theorem CursorInv.record (h : CursorInv s) (hpermits : Permits config s ⟨i, action⟩) :
    CursorInv (s.record ⟨i, action⟩) := by
  cases action with
  | began caller => exact h.began caller
  | published | invalidated | loggedOut | forgot => exact h.unbind rfl rfl rfl rfl
  | cursorBound cursor binding => exact h.cursorBound cursor binding
  | left result =>
    obtain ⟨d, -, -, hrecord⟩ := record_left hpermits
    rw [hrecord]
    refine h.transfer (Aborts.abandon _ d).cursorBindings (Aborts.abandon _ d).issued
      (Aborts.abandon _ d).epoch fun j => ?_
    rw [(Aborts.abandon _ d).operations]
    exact ⟨rfl, rfl⟩
  | aborted source reason =>
    have haborts : Aborts s (s.record ⟨i, .aborted source reason⟩) := Aborts.abort s source reason
    exact h.transfer haborts.cursorBindings haborts.issued haborts.epoch fun j => by
      rw [haborts.operations]
      exact ⟨rfl, rfl⟩
  | _ =>
    exact h.transfer rfl rfl rfl fun j => ⟨record_part Operation.epoch (fun _ => rfl) i j,
      record_part Operation.bindings (fun _ => rfl) i j⟩

theorem Inv.record (h : Inv config s) (hpermits : Permits config s ⟨i, action⟩) :
    Inv config (s.record ⟨i, action⟩) :=
  ⟨h.identity.record h.sharing hpermits, h.signals.record hpermits, h.sharing.record hpermits,
    h.queue.record hpermits, h.cursors.record hpermits⟩

/-! ## What an action leaves to the others -/

theorem Keeps.record (hpermits : Permits config s ⟨i, action⟩) (hne : i ≠ j) :
    Keeps j s (s.record ⟨i, action⟩) := by
  have hop : (s.record ⟨i, action⟩).operations j = s.operations j := record_ne s action hne.symm
  have hfetched : ∀ p statuses (decode : JsString → Except Thrown HubDiscovery) d,
      Fetched (s.operations p) .discovery statuses decode d →
        Fetched ((s.record ⟨i, action⟩).operations p) .discovery statuses decode d :=
    fun p statuses decode d h => h.record hpermits
  have hresult : (∀ result, action ≠ .settled result) → ∀ p result,
      (s.operations p).result = some result →
        ((s.record ⟨i, action⟩).operations p).result = some result := by
    intro hsettled p result hp
    rw [record_operations]
    split
    · cases action with
      | settled found => exact absurd rfl (hsettled found)
      | _ => exact hp
    · exact hp
  cases action with
  | began caller =>
    exact { operation := hop, fetched := hfetched, result := hresult nofun,
            reason := fun reason hreason => (if_neg hne.symm).trans hreason }
  | joined d =>
    exact { operation := hop, fetched := hfetched, result := hresult nofun,
            wait := .inl (if_neg hne.symm) }
  | left result =>
    obtain ⟨d, -, -, hrecord⟩ := record_left hpermits
    have haborts := Aborts.abandon (s.release i d result) d
    rw [hrecord] at hop hfetched hresult ⊢
    refine { operation := hop, fetched := hfetched, result := hresult nofun,
             reason := haborts.reasons j, wait := .inl ?_,
             generation := Nat.le_of_eq haborts.generation.symm,
             disposed := fun h => haborts.disposed.trans h,
             head := fun h => (congrArg _ haborts.mutations).trans h,
             epoch := Nat.le_of_eq haborts.epoch.symm,
             issued := fun _ query h => haborts.issued ▸ h,
             published := fun _ d h => haborts.published ▸ h }
    rw [abandon_waits]
    exact if_neg hne.symm
  | settled result =>
    refine { operation := hop, fetched := hfetched, result := fun p found hp => ?_ }
    rw [record_operations]
    split
    · next heq =>
      rw [heq, hpermits.1] at hp
      cases hp
    · exact hp
  | saveQueued | clearQueued =>
    refine { operation := hop, fetched := hfetched, result := hresult nofun, head := fun hhead => ?_ }
    have hmutations : (s.mutations ++ [i]).head? = some j := by
      rw [List.head?_append, hhead, Option.some_or]
    exact hmutations
  | mutated result =>
    refine { operation := hop, fetched := hfetched, result := hresult nofun, head := fun hhead => ?_ }
    rw [hpermits.1, Option.some.injEq] at hhead
    exact absurd hhead hne
  | cursorBound cursor binding =>
    exact { operation := hop, fetched := hfetched, result := hresult nofun,
            issued := fun _ query h => List.mem_cons_of_mem _ h }
  | published d =>
    exact { operation := hop, fetched := hfetched, result := hresult nofun, epoch := Nat.le_succ _,
            issued := fun h => absurd h (Nat.succ_ne_self _),
            published := fun _ _ h => List.mem_cons_of_mem d h }
  | invalidated | forgot =>
    exact { operation := hop, fetched := hfetched, result := hresult nofun, epoch := Nat.le_succ _,
            issued := fun h => absurd h (Nat.succ_ne_self _) }
  | loggedOut =>
    exact { operation := hop, fetched := hfetched, result := hresult nofun,
            generation := Nat.le_succ _,
            epoch := Nat.le_succ _, issued := fun h => absurd h (Nat.succ_ne_self _),
            published := fun h => absurd h (Nat.succ_ne_self _) }
  | disposed =>
    exact { operation := hop, fetched := hfetched, result := hresult nofun,
            generation := Nat.le_succ _,
            disposed := fun _ => rfl }
  | aborted source reason =>
    have haborts : Aborts s (s.record ⟨i, .aborted source reason⟩) := Aborts.abort s source reason
    exact { operation := hop, fetched := hfetched, result := hresult nofun,
            reason := haborts.reasons j,
            wait := haborts.waits j, generation := Nat.le_of_eq haborts.generation.symm,
            disposed := fun h => haborts.disposed.trans h,
            head := fun h => (congrArg _ haborts.mutations).trans h,
            epoch := Nat.le_of_eq haborts.epoch.symm,
            issued := fun _ query h => haborts.issued ▸ h,
            published := fun _ d h => haborts.published ▸ h }
  | _ => exact { operation := hop, fetched := hfetched, result := hresult nofun }

theorem Keeps.trans {s'' : Session} (h : Keeps i s s') (h' : Keeps i s' s'') : Keeps i s s'' where
  operation := h'.operation.trans h.operation
  reason reason hreason := h'.reason reason (h.reason reason hreason)
  wait := by
    rcases h.wait with hsame | ⟨d, reason, hwaiting, hleft⟩
    · rcases h'.wait with hsame' | ⟨d, reason, hwaiting, hleft⟩
      · exact .inl (hsame'.trans hsame)
      · exact .inr ⟨d, reason, hsame ▸ hwaiting, hleft⟩
    · rcases h'.wait with hsame' | ⟨d', reason', hwaiting', -⟩
      · exact .inr ⟨d, reason, hwaiting, hsame'.trans hleft⟩
      · rw [hleft] at hwaiting'
        cases hwaiting'
  generation := Nat.le_trans h.generation h'.generation
  disposed hdisposed := h'.disposed (h.disposed hdisposed)
  result p result hp := h'.result p result (h.result p result hp)
  head hhead := h'.head (h.head hhead)
  epoch := Nat.le_trans h.epoch h'.epoch
  issued hepoch query hquery := by
    have hle := h.epoch
    have hle' := h'.epoch
    exact h'.issued (by omega) query (h.issued (by omega) query hquery)
  fetched p statuses decode d hd := h'.fetched p statuses decode d (h.fetched p statuses decode d hd)
  published hgeneration d hd := by
    have hle := h.generation
    have hle' := h'.generation
    exact h'.published (by omega) d (h.published (by omega) d hd)

/-! ## The logic -/

theorem inv_initial (config : HubConfig) (start : HubStart) :
    Inv config (hubSystem config start).initial where
  identity :=
    { published := nofun, discovery := nofun, results := nofun, left := nofun, admitted := nofun,
      pending := nofun, together := nofun }
  signals := ⟨fun h => absurd rfl h, fun _ h => absurd rfl h⟩
  sharing :=
    { listening := fun _ => ⟨nofun, nofun⟩, nodup := List.nodup_nil, counted := fun _ => rfl,
      unaborted := nofun, joined := nofun, apart := nofun, pending := nofun, live := nofun,
      begun := nofun, current := fun _ => rfl,
      generations := fun _ => Nat.le_refl _ }
  queue :=
    { nodup := List.nodup_nil, members := fun _ => ⟨nofun, fun h => h.elim nofun nofun⟩,
      storing := nofun, mutating := nofun }
  cursors :=
    { bound := nofun, issued := nofun, epochs := fun _ => Nat.le_refl _, begun := nofun }

/-- A thread that has not begun has done nothing, and waits for nothing. -/
def hubLogic (config : HubConfig) (start : HubStart) : Logic (hubSystem config start) where
  permits := Permits config
  actor event := event.thread
  Inv := Inv config
  Keeps := Keeps
  Fresh s i := s.operations i = {} ∧ s.waits i = .none
  Parked _ _ _ _ := True
  Halted _ _ := True
  inv_initial := inv_initial config start
  inv_record h hpermits := h.record hpermits
  keeps_refl _ _ := { fetched := fun _ _ _ _ h => h }
  keeps_trans h h' := h.trans h'
  keeps_record _ hpermits hne := .record hpermits hne
  fresh_initial _ := ⟨rfl, rfl⟩
  fresh_keeps h hfresh := by
    refine ⟨h.operation.trans hfresh.1, ?_⟩
    rcases h.wait with hsame | ⟨d, reason, hwaiting, -⟩
    · exact hsame.trans hfresh.2
    · rw [hfresh.2] at hwaiting
      cases hwaiting
  parked_keeps _ _ := trivial
  halted_keeps _ _ := trivial

end Preservation

end Hub
