import TeslatlasSdk.Hub.SessionResults

/-!
# Reads of drives

A cursor goes back to the query of the page that has returned it.  A page is one of its query, and
drives that are not modified are what the hub says of the tag that it has been asked with.
-/

open Text Core Http

namespace Hub

/-! ## Cursors -/

/-- A vehicle, and what is asked of its drives. -/
abbrev DrivesQuery : Type := JsString × HubDrivesOptions

def HubRoute.query? : HubRoute → Option DrivesQuery
  | .drives vehicleId options => some (vehicleId, options)
  | _ => none

structure CursorRecord where
  /-- The query that it has sent. -/
  sent : Option DrivesQuery := none
  /-- The cursors that pages had returned when it began, and since when these are kept. -/
  known : List (JsString × DrivesQuery) := []
  epoch : Nat := 0

structure Cursors where
  /-- The cursors that pages have returned since a document was last published or taken away, or the
  session has ended, each with the query of its page. -/
  returned : List (JsString × DrivesQuery) := []
  /-- How often that has been. -/
  epoch : Nat := 0
  records : Nat → CursorRecord := fun _ => {}

namespace Cursors

def record (c : Cursors) (event : HubEvent) : Cursors :=
  let i := event.thread
  match event.action with
  | .began _ =>
      { c with records := addTo c.records i ({ · with known := c.returned, epoch := c.epoch }) }
  | .dispatched route _ => { c with records := addTo c.records i ({ · with sent := route.query? }) }
  | .cursorBound cursor _ =>
      { c with returned := ((c.records i).sent.map fun query => (cursor, query)).toList ++ c.returned }
  | .published _ | .invalidated | .loggedOut | .forgot => { c with returned := [], epoch := c.epoch + 1 }
  | _ => c

/-- A cursor that some page had returned before an operation began is sent with the query of such a
page alone. -/
def Permits (c : Cursors) (event : HubEvent) : Prop :=
  let r := c.records event.thread
  match event.action with
  | .dispatched (.drives vehicleId options) _ =>
      ∀ cursor, options.cursor = some cursor → r.epoch = c.epoch → cursor ∈ r.known.map (·.1) →
        ∃ query, (cursor, query) ∈ c.returned ∧ SameQuery query.1 query.2 vehicleId options
  | .cursorBound _ binding =>
      ∃ query, r.sent = some query ∧ binding = cursorBinding query.1 query.2.fromMs query.2.toMs
  | _ => True

def monitor : Monitor Cursors HubEvent where
  initial := {}
  record := record
  permits := Permits

end Cursors

/-- What a cursor is bound to. -/
def bindingOf (entry : JsString × DrivesQuery) : JsString × JsString :=
  (entry.1, cursorBinding entry.2.1 entry.2.2.fromMs entry.2.2.toMs)

def WellReturned (entries : List (JsString × DrivesQuery)) : Prop :=
  ∀ entry ∈ entries, (HubRoute.drives entry.2.1 entry.2.2).WellAsked

/-- The record of an operation is true of it. -/
structure Recalls (x : Operation) (r : CursorRecord) : Prop where
  sent : r.sent = x.sent.bind HubRoute.query?
  known : x.bindings = r.known.map bindingOf
  epoch : r.epoch = x.epoch

/-- The bindings of a session are those of the cursors that pages have returned. -/
structure Returns (s : Session) (c : Cursors) : Prop where
  issued : s.issued = c.returned.map bindingOf
  asked : WellReturned c.returned
  epoch : c.epoch = s.epoch
  records : ∀ i, Recalls (s.operations i) (c.records i)

section Cursors

variable {config : HubConfig} {s s' : Session} {c : Cursors} {i : Nat} {action : HubAction}

theorem Returns.transfer (h : Returns s c) (hissued : s'.issued = s.issued)
    (hepoch : s'.epoch = s.epoch)
    (hops : ∀ j, (s'.operations j).sent = (s.operations j).sent ∧
      (s'.operations j).bindings = (s.operations j).bindings ∧
      (s'.operations j).epoch = (s.operations j).epoch) : Returns s' c where
  issued := hissued.trans h.issued
  asked := h.asked
  epoch := h.epoch.trans hepoch.symm
  records j := by
    obtain ⟨hsent, hbindings, hsince⟩ := hops j
    refine ⟨?_, hbindings.trans (h.records j).known, (h.records j).epoch.trans hsince.symm⟩
    rw [hsent]
    exact (h.records j).sent

-- Bindings that are cleared are those of no page.
theorem Returns.unbind (h : Returns s c) (hissued : s'.issued = [])
    (hepoch : s'.epoch = s.epoch + 1) (hops : s'.operations = s.operations) :
    Returns s' { c with returned := [], epoch := c.epoch + 1 } where
  issued := hissued
  asked := nofun
  epoch := by rw [hepoch, ← h.epoch]
  records j := by
    rw [hops]
    exact h.records j

theorem Returns.bound (h : Returns s c) {cursor binding : JsString}
    (hbind : MayBind s i cursor binding) :
    Returns (s.record ⟨i, .cursorBound cursor binding⟩) (c.record ⟨i, .cursorBound cursor binding⟩) := by
  obtain ⟨vehicleId, options, hsent, hasked, rfl⟩ := hbind.query
  have hrecord : (c.records i).sent = some (vehicleId, options) := by
    rw [(h.records i).sent, hsent]
    rfl
  have hreturned : (c.record ⟨i, .cursorBound cursor
      (cursorBinding vehicleId options.fromMs options.toMs)⟩).returned =
        (cursor, vehicleId, options) :: c.returned := by
    show ((c.records i).sent.map fun query => (cursor, query)).toList ++ c.returned = _
    rw [hrecord]
    rfl
  refine { issued := ?_, asked := fun entry hentry => ?_, epoch := h.epoch, records := fun j => ?_ }
  · rw [hreturned, List.map_cons, ← h.issued]
    rfl
  · rw [hreturned, List.mem_cons] at hentry
    rcases hentry with rfl | hold
    · exact hasked
    · exact h.asked entry hold
  · have hsame := h.records j
    exact ⟨hsame.sent.trans (congrArg (·.bind HubRoute.query?)
        (record_part Operation.sent (fun _ => rfl) i j).symm),
      (record_part Operation.bindings (fun _ => rfl) i j).trans hsame.known,
      hsame.epoch.trans (record_part Operation.epoch (fun _ => rfl) i j).symm⟩

theorem Returns.record (h : Returns s c) (hpermits : Permits config s ⟨i, action⟩) :
    Returns (s.record ⟨i, action⟩) (c.record ⟨i, action⟩) := by
  cases action with
  | began caller =>
    refine { issued := h.issued, asked := h.asked, epoch := h.epoch, records := ?_ }
    refine records_kept s i (.began caller) c.records
      ({ · with known := c.returned, epoch := c.epoch }) ⟨?_, h.issued, h.epoch⟩ h.records
    exact (h.records i).sent
  | dispatched route authorization =>
    refine { issued := h.issued, asked := h.asked, epoch := h.epoch, records := ?_ }
    exact records_kept s i (.dispatched route authorization) c.records
      ({ · with sent := route.query? }) ⟨rfl, (h.records i).known, (h.records i).epoch⟩ h.records
  | cursorBound cursor binding => exact h.bound hpermits
  | published | invalidated | loggedOut | forgot => exact h.unbind rfl rfl rfl
  | left result =>
    obtain ⟨d, -, -, hrecord⟩ := record_left hpermits
    rw [hrecord]
    refine h.transfer (Aborts.abandon _ d).issued (Aborts.abandon _ d).epoch fun j => ?_
    rw [(Aborts.abandon _ d).operations]
    exact ⟨rfl, rfl, rfl⟩
  | aborted source reason =>
    have haborts : Aborts s (s.record ⟨i, .aborted source reason⟩) := Aborts.abort s source reason
    exact h.transfer haborts.issued haborts.epoch fun j => by
      rw [haborts.operations]
      exact ⟨rfl, rfl, rfl⟩
  | _ =>
    exact h.transfer rfl rfl fun j => ⟨record_part Operation.sent (fun _ => rfl) i j,
      record_part Operation.bindings (fun _ => rfl) i j,
      record_part Operation.epoch (fun _ => rfl) i j⟩

-- The key that a cursor is bound to is that of a page's query.
theorem Returns.query (h : Returns s c) {vehicleId cursor : JsString} {options : HubDrivesOptions}
    (hasked : (HubRoute.drives vehicleId options).WellAsked)
    (hmem : (cursor, cursorBinding vehicleId options.fromMs options.toMs) ∈ s.issued) :
    ∃ query, (cursor, query) ∈ c.returned ∧ SameQuery query.1 query.2 vehicleId options := by
  rw [h.issued] at hmem
  obtain ⟨⟨found, query⟩, hentry, hbinding⟩ := List.mem_map.mp hmem
  obtain ⟨rfl, hkey⟩ := Prod.mk.inj hbinding
  exact ⟨query, hentry, (cursorBinding_eq_iff (h.asked _ hentry) hasked).mp hkey⟩

theorem Returns.permits (h : Returns s c) (hpermits : Permits config s ⟨i, action⟩) :
    c.Permits ⟨i, action⟩ := by
  cases action with
  | dispatched route authorization =>
    cases route with
    | drives vehicleId options =>
      intro cursor hcursor hepoch hmem
      have hrecord := h.records i
      have hasked : (HubRoute.drives vehicleId options).WellAsked := hpermits.asked
      refine h.query hasked (hpermits.cursor
        (cursor, cursorBinding vehicleId options.fromMs options.toMs) ?_ ?_ ?_)
      · show options.cursor.map _ = _
        rw [hcursor]
        rfl
      · exact hrecord.epoch.symm.trans (hepoch.trans h.epoch)
      · obtain ⟨entry, hentry, rfl⟩ := List.mem_map.mp hmem
        rw [hrecord.known]
        exact List.mem_map.mpr ⟨_, List.mem_map_of_mem hentry, rfl⟩
    | _ => exact trivial
  | cursorBound cursor binding =>
    obtain ⟨vehicleId, options, hsent, -, hbinding⟩ := hpermits.query
    refine ⟨(vehicleId, options), ?_, hbinding⟩
    rw [(h.records i).sent, hsent]
    rfl
  | _ => exact trivial

-- A query that every page with the cursor has answered is not refused for its binding.
theorem Returns.accepts (h : Returns s c) (hcursors : CursorInv s) {vehicleId cursor : JsString}
    {options : HubDrivesOptions} (hasked : (HubRoute.drives vehicleId options).WellAsked)
    (hsame : ∀ query, (cursor, query) ∈ c.returned →
      SameQuery query.1 query.2 vehicleId options) :
    requireCursorBinding s (some cursor) (cursorBinding vehicleId options.fromMs options.toMs) =
      .ok () := by
  rw [requireCursorBinding, Option.bind_some]
  cases hbound : s.cursorBinding? cursor with
  | none => rfl
  | some binding =>
    have hissued := hcursors.bound cursor binding hbound
    rw [h.issued] at hissued
    obtain ⟨⟨found, query⟩, hentry, hbinding⟩ := List.mem_map.mp hissued
    obtain ⟨rfl, hkey⟩ := Prod.mk.inj hbinding
    have hquery := (cursorBinding_eq_iff (h.asked _ hentry) hasked).mpr (hsame query hentry)
    simp only [← hkey, hquery, if_true]

end Cursors

-- Cursors stay with the queries of the pages that have returned them, in every run and at its end.
theorem cursors_returned (config : HubConfig) (start : HubStart)
    (inputs : List (SystemInput (Answer HubCredential) HubCall)) :
    Cursors.monitor.Permitted {} ((hubSystem config start).machine.run inputs).2 ∧
      ∀ vehicleId options cursor, (HubRoute.drives vehicleId options).WellAsked →
        (∀ query, (cursor, query) ∈
            (Cursors.monitor.after {} ((hubSystem config start).machine.run inputs).2).returned →
          SameQuery query.1 query.2 vehicleId options) →
        requireCursorBinding ((hubSystem config start).machine.run inputs).1.state (some cursor)
          (cursorBinding vehicleId options.fromMs options.toMs) = .ok () := by
  obtain ⟨hpermitted, hsane, hstate⟩ := session_follows config start inputs
  have hinitial : Returns (hubSystem config start).initial {} :=
    ⟨rfl, nofun, rfl, fun _ => ⟨rfl, rfl, rfl⟩⟩
  have hstep : ∀ s c event, Inv config s ∧ Returns s c → Permits config s event →
      c.Permits event ∧ Inv config (s.record event) ∧ Returns (s.record event) (c.record event) :=
    fun s c event h hpermits =>
      ⟨h.2.permits hpermits, h.1.record hpermits, h.2.record hpermits⟩
  obtain ⟨hreturned, hinv, hlast⟩ := hpermitted.simulate Cursors.monitor
    (R := fun s c => Inv config s ∧ Returns s c) ⟨inv_initial config start, hinitial⟩ hstep
  refine ⟨hreturned, fun vehicleId options cursor hasked hsame => ?_⟩
  rw [hstate]
  exact hlast.accepts hinv.cursors hasked hsame

/-! ## Results -/

/-- Drives are those that the query has asked for: the request has been sent with the options of the
call, the pages have the law of their query and bind their cursors, and no call that fails does. -/
def PageRule (config : HubConfig) (action : HubAction) (x : Operation) : Prop :=
  match action with
  | .finished call (.ok (.drives (.page value _))) =>
      ∃ vehicleId options, call = .drives vehicleId options ∧ Paged config x vehicleId options value
  | .finished _ (.error _) => x.bound = none
  | _ => True

theorem drives_pages (config : HubConfig) (start : HubStart)
    (inputs : List (SystemInput (Answer HubCredential) HubCall)) :
    (rulesOf start (PageRule config)).Permitted (rulesOf start (PageRule config)).initial
      ((hubSystem config start).machine.run inputs).2 := by
  refine rules_kept config start (fun s i action hpermits => ?_) inputs
  cases action with
  | finished call result =>
    cases result with
    | error e => exact Finishes.unbound hpermits e rfl
    | ok found =>
      have hrests := Finishes.rests hpermits found rfl
      cases found with
      | drives result =>
        cases result with
        | page value metadata => exact hrests
        | notModified metadata => exact trivial
      | _ => exact trivial
  | _ => exact trivial

/-- Drives are not modified if the hub has answered a request for the caller's tag with a status of
304, the very same tag and no bytes. -/
def UnmodifiedRule (action : HubAction) (x : Operation) : Prop :=
  match action with
  | .finished call (.ok (.drives (.notModified _))) =>
      ∃ vehicleId options, call = .drives vehicleId options ∧ Unmodified x vehicleId options
  | .finished _ (.ok (.drives (.page _ _))) => ∀ response, x.response = some response →
      response.status ≠ 304
  | _ => True

theorem drives_unmodified (config : HubConfig) (start : HubStart)
    (inputs : List (SystemInput (Answer HubCredential) HubCall)) :
    (rulesOf start UnmodifiedRule).Permitted (rulesOf start UnmodifiedRule).initial
      ((hubSystem config start).machine.run inputs).2 := by
  refine rules_kept config start (fun s i action hpermits => ?_) inputs
  cases action with
  | finished call result =>
    cases result with
    | error e => exact trivial
    | ok found =>
      have hrests := Finishes.rests hpermits found rfl
      cases found with
      | drives result =>
        cases result with
        | page value metadata =>
          obtain ⟨vehicleId, options, -, hpaged⟩ := hrests
          obtain ⟨found, hfound, hstatus, -⟩ := hpaged.fetched.response
          intro response hresponse
          obtain rfl : found = response := Option.some.inj (hfound.symm.trans hresponse)
          rw [List.mem_singleton.mp hstatus]
          decide
        | notModified metadata => exact hrests
      | _ => exact trivial
  | _ => exact trivial

end Hub
