import TeslatlasSdk.Events.ProtocolSubscription
import TeslatlasSdk.Http.NumericLexemes

/-!
# The decoder of the typed event stream

What `decodeProtocolEvent` has checked of an event that it delivers, and what it throws.
-/

open Text Core Json Http

namespace Events

/-- A payload's own revision or, without one, that of its deletion audit. -/
inductive CarriesRevision (data : Value) : Value → Prop where
  | own {revision : Value} (h : data.child (js "revision") = some revision) :
      CarriesRevision data revision
  | tombstone {audit deletion : List (JsString × Value)} {revision : Value}
      (hnone : data.child (js "revision") = none)
      (haudit : data.child (js "audit") = some (.object audit))
      (hdeletion : JsonTree.child (.object audit) (js "deletion") = some (.object deletion))
      (h : JsonTree.child (.object deletion) (js "revision") = some revision) :
      CarriesRevision data revision

theorem asRecord_eq_some {part : Option Value} {record : Value} :
    asRecord part = some record ↔ ∃ members, record = .object members ∧ part = some record := by
  constructor
  · intro h
    unfold asRecord at h
    split at h
    · next members =>
      rw [Option.some.injEq] at h
      exact ⟨members, h.symm, congrArg some h⟩
    · simp at h
  · rintro ⟨members, rfl, rfl⟩
    rfl

theorem eventRevision_eq_some {data revision : Value} :
    eventRevision data = some revision ↔ CarriesRevision data revision := by
  constructor
  · intro h
    unfold eventRevision at h
    split at h
    · next hown =>
      rw [Option.some.injEq] at h
      exact .own (h ▸ hown)
    · next hnone =>
      split at h
      · simp at h
      · next audit haudit =>
        split at h
        · simp at h
        · next deletion hdeletion =>
          obtain ⟨members, rfl, haudit⟩ := asRecord_eq_some.mp haudit
          obtain ⟨inner, rfl, hdeletion⟩ := asRecord_eq_some.mp hdeletion
          exact .tombstone hnone haudit hdeletion h
  · intro h
    cases h with
    | own h => simp [eventRevision, h]
    | tombstone hnone haudit hdeletion h =>
      simp [eventRevision, hnone, haudit, asRecord, hdeletion, h]

/-- A part of the payload, where there is one, is the envelope's. -/
def Agrees (envelope part : Option Value) : Prop :=
  ∀ value, part = some value → strictEquals envelope (some value) = true

theorem agrees_iff {envelope part : Option Value} :
    Agrees envelope part ↔ (part.isSome && !strictEquals envelope part) = false := by
  cases part with
  | none => simp [Agrees]
  | some value => simp [Agrees]

/-- What has been checked of a delivered event. -/
structure Delivers (o : StreamEventsOptions) (event : SseEvent) (value : Value) : Prop where
  introduced : ∃ introducedIn, eventIntroducedIn event.event = some introducedIn ∧
    compareProfiles introducedIn o.protocolVersion ≤ 0
  valid : ∃ lexemes, parseProtocolJson event.data "validateEvent.json" = .ok (value, lexemes) ∧
    o.validateEvent value lexemes = true
  eventId : value.child (js "event_id") = some (.leaf (.string event.lastEventId))
  eventType : value.child (js "event_type") = some (.leaf (.string event.event))
  data : ∃ members, value.child (js "data") = some (.object members) ∧
    (∀ revision, CarriesRevision (.object members) revision →
      strictEquals (value.child (js "revision")) (some revision) = true) ∧
    Agrees (value.child (js "vehicle_id")) (JsonTree.child (.object members) (js "vehicle_id")) ∧
    ∀ field, resourceIdentifierField.lookup event.event = some field →
      Agrees (value.child (js "resource_id")) (JsonTree.child (.object members) field)

theorem strictEquals_string {part : Option Value} {s : JsString} :
    strictEquals part (some (.leaf (.string s))) = true ↔ part = some (.leaf (.string s)) := by
  cases part with
  | none => simp [strictEquals]
  | some value =>
    cases value with
    | leaf x => cases x <;> simp [strictEquals]
    | array items => simp [strictEquals]
    | object members => simp [strictEquals]

theorem strictEquals_string_false {part : Option Value} {s : JsString}
    (h : part ≠ some (.leaf (.string s))) :
    strictEquals part (some (.leaf (.string s))) = false := by
  rw [← Bool.not_eq_true, strictEquals_string]
  exact h

-- Only null has no properties to ask for.
theorem property_of_child {value part : Value} {key : JsString} (h : value.child key = some part)
    (other : JsString) : property value other = .ok (value.child other) := by
  cases value with
  | leaf x => simp [JsonTree.child, JsonTree.entries, lastMember] at h
  | array items => rfl
  | object members => rfl

theorem property_eq_ok {value : Value} {key : JsString} {part : Option Value}
    (h : property value key = .ok part) : value.child key = part := by
  unfold property at h
  split at h
  · simp at h
  · simpa using h

-- Every name of the catalogue has a resource field.
theorem lookup_resourceIdentifierField {name : JsString} {introducedIn : SupportedProtocolVersion}
    (h : eventIntroducedIn name = some introducedIn) :
    ∃ field, resourceIdentifierField.lookup name = some field := by
  have hall : ∀ entry ∈ protocolEventCatalog,
      (resourceIdentifierField.lookup entry.1).isSome = true := by decide
  have hmem : (name, introducedIn) ∈ protocolEventCatalog := by
    obtain ⟨before, after, heq, -⟩ := List.lookup_eq_some_iff.mp h
    rw [heq]
    simp
  exact Option.isSome_iff_exists.mp (hall _ hmem)

-- The checks of the payload, for an envelope of a known type.
theorem assertEventSemantics_eq_ok {event : Value} {name field : JsString}
    (htype : event.child (js "event_type") = some (.leaf (.string name)))
    (hfield : resourceIdentifierField.lookup name = some field) :
    assertEventSemantics event = .ok () ↔
      ∃ members, event.child (js "data") = some (.object members) ∧
        Agrees (event.child (js "revision")) (eventRevision (.object members)) ∧
        Agrees (event.child (js "vehicle_id")) (JsonTree.child (.object members) (js "vehicle_id")) ∧
        Agrees (event.child (js "resource_id")) (JsonTree.child (.object members) field) := by
  unfold assertEventSemantics
  simp only [bind, Except.bind, throw, throwThe, MonadExceptOf.throw, property_of_child htype, htype,
    hfield, Option.getD_some]
  cases hdata : asRecord (event.child (js "data")) with
  | none =>
    simp only [reduceCtorEq, false_iff]
    rintro ⟨members, hmembers, -⟩
    rw [hmembers] at hdata
    simp [asRecord] at hdata
  | some data =>
    obtain ⟨members, rfl, hchild⟩ := asRecord_eq_some.mp hdata
    simp only [agrees_iff, hchild, Option.some.injEq, JsonTree.object.injEq, exists_eq_left']
    split
    · simp_all
    split
    · simp_all
    split
    · simp_all
    · simp_all [pure, Except.pure]

-- Whether the numbers visited are finite does not depend on the mirror.
theorem finite_visits {path : Path} {value : Value} {mirror : Option Value} :
    (∀ v ∈ visits path value mirror, v.2.1.isFinite = true) ↔
      ∀ x, (∃ place, (place, .number x) ∈ value.leaves) → x.isFinite = true := by
  constructor
  · rintro h x ⟨place, hmem⟩
    exact h (path ++ place, x, mirror.bind fun m => m.get place)
      (List.mem_filterMap.mpr ⟨(place, .number x), hmem, rfl⟩)
  · intro h v hv
    obtain ⟨⟨place, s⟩, hmem, hv⟩ := List.mem_filterMap.mp hv
    cases s with
    | number x =>
      simp only [visitOfLeaf, Option.some.injEq] at hv
      subst hv
      exact h x ⟨place, hmem⟩
    | null | boolean | string => simp [visitOfLeaf] at hv

theorem assertFiniteNumbers_of_parse {source : JsString} {name other : String} {value : Value}
    {lexemes : NumericLexemes} (h : parseProtocolJson source name = .ok (value, lexemes)) :
    assertFiniteNumbers value other = .ok () := by
  have hall : ∀ v ∈ visits [] value none, v.2.1.isFinite = true := by
    cases hparse : parse source with
    | none => rw [parseProtocolJson_of_not_parse hparse] at h; simp at h
    | some tree =>
      rw [parseProtocolJson_of_parse hparse] at h
      split at h
      · next hfinite =>
        simp only [Except.ok.injEq, Prod.mk.injEq] at h
        rw [← h.1]
        exact finite_visits.mpr (finite_visits.mp hfinite)
      · simp at h
  rw [assertFiniteNumbers, visitJson_eq]
  revert hall
  generalize visits [] value none = vs
  intro hall
  induction vs with
  | nil => rfl
  | cons v vs ih =>
    obtain ⟨path, x, lexical⟩ := v
    have hx : x.isFinite = true := hall (path, x, lexical) List.mem_cons_self
    rw [visitAll]
    simp only [hx]
    exact ih fun v hv => hall v (List.mem_cons_of_mem _ hv)

-- The envelope is checked after its schema: its id, its type, then its payload.
theorem decodeProtocolEvent_eq_some {o : StreamEventsOptions} {event : SseEvent} {value : Value} :
    decodeProtocolEvent o.validateEvent event o.protocolVersion = .ok (some value) ↔
      Delivers o event value := by
  unfold decodeProtocolEvent
  split
  · next hunknown =>
    simp only [Except.ok.injEq, reduceCtorEq, false_iff]
    intro h
    obtain ⟨_, h, -⟩ := h.introduced
    simp [hunknown] at h
  next introducedIn hknown =>
  split
  · next hlate =>
    simp only [reduceCtorEq, false_iff]
    intro h
    obtain ⟨_, h, hle⟩ := h.introduced
    rw [hknown, Option.some.injEq] at h
    subst h
    omega
  next hlate =>
  split
  · next hparse =>
    simp only [reduceCtorEq, false_iff]
    intro h
    obtain ⟨_, h, -⟩ := h.valid
    simp [hparse] at h
  next rawValue lexemes hparse =>
  have hraw : Delivers o event value → value = rawValue ∧ o.validateEvent rawValue lexemes = true := by
    intro h
    obtain ⟨_, h, hvalid⟩ := h.valid
    simp only [hparse, Except.ok.injEq, Prod.mk.injEq] at h
    obtain ⟨rfl, rfl⟩ := h
    exact ⟨rfl, hvalid⟩
  obtain ⟨field, hfield⟩ := lookup_resourceIdentifierField hknown
  simp only [decodeProtocolValue, assertFiniteNumbers_of_parse hparse, bind, Except.bind, throw,
    throwThe, MonadExceptOf.throw, pure, Except.pure]
  by_cases hvalid : o.validateEvent rawValue lexemes = true
  swap
  · rw [if_pos (by simp [hvalid])]
    exact ⟨fun h => by simp at h, fun h => absurd (hraw h).2 hvalid⟩
  rw [if_neg (by simp [hvalid])]
  by_cases hid : rawValue.child (js "event_id") = some (.leaf (.string event.lastEventId))
  swap
  · constructor
    · intro h
      cases hp : property rawValue (js "event_id") with
      | error e => simp [hp] at h
      | ok part =>
        rw [property_eq_ok hp] at hid
        simp [hp, strictEquals_string_false hid] at h
    · intro h
      obtain ⟨rfl, -⟩ := hraw h
      exact absurd h.eventId hid
  simp only [property_of_child hid, strictEquals_string.mpr hid]
  by_cases htype : rawValue.child (js "event_type") = some (.leaf (.string event.event))
  swap
  · constructor
    · intro h
      simp [strictEquals_string_false htype] at h
    · intro h
      obtain ⟨rfl, -⟩ := hraw h
      exact absurd h.eventType htype
  simp only [strictEquals_string.mpr htype]
  constructor
  · intro h
    cases hdata : assertEventSemantics rawValue with
    | error e => simp [hdata] at h
    | ok u =>
      simp only [hdata, Bool.not_true, Bool.false_eq_true, if_false, Except.ok.injEq,
        Option.some.injEq] at h
      subst h
      obtain ⟨members, hmembers, hrevision, hvehicle, hresource⟩ :=
        (assertEventSemantics_eq_ok htype hfield).mp hdata
      refine ⟨⟨introducedIn, hknown, by omega⟩, ⟨lexemes, hparse, hvalid⟩, hid, htype, members,
        hmembers, fun revision hcarries => ?_, hvehicle, fun other hother => ?_⟩
      · exact hrevision revision (eventRevision_eq_some.mpr hcarries)
      · rw [hfield, Option.some.injEq] at hother
        exact hother ▸ hresource
  · intro h
    obtain ⟨rfl, -⟩ := hraw h
    obtain ⟨members, hmembers, hrevision, hvehicle, hresource⟩ := h.data
    have hdata : assertEventSemantics value = .ok () :=
      (assertEventSemantics_eq_ok htype hfield).mpr ⟨members, hmembers,
        fun revision hcarries => hrevision revision (eventRevision_eq_some.mp hcarries), hvehicle,
        hresource field hfield⟩
    simp [hdata]

theorem decodeProtocolEvent_eq_none {validateEvent : ProtocolValidator} {event : SseEvent}
    {protocolVersion : SupportedProtocolVersion} :
    decodeProtocolEvent validateEvent event protocolVersion = .ok none ↔
      eventIntroducedIn event.event = none := by
  constructor
  · intro h
    unfold decodeProtocolEvent at h
    split at h
    · assumption
    split at h
    · simp at h
    split at h
    · simp at h
    · simp only [bind, Except.bind, throw, throwThe, MonadExceptOf.throw, pure, Except.pure] at h
      grind
  · intro h
    simp [decodeProtocolEvent, h]

/-! ## Rejections -/

/-- What the decoder throws. -/
def IsRejection (error : Thrown) : Prop :=
  error = typeError ∨ ∃ validator, error = protocolValidationError validator

/-- A computation that throws nothing else. -/
def Rejects {α : Type} (result : Except Thrown α) : Prop :=
  ∀ error, result = .error error → IsRejection error

theorem Rejects.bind {α β : Type} {first : Except Thrown α} {next : α → Except Thrown β}
    (hfirst : Rejects first) (hnext : ∀ a, Rejects (next a)) : Rejects (first >>= next) := by
  cases first with
  | error e => exact fun error h => hfirst error (by simpa [Bind.bind, Except.bind] using h)
  | ok a => exact hnext a

theorem rejects_ok {α : Type} (a : α) : Rejects (.ok a : Except Thrown α) := fun _ h => by simp at h

theorem rejects_validation {α : Type} (validator : String) :
    Rejects (throw (protocolValidationError validator) : Except Thrown α) :=
  fun _ h => .inr ⟨validator, (Except.error.inj h).symm⟩

theorem property_rejects (value : Value) (key : JsString) : Rejects (property value key) := by
  unfold property
  split
  · exact fun _ h => .inl (Except.error.inj h).symm
  · exact rejects_ok _

-- A check that throws, before the rest.
theorem rejects_check {α : Type} {c : Prop} [Decidable c] {validator : String}
    {rest : Unit → Except Thrown α} (h : Rejects (rest ())) :
    Rejects (if c then throw (protocolValidationError validator) >>= rest else rest ()) := by
  split
  · exact (rejects_validation _).bind fun _ => h
  · exact h

-- The last check.
theorem rejects_guard {c : Prop} [Decidable c] {validator : String} :
    Rejects (if c then throw (protocolValidationError validator) else pure () : Except Thrown Unit) := by
  split
  · exact rejects_validation _
  · exact rejects_ok _

theorem assertEventSemantics_rejects (event : Value) : Rejects (assertEventSemantics event) := by
  unfold assertEventSemantics
  apply (property_rejects _ _).bind
  intro data
  split
  · exact rejects_validation _
  apply (property_rejects _ _).bind
  intro revision
  apply rejects_check
  apply (property_rejects _ _).bind
  intro vehicleId
  apply rejects_check
  apply (property_rejects _ _).bind
  intro eventType
  apply (property_rejects _ _).bind
  intro resourceId
  exact rejects_guard

theorem decodeProtocolEvent_rejects (validateEvent : ProtocolValidator) (event : SseEvent)
    (protocolVersion : SupportedProtocolVersion) :
    Rejects (decodeProtocolEvent validateEvent event protocolVersion) := by
  unfold decodeProtocolEvent
  split
  · exact rejects_ok _
  split
  · exact rejects_validation _
  split
  · exact rejects_validation _
  next hparse =>
  refine Rejects.bind ?_ fun value => ?_
  · unfold decodeProtocolValue
    rw [assertFiniteNumbers_of_parse hparse]
    simp only
    split
    · exact rejects_validation _
    · exact rejects_ok _
  apply (property_rejects _ _).bind
  intro eventId
  apply rejects_check
  apply (property_rejects _ _).bind
  intro eventType
  apply rejects_check
  exact (assertEventSemantics_rejects _).bind fun _ => rejects_ok _

end Events
