import TeslatlasSdk.Events.SseResume
import Mathlib.Data.List.DropRight

/-!
# The id of a resumption, as the `Headers` object holds it

`Headers.set` strips blanks around a value.  An id that has been committed is a byte string without
control characters, so that the only blank it can begin or end with is a space.
-/

open Text Core

namespace Events

/-! ## `Headers.set` -/

/-- Tab, LF, CR and space. -/
def isHeaderBlank (u : CodeUnit) : Bool := u = 0x09 || u = 0x0A || u = 0x0D || u = 0x20

/-- What `Headers.set` makes of a byte string. -/
def normalizeHeaderValue (value : JsString) : JsString :=
  (value.dropWhile isHeaderBlank).rdropWhile isHeaderBlank

theorem length_rdropWhile_le {α : Type} (p : α → Bool) (xs : List α) :
    (xs.rdropWhile p).length ≤ xs.length := by
  have h := (List.dropWhile_suffix (p := p) (l := xs.reverse)).length_le
  simpa [List.rdropWhile] using h

theorem normalizeHeaderValue_eq_self_iff (value : JsString) :
    normalizeHeaderValue value = value ↔
      (∀ u, value.head? = some u → isHeaderBlank u = false) ∧
        ∀ u, value.getLast? = some u → isHeaderBlank u = false := by
  constructor
  · intro h
    have hdrop : value.dropWhile isHeaderBlank = value := by
      have hle := length_rdropWhile_le isHeaderBlank (value.dropWhile isHeaderBlank)
      have hlength : (normalizeHeaderValue value).length = value.length := congrArg List.length h
      rw [normalizeHeaderValue] at hlength
      have hsuffix := List.dropWhile_suffix (p := isHeaderBlank) (l := value)
      exact hsuffix.eq_of_length (le_antisymm hsuffix.length_le (by omega))
    rw [normalizeHeaderValue, hdrop] at h
    constructor
    · intro u hu
      have hpos : 0 < value.length := by
        cases value with
        | nil => simp at hu
        | cons v value => exact Nat.succ_pos _
      have hfirst := List.dropWhile_eq_self_iff.mp hdrop hpos
      cases value with
      | nil => simp at hu
      | cons v value =>
        simp only [List.head?_cons, Option.some.injEq] at hu
        subst hu
        simpa using hfirst
    · intro u hu
      have hne : value ≠ [] := by
        rintro rfl
        simp at hu
      have hlast := List.rdropWhile_eq_self_iff.mp h hne
      rw [List.getLast?_eq_some_getLast hne, Option.some.injEq] at hu
      rw [hu] at hlast
      simpa using hlast
  · rintro ⟨hhead, hlast⟩
    have hdrop : value.dropWhile isHeaderBlank = value := by
      cases value with
      | nil => rfl
      | cons v value => simp [hhead v rfl]
    rw [normalizeHeaderValue, hdrop, List.rdropWhile_eq_self_iff]
    intro hne
    simp [hlast _ (List.getLast?_eq_some_getLast hne)]

/-! ## Resumptions -/

/-- The `Last-Event-ID` that the `Headers` object of a connection holds. -/
def heldHeader (lastEventId : Option JsString) : Option JsString :=
  lastEventId.map normalizeHeaderValue

/-- The connections of a log, each with the item that was committed last before it. -/
def resumptions {Event : Type} (committed : Option SseStreamItem) :
    List (SubscriptionAction Event) → List (SseStreamItem × Option JsString)
  | [] => []
  | .commit item :: log => resumptions (some item) log
  | .loaded _ :: log => resumptions none log
  | .connect lastEventId :: log =>
      committed.toList.map (·, lastEventId) ++ resumptions committed log
  | _ :: log => resumptions committed log

/-- The header holds the id, and is there unless the id is empty. -/
def Resumes (id : JsString) (header : Option JsString) : Prop :=
  header = if id.isEmpty then none else some id

/-- The id begins or ends with a space. -/
def HasOuterSpace (id : JsString) : Prop := id.head? = some 0x20 ∨ id.getLast? = some 0x20

instance (id : JsString) (header : Option JsString) : Decidable (Resumes id header) :=
  inferInstanceAs (Decidable (_ = _))

/-- The header of a connection after a commit of the id. -/
def headerOfCommit (id : JsString) : Option JsString :=
  heldHeader (lastEventIdHeader (normalizeCheckpoint id))

-- No control character is in a valid id, so that of the blanks it can hold only spaces.
theorem isHeaderBlank_of_valid {id : JsString} (h : isValidCheckpoint id = true) {u : CodeUnit}
    (hu : u ∈ id) : isHeaderBlank u = true ↔ u = 0x20 := by
  have hcontrol : containsControlCharacters id = false := by
    simp only [isValidCheckpoint, Bool.and_eq_true, Bool.not_eq_true'] at h
    exact h.1.2
  have hnot := List.any_eq_false.mp hcontrol u hu
  simp only [Bool.or_eq_true, decide_eq_true_eq, not_or] at hnot
  constructor
  · intro hblank
    simp only [isHeaderBlank, Bool.or_eq_true, decide_eq_true_eq] at hblank
    rcases hblank with ((rfl | rfl) | rfl) | hspace
    · exact absurd (by decide) hnot.1
    · exact absurd (by decide) hnot.1
    · exact absurd (by decide) hnot.1
    · exact hspace
  · rintro rfl
    decide

theorem normalizeHeaderValue_valid_iff {id : JsString} (h : isValidCheckpoint id = true) :
    normalizeHeaderValue id = id ↔ ¬ HasOuterSpace id := by
  rw [normalizeHeaderValue_eq_self_iff, HasOuterSpace, not_or]
  have hfalse : ∀ u ∈ id, isHeaderBlank u = false ↔ u ≠ 0x20 := fun u hu => by
    rw [← Bool.not_eq_true, not_iff_not]
    exact isHeaderBlank_of_valid h hu
  constructor
  · rintro ⟨hhead, hlast⟩
    exact ⟨fun hs => (hfalse _ (List.mem_of_head? hs)).mp (hhead _ hs) rfl,
      fun hs => (hfalse _ (List.mem_of_getLast? hs)).mp (hlast _ hs) rfl⟩
  · rintro ⟨hhead, hlast⟩
    exact ⟨fun u hu => (hfalse u (List.mem_of_head? hu)).mpr fun heq => hhead (heq ▸ hu),
      fun u hu => (hfalse u (List.mem_of_getLast? hu)).mpr fun heq => hlast (heq ▸ hu)⟩

theorem resumes_headerOfCommit_iff {id : JsString} (h : isValidCheckpoint id = true) :
    Resumes id (headerOfCommit id) ↔ ¬ HasOuterSpace id := by
  rw [← normalizeHeaderValue_valid_iff h]
  cases id with
  | nil => simp [Resumes, headerOfCommit, normalizeCheckpoint, lastEventIdHeader, heldHeader,
      normalizeHeaderValue]
  | cons u id => simp [Resumes, headerOfCommit, normalizeCheckpoint, lastEventIdHeader, heldHeader]

theorem headerOfCommit_injective {id other : JsString} (hid : Resumes id (headerOfCommit id))
    (hother : Resumes other (headerOfCommit other))
    (h : headerOfCommit id = headerOfCommit other) : id = other := by
  rw [Resumes] at hid hother
  rw [hid, hother] at h
  cases id <;> cases other <;> simp_all

-- A connection after a commit sets the committed id.
theorem resumptions_permitted {Event : Type} {store : Bool} {l : Ledger Event}
    {log : List (SubscriptionAction Event)} (h : (Ledger.monitor store).Permitted l log)
    {committed : Option SseStreamItem}
    (hc : ∀ item, committed = some item → isValidCheckpoint item.lastEventId = true ∧
      l.committed = normalizeCheckpoint item.lastEventId) :
    ∀ r ∈ resumptions committed log, isValidCheckpoint r.1.lastEventId = true ∧
      heldHeader r.2 = headerOfCommit r.1.lastEventId := by
  induction log generalizing l committed with
  | nil => simp [resumptions]
  | cons a log ih =>
    obtain ⟨ha, hlog⟩ := h
    cases a with
    | commit item =>
      refine ih hlog fun other hother => ?_
      obtain rfl := Option.some.inj hother
      exact ⟨ha.2, rfl⟩
    | loaded id => exact ih hlog fun other hother => by simp at hother
    | connect id =>
      intro r hr
      rcases List.mem_append.mp hr with hr | hr
      · obtain ⟨item, hitem, rfl⟩ := List.mem_map.mp hr
        obtain ⟨hvalid, hcommitted⟩ := hc item (Option.mem_toList.mp hitem)
        refine ⟨hvalid, ?_⟩
        rw [headerOfCommit, ← hcommitted, ← ha.1]
      · exact ih hlog hc r hr
    | delivered item =>
      cases item with
      | event e => exact ih hlog hc
      | retry milliseconds => exact ih hlog hc
      | checkpoint id => exact ih hlog hc
    | _ => exact ih hlog hc

-- In every run, the connection after a commit resumes with the committed id exactly when that id
-- neither begins nor ends with a space; and such ids resume with different headers.
theorem subscribeToSse_headers {Event : Type} (o : SseSubscriptionOptions Event)
    (signal : AbortState) (inputs : List (SubscriptionInput Event)) :
    (∀ r ∈ resumptions none ((subscribeToSse o signal).run inputs).2,
      Resumes r.1.lastEventId (heldHeader r.2) ↔ ¬ HasOuterSpace r.1.lastEventId) ∧
    ∀ r ∈ resumptions none ((subscribeToSse o signal).run inputs).2,
      ∀ r' ∈ resumptions none ((subscribeToSse o signal).run inputs).2,
        ¬ HasOuterSpace r.1.lastEventId → ¬ HasOuterSpace r'.1.lastEventId →
          heldHeader r.2 = heldHeader r'.2 → r.1.lastEventId = r'.1.lastEventId := by
  have hnone : ∀ item, (none : Option SseStreamItem) = some item →
      isValidCheckpoint item.lastEventId = true ∧
        (none : Option JsString) = normalizeCheckpoint item.lastEventId := by
    intro item h
    cases h
  have hall := resumptions_permitted (subscribeToSse_permitted o signal inputs) hnone
  constructor
  · intro r hr
    obtain ⟨hvalid, hheld⟩ := hall r hr
    rw [hheld]
    exact resumes_headerOfCommit_iff hvalid
  · intro r hr r' hr' hspace hspace' heq
    obtain ⟨hvalid, hheld⟩ := hall r hr
    obtain ⟨hvalid', hheld'⟩ := hall r' hr'
    rw [hheld, hheld'] at heq
    exact headerOfCommit_injective ((resumes_headerOfCommit_iff hvalid).mpr hspace)
      ((resumes_headerOfCommit_iff hvalid').mpr hspace') heq

/-! A stream whose id begins with a space, after the one that the parser strips. -/

/-- A subscription to raw events, without a store. -/
def rawSubscription : SseSubscriptionOptions SseEvent where
  checkpoint := false
  reconnect := true
  responseClassifier := false
  rawEvent := some id
  protocolVersion := none
  minimumServerRetryMilliseconds := none
  maximumServerRetryMilliseconds := none

/-- `id:  a` and `data: x`. -/
def spacedIdBlock : List UInt8 :=
  [0x69, 0x64, 0x3A, 0x20, 0x20, 0x61, 0x0A, 0x64, 0x61, 0x74, 0x61, 0x3A, 0x20, 0x78, 0x0A, 0x0A]

/-- The event is yielded and acknowledged, the body ends and a second connection is opened. -/
def spacedIdInputs : List (SubscriptionInput SseEvent) :=
  [.request .next, .resume, .loaded (.ok .undefined),
    .responded (.ok { status := 200, contentType := some (js "text/event-stream"),
                      body := some false }),
    .read (.ok (some spacedIdBlock)), .tick, .request .next, .resume, .saved (.ok ()),
    .read (.ok none), .tick, .decided (.ok (some (.integer 0))), .slept (.ok ())]

-- The id is committed with its space, and the header of the next connection holds it without.
theorem subscribeToSse_drops_space : ∃ r ∈ resumptions none
      ((subscribeToSse rawSubscription none).run spacedIdInputs).2,
    r.1.lastEventId = js " a" ∧ heldHeader r.2 = some (js "a") ∧
      ¬ Resumes r.1.lastEventId (heldHeader r.2) := by
  have hrun : (resumptions none ((subscribeToSse rawSubscription none).run spacedIdInputs).2).map
      (fun r => (r.1.lastEventId, r.2)) = [(js " a", some (js " a"))] := by
    decide +kernel
  obtain ⟨r, hr, heq⟩ := List.exists_of_mem_map
    (hrun ▸ List.mem_singleton_self (js " a", some (js " a")))
  have hid : r.1.lastEventId = js " a" := congrArg Prod.fst heq
  have hheader : r.2 = some (js " a") := congrArg Prod.snd heq
  refine ⟨r, hr, hid, ?_, ?_⟩
  · rw [hheader]
    decide
  · rw [hid, hheader]
    decide

end Events
