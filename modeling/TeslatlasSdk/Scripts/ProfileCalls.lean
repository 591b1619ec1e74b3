import TeslatlasSdk.Scripts.ProfileInvariant

/-!
# The calls of the profile script

What a thread may say of the state around a call of the system, and around the functions that only
look at paths.
-/

open Text Core

namespace FirefoxProfile

section Triples

variable {env : Environment} {options : ProfileOptions} {i : Nat}

/-! ## Actions and calls -/

theorem triple_act {P W : ProfileState → Prop} {action : ProfileAction}
    (h : ∀ s, Inv s → P s → Permits s ⟨i, action⟩ ∧ Guards s ⟨i, action⟩ ∧
      W (s.record ⟨i, action⟩)) :
    (profileLogic env options).Triple i P (act i action) fun r s => r = .ok () ∧ W s := by
  refine .perform rfl fun s hinv hs => ?_
  obtain ⟨hpermits, hguards, hw⟩ := h s hinv hs
  exact ⟨⟨hpermits, hguards⟩, rfl, hw⟩

theorem act_bind {β : Type} {P W : ProfileState → Prop} {action : ProfileAction}
    {f : Unit → ProfileAsync β} {R : Except Failure β → ProfileState → Prop}
    (h : ∀ s, Inv s → P s → Permits s ⟨i, action⟩ ∧ Guards s ⟨i, action⟩ ∧
      W (s.record ⟨i, action⟩))
    (hf : (profileLogic env options).Triple i W (f ()) R) :
    (profileLogic env options).Triple i P (act i action >>= f) R := by
  refine .perform_bind rfl (fun s hinv hs => ?_) hf
  obtain ⟨hpermits, hguards, hw⟩ := h s hinv hs
  exact ⟨⟨hpermits, hguards⟩, hw⟩

theorem reported {s : ProfileState} (h : s.results i = none) : Reported s i :=
  fun hne => absurd h hne

-- The calls are made, and answered in some later state.
theorem triple_callAll {P W : ProfileState → Prop} {calls : List SystemCall}
    {Q : Except Failure (List SystemValue) → ProfileState → Prop}
    (hcalled : ∀ s, Inv s → P s → Permits s ⟨i, .called calls⟩ ∧ Guards s ⟨i, .called calls⟩ ∧
      W (s.recordCalled calls))
    (hstable : (profileLogic env options).Stable i W) (hresults : ∀ s, W s → s.results i = none)
    (hanswered : ∀ s result, Inv s → W s → answeredBy calls result = true →
      Guards s ⟨i, .answered calls result⟩ ∧ Q result (s.recordAnswered i calls result)) :
    (profileLogic env options).Triple i P (callAll i calls) Q := by
  refine act_bind hcalled ?_
  refine .bind (Q := fun r s => ∃ result, r = .ok (.settled result) ∧ W s ∧
      answeredBy calls result = true) (.await (fun s _ _ hs => reported (hresults s hs)) ?_) ?_ ?_
  · intro s s' answer hs hkeeps _ haccepts
    cases answer with
    | tick => cases haccepts
    | settled result => exact ⟨result, rfl, hstable s s' hkeeps hs, haccepts⟩
  · intro answer
    cases answer with
    | tick =>
      intro fresh s k _ _ _ hp _
      obtain ⟨result, hresult, -⟩ := hp
      cases hresult
    | settled result =>
      refine act_bind (W := Q result) (fun s hinv hs => ?_) (.ofExcept fun s hs => hs)
      obtain ⟨other, hresult, hw, hfits⟩ := hs
      obtain rfl : result = other := ProfileAnswer.settled.inj (Except.ok.inj hresult)
      obtain ⟨hguards, hq⟩ := hanswered s result hinv hw hfits
      exact ⟨trivial, hguards, hq⟩
  · rintro e s ⟨result, hresult, -⟩
    cases hresult

/-- Calls that only look, or whose effects the rules do not speak about. -/
structure Plain (calls : List SystemCall) : Prop where
  removes : removes calls = false := by rfl
  closes : closes calls = false := by rfl
  launches : launches calls = false := by rfl
  makes : makes calls = false := by rfl
  operation : calls.contains .operation = false := by rfl

/-- What is found is added to what a thread has found. -/
def ProfileState.grow (s : ProfileState) (i : Nat) (entries : List (JsString × FileStat)) :
    ProfileState :=
  { s with found := update s.found i (s.found i ++ entries) }

theorem Plain.recordCalled {calls : List SystemCall} (h : Plain calls) (s : ProfileState) :
    s.recordCalled calls = s := by
  rw [ProfileState.recordCalled, h.removes, h.closes, h.launches]
  simp only [Bool.or_false]

theorem madeBy_eq_none {calls : List SystemCall} (h : makes calls = false)
    (result : Except Failure (List SystemValue)) : madeBy calls result = none := by
  unfold madeBy
  split
  · rw [h, if_neg Bool.false_ne_true]
  · rfl

theorem update_eq_self {β : Type} (table : Nat → β) (i : Nat) : update table i (table i) = table := by
  funext j
  by_cases h : j = i
  · rw [h, update_self]
  · exact update_ne _ _ h

theorem Plain.recordAnswered {calls : List SystemCall} (h : Plain calls) (s : ProfileState)
    (result : Except Failure (List SystemValue)) :
    s.recordAnswered i calls result = s.grow i (foundBy calls result) := by
  rw [ProfileState.recordAnswered, h.removes, h.closes, h.makes, madeBy_eq_none h.makes,
    operationFailure_eq_none h.operation]
  simp only [Bool.not_false, Bool.and_true, Bool.false_and, Bool.or_false, Option.none_or,
    update_eq_self, if_neg Bool.false_ne_true]
  rfl

/-- An assertion that plain calls of a thread leave as it is. -/
structure Calm (env : Environment) (options : ProfileOptions) (i : Nat) (A : ProfileState → Prop) :
    Prop where
  stable : (profileLogic env options).Stable i A
  gone : ∀ s, Inv s → A s → s.gone = false
  results : ∀ s, A s → s.results i = none
  grow : ∀ s entries, A s → A (s.grow i entries)

variable {A : ProfileState → Prop}

theorem mem_grow {s : ProfileState} {entries : List (JsString × FileStat)}
    {entry : JsString × FileStat} :
    entry ∈ (s.grow i entries).found i ↔ entry ∈ s.found i ∨ entry ∈ entries := by
  show entry ∈ update s.found i (s.found i ++ entries) i ↔ _
  rw [update_self, List.mem_append]

theorem Calm.callAll (h : Calm env options i A) {calls : List SystemCall} (hplain : Plain calls) :
    (profileLogic env options).Triple i A (callAll i calls) fun r s =>
      A s ∧ ∀ entry ∈ foundBy calls r, entry ∈ s.found i := by
  refine triple_callAll (W := A) (fun s hinv hs => ?_) h.stable h.results fun s result _ hs _ => ?_
  · refine ⟨⟨h.gone s hinv hs, fun htrue => ?_, fun htrue => ?_⟩, fun htrue => ?_, ?_⟩
    · rw [hplain.removes] at htrue
      cases htrue
    · rw [hplain.closes] at htrue
      cases htrue
    · rw [hplain.launches] at htrue
      cases htrue
    · rw [hplain.recordCalled]
      exact hs
  · refine ⟨⟨fun htrue => ?_, fun htrue => ?_, fun htrue => ?_⟩, ?_⟩
    · rw [hplain.removes] at htrue
      cases htrue
    · rw [hplain.closes] at htrue
      cases htrue
    · rw [hplain.operation] at htrue
      cases htrue
    · rw [hplain.recordAnswered]
      exact ⟨h.grow s _ hs, fun entry hentry => mem_grow.mpr (.inr hentry)⟩

theorem Calm.command (h : Calm env options i A) {call : SystemCall} (hplain : Plain [call]) :
    (profileLogic env options).Triple i A (command i call) fun _ => A :=
  .bind ((h.callAll hplain).weaken (fun _ hs => hs) fun _ _ hs => hs.1)
    (fun _ => .pure fun _ hs => hs) fun _ _ hs => hs

theorem Calm.resolvePath (h : Calm env options i A) (path : JsString) :
    (profileLogic env options).Triple i A (resolvePath i path) fun _ => A := by
  refine .bind (Q := fun _ => A) ((h.callAll {}).weaken (fun _ hs => hs) fun _ _ hs => hs.1)
    (fun values => ?_) fun _ _ hs => hs
  split
  · exact .pure fun _ hs => hs
  · exact .throw fun _ hs => hs

theorem Calm.readStat (h : Calm env options i A) (path : JsString) :
    (profileLogic env options).Triple i A (readStat i path) fun r s =>
      A s ∧ ∀ stat, r = .ok stat → (path, stat) ∈ s.found i := by
  refine .bind (h.callAll {}) (fun values => ?_) ?_
  · split
    · next stat =>
      refine .pure fun s hs => ⟨hs.1, fun other hother => ?_⟩
      obtain rfl := Except.ok.inj hother
      exact hs.2 _ (List.mem_singleton.mpr rfl)
    · exact .throw fun s hs => ⟨hs.1, fun _ hother => nomatch hother⟩
  · exact fun e s hs => ⟨hs.1, fun _ hother => nomatch hother⟩

theorem Calm.inspect (h : Calm env options i A) (path : JsString) :
    (profileLogic env options).Triple i A (inspect i path) fun r s =>
      A s ∧ ∀ found, r = .ok found → (path, found.2) ∈ s.found i := by
  refine .bind (h.callAll {}) (fun values => ?_) ?_
  · split
    · next canonical stat =>
      refine .pure fun s hs => ⟨hs.1, fun other hother => ?_⟩
      obtain rfl := Except.ok.inj hother
      exact hs.2 _ (List.mem_singleton.mpr rfl)
    · exact .throw fun s hs => ⟨hs.1, fun _ hother => nomatch hother⟩
  · exact fun e s hs => ⟨hs.1, fun _ hother => nomatch hother⟩

theorem Calm.requireOwnerOnlyPath (h : Calm env options i A) (path label : JsString)
    (kind : PathKind) :
    (profileLogic env options).Triple i A (requireOwnerOnlyPath env i path label kind)
      fun _ => A := by
  refine .ite (fun _ => ?_) fun _ => .throw fun _ hs => hs
  exact .bind (Q := fun _ => A) ((h.inspect path).weaken (fun _ hs => hs) fun _ _ hs => hs.1)
    (fun _ => .ofExcept fun _ hs => hs) fun _ _ hs => hs

end Triples

end FirefoxProfile
