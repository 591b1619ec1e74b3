import Mathlib.Data.List.Basic

/-!
# Scripts that may fail or die at every operation

A script is a sequence of operations on a state that outlives it, such as a file system.  What
becomes of an operation is decided outside: it is carried out, or it stops short, with an error or
with the whole process, and leaves something behind.  The rules say what holds when a script has
ended and wherever it may die.
-/

namespace Core

/-- Operations, with what they answer. -/
class Operations (ω : Type) where
  Answer : ω → Type

export Operations (Answer)

/-- Scripts over operations `ω` that throw `ε`. -/
inductive Script (ω : Type) [Operations ω] (ε β : Type) where
  | ended (result : Except ε β)
  | call (operation : ω) (next : Except ε (Answer operation) → Script ω ε β)

variable {ω ε β γ κ σ ρ : Type} [Operations ω]

namespace Script

/-- Go on when a script has ended, whichever way. -/
def resume : Script ω ε β → (Except ε β → Script ω ε γ) → Script ω ε γ
  | .ended result, k => k result
  | .call operation next, k => .call operation fun answer => (next answer).resume k

instance : Monad (Script ω ε) where
  pure b := .ended (.ok b)
  bind t f := t.resume fun
    | .ok b => f b
    | .error e => .ended (.error e)

instance : MonadExceptOf ε (Script ω ε) where
  throw e := .ended (.error e)
  tryCatch t handler := t.resume fun
    | .ok b => .ended (.ok b)
    | .error e => handler e

def operate (operation : ω) : Script ω ε (Answer operation) := .call operation .ended

/-- `try { t } finally { last }`. -/
def andFinally (t : Script ω ε β) (last : Script ω ε Unit) : Script ω ε β :=
  t.resume fun result => do
    last
    .ended result

def ofExcept (result : Except ε β) : Script ω ε β := .ended result

def each (body : κ → Script ω ε Unit) : List κ → Script ω ε Unit
  | [] => .ended (.ok ())
  | item :: items => do
      body item
      each body items

theorem resume_assoc (t : Script ω ε β) (k : Except ε β → Script ω ε γ)
    (k' : Except ε γ → Script ω ε κ) :
    (t.resume k).resume k' = t.resume fun result => (k result).resume k' := by
  induction t with
  | ended result => rfl
  | call operation next ih => exact congrArg (call operation) (funext fun answer => ih answer)

theorem bind_assoc (t : Script ω ε β) (f : β → Script ω ε γ) (g : γ → Script ω ε κ) :
    t >>= f >>= g = t >>= fun b => f b >>= g := by
  refine (resume_assoc t _ _).trans (congrArg t.resume (funext fun result => ?_))
  cases result with
  | ok b => rfl
  | error e => rfl

end Script

/-! ## Runs -/

/-- What operations do to a state. -/
structure Platform (ω : Type) [Operations ω] (ε σ ρ : Type) where
  perform : (operation : ω) → σ → Except ε (Answer operation × σ)
  /-- What is left by an operation that stops short. -/
  leave : ω → ρ → σ → σ
  fault : ε

/-- What becomes of an operation. -/
inductive Fate (ρ : Type) where
  | done
  | failed (left : ρ)
  | died (left : ρ)
  deriving DecidableEq, Repr

/-- An operation that has been begun. -/
structure Step (ω σ ρ : Type) where
  operation : ω
  fate : Fate ρ
  before : σ
  after : σ

/-- A state, with all that has been done to it. -/
structure Past (ω σ ρ : Type) where
  state : σ
  steps : List (Step ω σ ρ)

inductive Ending (ε β : Type) where
  | ended (result : Except ε β)
  | died
  deriving DecidableEq

structure Outcome (ω ε σ ρ β : Type) where
  ending : Ending ε β
  /-- The fates that have not been used. -/
  fates : List (Fate ρ)
  past : Past ω σ ρ

def Past.record (w : Past ω σ ρ) (operation : ω) (fate : Fate ρ) (after : σ) : Past ω σ ρ :=
  { state := after, steps := w.steps ++ [{ operation, fate, before := w.state, after }] }

/-- Run a script; without a fate an operation is carried out. -/
def Script.run (platform : Platform ω ε σ ρ) :
    Script ω ε β → List (Fate ρ) → Past ω σ ρ → Outcome ω ε σ ρ β
  | .ended result, fates, w => { ending := .ended result, fates, past := w }
  | .call operation next, fates, w =>
      match fates.headD .done with
      | .done =>
          match platform.perform operation w.state with
          | .ok (answer, s) =>
              (next (.ok answer)).run platform fates.tail (w.record operation .done s)
          | .error e =>
              (next (.error e)).run platform fates.tail (w.record operation .done w.state)
      | .failed left =>
          (next (.error platform.fault)).run platform fates.tail
            (w.record operation (.failed left) (platform.leave operation left w.state))
      | .died left =>
          { ending := .died, fates := fates.tail,
            past := w.record operation (.died left) (platform.leave operation left w.state) }

namespace Script

variable {platform : Platform ω ε σ ρ}

/-- A run of a script that another script goes on from. -/
def Outcome.continue (platform : Platform ω ε σ ρ) (k : Except ε β → Script ω ε γ)
    (outcome : Outcome ω ε σ ρ β) : Outcome ω ε σ ρ γ :=
  match outcome.ending with
  | .ended result => (k result).run platform outcome.fates outcome.past
  | .died => { ending := .died, fates := outcome.fates, past := outcome.past }

theorem run_resume (t : Script ω ε β) (k : Except ε β → Script ω ε γ) (fates : List (Fate ρ))
    (w : Past ω σ ρ) :
    (t.resume k).run platform fates w = Outcome.continue platform k (t.run platform fates w) := by
  induction t generalizing fates w with
  | ended result => rfl
  | call operation next ih =>
    simp only [resume, run]
    split
    · split
      · exact ih _ _ _
      · exact ih _ _ _
    · exact ih _ _ _
    · rfl

theorem run_bind (t : Script ω ε β) (f : β → Script ω ε γ) (fates : List (Fate ρ))
    (w : Past ω σ ρ) :
    (t >>= f).run platform fates w =
      match (t.run platform fates w).ending with
      | .ended (.ok b) => (f b).run platform (t.run platform fates w).fates
          (t.run platform fates w).past
      | .ended (.error e) => { ending := .ended (.error e), fates := (t.run platform fates w).fates,
                               past := (t.run platform fates w).past }
      | .died => { ending := .died, fates := (t.run platform fates w).fates,
                   past := (t.run platform fates w).past } := by
  refine (run_resume t _ fates w).trans ?_
  rw [Outcome.continue]
  cases (t.run platform fates w).ending with
  | ended result =>
    cases result with
    | ok b => rfl
    | error e => rfl
  | died => rfl

-- Steps are added to the past.
theorem run_steps (platform : Platform ω ε σ ρ) (t : Script ω ε β) (fates : List (Fate ρ))
    (w : Past ω σ ρ) :
    ∃ steps, (t.run platform fates w).past.steps = w.steps ++ steps := by
  induction t generalizing fates w with
  | ended result => exact ⟨[], (List.append_nil _).symm⟩
  | call operation next ih =>
    have hlater : ∀ fate s answer, ∃ steps,
        ((next answer).run platform fates.tail (w.record operation fate s)).past.steps =
          w.steps ++ steps := by
      intro fate s answer
      obtain ⟨steps, hsteps⟩ := ih answer fates.tail (w.record operation fate s)
      rw [hsteps, Past.record, List.append_assoc]
      exact ⟨_, rfl⟩
    rw [run]
    split
    · split
      · exact hlater _ _ _
      · exact hlater _ _ _
    · exact hlater _ _ _
    · exact ⟨_, rfl⟩

-- Where nothing goes wrong, each operation is carried out or refused, and the script ends.
theorem run_done (platform : Platform ω ε σ ρ) (t : Script ω ε β) {fates : List (Fate ρ)}
    (hfates : ∀ fate ∈ fates, fate = .done) (w : Past ω σ ρ) :
    (∃ result, (t.run platform fates w).ending = .ended result) ∧
      ∀ step ∈ (t.run platform fates w).past.steps.drop w.steps.length, step.fate = .done ∧
        ((∃ answer, platform.perform step.operation step.before = .ok (answer, step.after)) ∨
          (∃ e, platform.perform step.operation step.before = .error e) ∧
            step.after = step.before) := by
  induction t generalizing fates w with
  | ended result =>
    refine ⟨⟨result, rfl⟩, fun step hstep => ?_⟩
    rw [run, List.drop_length] at hstep
    cases hstep
  | call operation next ih =>
    have hhead : fates.headD .done = .done := by
      cases fates with
      | nil => rfl
      | cons fate fates => exact hfates fate List.mem_cons_self
    have htail : ∀ fate ∈ fates.tail, fate = .done := fun fate hfate =>
      hfates fate (List.mem_of_mem_tail hfate)
    -- One step, and those of the rest.
    have hsteps : ∀ answer s step,
        step ∈ ((next answer).run platform fates.tail (w.record operation .done s)).past.steps.drop
          w.steps.length →
        step = { operation, fate := .done, before := w.state, after := s } ∨
          step ∈ ((next answer).run platform fates.tail
            (w.record operation .done s)).past.steps.drop (w.record operation .done s).steps.length := by
      intro answer s step hstep
      obtain ⟨rest, hrest⟩ := (next answer).run_steps platform fates.tail
        (w.record operation .done s)
      rw [hrest, Past.record, List.append_assoc, List.drop_left, List.singleton_append] at hstep
      rw [hrest, List.drop_left]
      exact List.mem_cons.mp hstep
    rw [run, hhead]
    simp only
    split
    · next answer s hperform =>
      obtain ⟨hending, hrest⟩ := ih (.ok answer) htail (w.record operation .done s)
      refine ⟨hending, fun step hstep => ?_⟩
      rcases hsteps _ _ step hstep with rfl | hstep
      · exact ⟨rfl, .inl ⟨answer, hperform⟩⟩
      · exact hrest step hstep
    · next e hperform =>
      obtain ⟨hending, hrest⟩ := ih (.error e) htail (w.record operation .done w.state)
      refine ⟨hending, fun step hstep => ?_⟩
      rcases hsteps _ _ step hstep with rfl | hstep
      · exact ⟨rfl, .inr ⟨⟨e, hperform⟩, rfl⟩⟩
      · exact hrest step hstep

end Script

/-! ## Rules -/

/-- What is taken for granted of every step, and what holds wherever a script dies. -/
structure CrashLogic (platform : Platform ω ε σ ρ) where
  assumed : Step ω σ ρ → Prop
  always : Past ω σ ρ → Prop

namespace CrashLogic

variable {platform : Platform ω ε σ ρ} {L : CrashLogic platform}

/-- From a past with the first property, the script ends in one with the second or dies in one
that is always there. -/
def Triple (L : CrashLogic platform) (P : Past ω σ ρ → Prop) (t : Script ω ε β)
    (Q : Except ε β → Past ω σ ρ → Prop) : Prop :=
  ∀ fates w, P w →
    (∀ step ∈ (t.run platform fates w).past.steps.drop w.steps.length, L.assumed step) →
    match (t.run platform fates w).ending with
    | .ended result => Q result (t.run platform fates w).past
    | .died => L.always (t.run platform fates w).past

variable {P : Past ω σ ρ → Prop} {Q : Except ε β → Past ω σ ρ → Prop}

theorem triple_ended {result : Except ε β} (h : ∀ w, P w → Q result w) :
    L.Triple P (.ended result) Q := fun _ w hw _ => h w hw

theorem Triple.weaken {t : Script ω ε β} {P' : Past ω σ ρ → Prop}
    {Q' : Except ε β → Past ω σ ρ → Prop} (h : L.Triple P t Q) (hpre : ∀ w, P' w → P w)
    (hpost : ∀ result w, Q result w → Q' result w) : L.Triple P' t Q' := by
  intro fates w hw hassumed
  have ht := h fates w (hpre w hw) hassumed
  split at ht
  · exact hpost _ _ ht
  · exact ht

theorem Triple.resume {t : Script ω ε β} {k : Except ε β → Script ω ε γ}
    {R : Except ε γ → Past ω σ ρ → Prop} (h : L.Triple P t Q)
    (hk : ∀ result, L.Triple (Q result) (k result) R) : L.Triple P (t.resume k) R := by
  intro fates w hw hassumed
  rw [Script.run_resume] at hassumed ⊢
  have ht := h fates w hw
  obtain ⟨first, hfirst⟩ := t.run_steps platform fates w
  revert hassumed ht hfirst
  generalize t.run platform fates w = outcome
  intro hassumed ht hfirst
  rw [Script.Outcome.continue] at hassumed ⊢
  cases hending : outcome.ending with
  | died =>
    rw [hending] at ht
    simp only [hending] at hassumed ⊢
    exact ht hassumed
  | ended result =>
    rw [hending] at ht
    simp only [hending] at hassumed ⊢
    obtain ⟨second, hsecond⟩ := (k result).run_steps platform outcome.fates outcome.past
    rw [hsecond, hfirst, List.append_assoc, List.drop_left] at hassumed
    rw [hfirst, List.drop_left] at ht
    refine hk result _ _ (ht fun step hstep => hassumed step (List.mem_append_left _ hstep)) ?_
    rw [hsecond, List.drop_left]
    exact fun step hstep => hassumed step (List.mem_append_right _ hstep)

theorem Triple.bind {t : Script ω ε β} {f : β → Script ω ε γ}
    {R : Except ε γ → Past ω σ ρ → Prop} (h : L.Triple P t Q)
    (hok : ∀ b, L.Triple (Q (.ok b)) (f b) R) (herror : ∀ e w, Q (.error e) w → R (.error e) w) :
    L.Triple P (t >>= f) R := by
  refine h.resume fun result => ?_
  cases result with
  | ok b => exact hok b
  | error e => exact triple_ended (herror e)

theorem Triple.tryCatch {t : Script ω ε β} {handler : ε → Script ω ε β}
    {R : Except ε β → Past ω σ ρ → Prop} (h : L.Triple P t Q)
    (hok : ∀ b w, Q (.ok b) w → R (.ok b) w)
    (herror : ∀ e, L.Triple (Q (.error e)) (handler e) R) : L.Triple P (tryCatch t handler) R := by
  refine h.resume fun result => ?_
  cases result with
  | ok b => exact triple_ended (hok b)
  | error e => exact herror e

-- An operation is carried out, is refused, or stops short.
theorem triple_operate {operation : ω} {Q : Except ε (Answer operation) → Past ω σ ρ → Prop}
    (hdone : ∀ w answer s, P w → platform.perform operation w.state = .ok (answer, s) →
      L.assumed { operation, fate := .done, before := w.state, after := s } →
      Q (.ok answer) (w.record operation .done s))
    (hrefused : ∀ w e, P w → platform.perform operation w.state = .error e →
      Q (.error e) (w.record operation .done w.state))
    (hfailed : ∀ w left, P w →
      L.assumed { operation, fate := .failed left, before := w.state,
                  after := platform.leave operation left w.state } →
      Q (.error platform.fault)
        (w.record operation (.failed left) (platform.leave operation left w.state)))
    (hdied : ∀ w left, P w →
      L.assumed { operation, fate := .died left, before := w.state,
                  after := platform.leave operation left w.state } →
      L.always (w.record operation (.died left) (platform.leave operation left w.state))) :
    L.Triple P (.operate operation) Q := by
  intro fates w hw
  have hlast : ∀ fate s, (w.record operation fate s : Past ω σ ρ).steps.drop w.steps.length =
      [{ operation, fate, before := w.state, after := s }] :=
    fun fate s => List.drop_left
  rw [Script.operate, Script.run]
  split
  · split
    · next answer s hs =>
      intro hassumed
      exact hdone w answer s hw hs (hassumed _ (hlast _ _ ▸ List.mem_singleton.mpr rfl))
    · next e he => exact fun _ => hrefused w e hw he
  · next left _ =>
    intro hassumed
    exact hfailed w left hw (hassumed _ (hlast _ _ ▸ List.mem_singleton.mpr rfl))
  · next left _ =>
    intro hassumed
    exact hdied w left hw (hassumed _ (hlast _ _ ▸ List.mem_singleton.mpr rfl))

-- A loop, with what holds when some items are done and the others are to come.
theorem triple_each (body : κ → Script ω ε Unit) (items : List κ)
    {I : List κ → List κ → Past ω σ ρ → Prop} {E : ε → Past ω σ ρ → Prop}
    (hbody : ∀ done item later, done ++ item :: later = items →
      L.Triple (I done (item :: later)) (body item) fun result w =>
        match result with
        | .ok _ => I (done ++ [item]) later w
        | .error e => E e w) :
    L.Triple (I [] items) (.each body items) fun result w =>
      match result with
      | .ok _ => I items [] w
      | .error e => E e w := by
  have hloop : ∀ done later, done ++ later = items →
      L.Triple (I done later) (.each body later) fun result w =>
        match result with
        | .ok _ => I items [] w
        | .error e => E e w := by
    intro done later
    induction later generalizing done with
    | nil =>
      intro hitems
      rw [List.append_nil] at hitems
      subst hitems
      exact triple_ended fun w hw => hw
    | cons item later ih =>
      intro hitems
      refine (hbody done item later hitems).bind (fun _ => ?_) fun e w he => he
      exact ih (done ++ [item]) (by rw [List.append_assoc, List.singleton_append, hitems])
  exact hloop [] items (List.nil_append _)

end CrashLogic

end Core
