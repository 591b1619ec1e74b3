import Mathlib.Data.List.Basic

/-!
# Machines that log their actions, and monitors of logs

A machine takes inputs one by one and appends the actions of each step to a log.  A monitor reads a
log: it keeps a summary of what has happened and says which action it permits next.  A machine whose
states are related to the summaries, step by step, never logs what the monitor forbids.
-/

namespace Core

variable {σ ι α β κ κ' : Type}

structure Machine (σ ι α : Type) where
  initial : σ
  step : σ → ι → σ × List α

namespace Machine

/-- State and log after a list of inputs, from a state. -/
def runFrom (m : Machine σ ι α) (s : σ) : List ι → σ × List α
  | [] => (s, [])
  | i :: inputs =>
      let (s', log) := m.runFrom (m.step s i).1 inputs
      (s', (m.step s i).2 ++ log)

def run (m : Machine σ ι α) (inputs : List ι) : σ × List α := m.runFrom m.initial inputs

-- The log of a run is that of its first step and that of what follows.
theorem runFrom_cons_log (m : Machine σ ι α) (s : σ) (i : ι) (inputs : List ι) :
    (m.runFrom s (i :: inputs)).2 = (m.step s i).2 ++ (m.runFrom (m.step s i).1 inputs).2 := rfl

/-- The machine with notes in its log of what its steps meet, each in front of what is done. -/
def annotated (m : Machine σ ι α) (note : σ → ι → List β) : Machine σ ι (β ⊕ α) where
  initial := m.initial
  step s i := ((m.step s i).1, (note s i).map .inl ++ (m.step s i).2.map .inr)

end Machine

structure Monitor (κ α : Type) where
  initial : κ
  record : κ → α → κ
  permits : κ → α → Prop

namespace Monitor

/-- The summary after a log. -/
def after (m : Monitor κ α) (k : κ) (log : List α) : κ := log.foldl m.record k

/-- Every action of the log is permitted when it happens. -/
def Permitted (m : Monitor κ α) (k : κ) : List α → Prop
  | [] => True
  | a :: log => m.permits k a ∧ m.Permitted (m.record k a) log

variable {m : Monitor κ α} {k : κ}

@[simp] theorem after_nil : m.after k [] = k := rfl

@[simp] theorem after_cons (a : α) (log : List α) :
    m.after k (a :: log) = m.after (m.record k a) log := rfl

@[simp] theorem after_append (log later : List α) :
    m.after k (log ++ later) = m.after (m.after k log) later := List.foldl_append

@[simp] theorem permitted_nil : m.Permitted k [] := trivial

@[simp] theorem permitted_cons (a : α) (log : List α) :
    m.Permitted k (a :: log) ↔ m.permits k a ∧ m.Permitted (m.record k a) log := Iff.rfl

@[simp] theorem permitted_append (log later : List α) :
    m.Permitted k (log ++ later) ↔ m.Permitted k log ∧ m.Permitted (m.after k log) later := by
  induction log generalizing k with
  | nil => simp
  | cons a log ih => simp [ih, and_assoc]

-- In a permitted log, an action is permitted by the summary of what is before it.
theorem Permitted.permits_before {log before : List α} {a : α} (h : m.Permitted k log)
    (hp : before ++ [a] <+: log) : m.permits (m.after k before) a := by
  obtain ⟨later, rfl⟩ := hp
  simp only [permitted_append, permitted_cons] at h
  exact h.1.2.1

theorem Permitted.of_initial {log before : List α} (h : m.Permitted k log) (hp : before <+: log) :
    m.Permitted k before := by
  obtain ⟨later, rfl⟩ := hp
  exact ((permitted_append before later).mp h).1

-- A monitor that forbids less.
theorem Permitted.weaken {m' : Monitor κ α} {log : List α} (h : m.Permitted k log)
    (hrecord : m'.record = m.record) (hpermits : ∀ k a, m.permits k a → m'.permits k a) :
    m'.Permitted k log := by
  induction log generalizing k with
  | nil => trivial
  | cons a log ih =>
    refine ⟨hpermits k a h.1, ?_⟩
    rw [hrecord]
    exact ih h.2

-- What two monitors with the same summaries permit together.
theorem Permitted.combine {m' m'' : Monitor κ α} {log : List α} (h : m.Permitted k log)
    (h' : m'.Permitted k log) (hrecord : m'.record = m.record) (hrecord' : m''.record = m.record)
    (hpermits : ∀ k a, m.permits k a → m'.permits k a → m''.permits k a) : m''.Permitted k log := by
  induction log generalizing k with
  | nil => trivial
  | cons a log ih =>
    obtain ⟨hlater, hlater'⟩ := And.intro h.2 h'.2
    rw [hrecord] at hlater'
    refine ⟨hpermits k a h.1 h'.1, ?_⟩
    rw [hrecord']
    exact ih hlater hlater'

-- A property of summaries that permitted actions keep holds after every permitted log.
theorem Permitted.preserves {log : List α} (h : m.Permitted k log) {P : κ → Prop} (hk : P k)
    (hstep : ∀ k a, P k → m.permits k a → P (m.record k a)) : P (m.after k log) := by
  induction log generalizing k with
  | nil => exact hk
  | cons a log ih => exact ih h.2 (hstep k a hk h.1)

-- What one monitor permits, another permits whose summaries follow those of the first.
theorem Permitted.simulate {log : List α} (m' : Monitor κ' α) {R : κ → κ' → Prop} {k' : κ'}
    (h : m.Permitted k log) (hk : R k k')
    (hstep : ∀ k k' a, R k k' → m.permits k a → m'.permits k' a ∧ R (m.record k a) (m'.record k' a)) :
    m'.Permitted k' log ∧ R (m.after k log) (m'.after k' log) := by
  induction log generalizing k k' with
  | nil => exact ⟨trivial, hk⟩
  | cons a log ih =>
    obtain ⟨hpermits, hnext⟩ := hstep k k' a hk h.1
    obtain ⟨hlater, hlast⟩ := ih h.2 hnext
    exact ⟨⟨hpermits, hlater⟩, hlast⟩

theorem Permitted.refine {log : List α} {m' : Monitor κ' α} {R : κ → κ' → Prop} {k' : κ'}
    (h : m.Permitted k log) (hk : R k k')
    (hstep : ∀ k k' a, R k k' → m.permits k a → m'.permits k' a ∧ R (m.record k a) (m'.record k' a)) :
    m'.Permitted k' log :=
  (h.simulate m' hk hstep).1

end Monitor

/-- The actions of a step are permitted, and its state is related to the summary after them. -/
def Monitor.Follows (mon : Monitor κ α) (R : σ → κ → Prop) (k : κ) (step : σ × List α) : Prop :=
  mon.Permitted k step.2 ∧ R step.1 (mon.after k step.2)

-- A relation kept by every step keeps every run within what the monitor permits.
theorem Monitor.follows_runFrom (m : Machine σ ι α) (mon : Monitor κ α) {R : σ → κ → Prop}
    (hstep : ∀ s k i, R s k → mon.Follows R k (m.step s i)) {s : σ} {k : κ} (h : R s k)
    (inputs : List ι) : mon.Follows R k (m.runFrom s inputs) := by
  induction inputs generalizing s k with
  | nil => exact ⟨trivial, h⟩
  | cons i inputs ih =>
    obtain ⟨hp, hr⟩ := hstep s k i h
    obtain ⟨hp', hr'⟩ := ih hr
    exact ⟨(Monitor.permitted_append _ _).mpr ⟨hp, hp'⟩, by simpa [Machine.runFrom] using hr'⟩

theorem Monitor.follows_run (m : Machine σ ι α) (mon : Monitor κ α) {R : σ → κ → Prop}
    (hinit : R m.initial mon.initial)
    (hstep : ∀ s k i, R s k → mon.Follows R k (m.step s i)) (inputs : List ι) :
    mon.Follows R mon.initial (m.run inputs) :=
  mon.follows_runFrom m hstep hinit inputs

end Core
