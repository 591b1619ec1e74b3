import TeslatlasSdk.Core.Machine

/-!
# Cooperative threads

A program is what a thread does up to its next await, and then for each answer.  Between two awaits
it reads and changes the shared state without interruption.  State changes are actions, so the state
is what the log of actions leaves behind.  A system runs any number of threads; its inputs start
calls and answer awaits, in any order.
-/

namespace Core

/-- Programs over a state `σ`, with actions `α`, awaited things `ρ` and their answers `ι`. -/
inductive Program (σ α ρ ι : Type) where
  | halt
  | get (next : σ → Program σ α ρ ι)
  | perform (action : α) (next : Program σ α ρ ι)
  /-- Run a new thread up to its first await, then go on.  Both are given its number. -/
  | fork (child next : Nat → Program σ α ρ ι)
  | await (request : ρ) (next : ι → Program σ α ρ ι)

variable {σ α ρ ι κ : Type}

/-- What one thread does without interruption. -/
structure Segment (σ α ρ ι : Type) where
  state : σ
  log : List α
  /-- What is left of the thread, and of the threads it has started. -/
  rest : Program σ α ρ ι
  forked : List (Program σ α ρ ι)

/-- Run a program up to its next await.  New threads are numbered from `fresh`. -/
def Program.run (record : σ → α → σ) : Program σ α ρ ι → (fresh : Nat) → σ → Segment σ α ρ ι
  | .halt, _, s => { state := s, log := [], rest := .halt, forked := [] }
  | .get next, fresh, s => (next s).run record fresh s
  | .perform a next, fresh, s =>
      let later := next.run record fresh (record s a)
      { later with log := a :: later.log }
  | .fork child next, fresh, s =>
      let first := (child fresh).run record (fresh + 1) s
      let later := (next fresh).run record (fresh + 1 + first.forked.length) first.state
      { state := later.state, log := first.log ++ later.log, rest := later.rest,
        forked := first.rest :: first.forked ++ later.forked }
  | .await request next, _, s => { state := s, log := [], rest := .await request next, forked := [] }

/-- What is left of a program that has been given answers, each with the state at that time, as long
as it starts no thread. -/
def Program.feed (record : σ → α → σ) : Program σ α ρ ι → σ → List (ι × σ) → Program σ α ρ ι
  | .get next, s, answers => (next s).feed record s answers
  | .perform a next, s, answers => next.feed record (record s a) answers
  | .await _ next, _, (answer, s) :: answers => (next answer).feed record s answers
  | p, _, _ => p

structure World (σ α ρ ι : Type) where
  state : σ
  /-- The threads by their numbers, each at an await or at its end. -/
  threads : List (Program σ α ρ ι) := []

structure System (σ α ρ ι κ : Type) where
  initial : σ
  record : σ → α → σ
  /-- Which answers an await of a thread may get. -/
  accepts : σ → Nat → ρ → ι → Bool
  /-- The program of a call, in a thread of its own. -/
  call : κ → Nat → Program σ α ρ ι

inductive SystemInput (ι κ : Type) where
  | call (call : κ)
  | answer (thread : Nat) (answer : ι)
  deriving DecidableEq, Repr

namespace System

def step (sys : System σ α ρ ι κ) (w : World σ α ρ ι) : SystemInput ι κ → World σ α ρ ι × List α
  | .call c =>
      let fresh := w.threads.length
      let segment := (sys.call c fresh).run sys.record (fresh + 1) w.state
      ({ state := segment.state, threads := w.threads ++ segment.rest :: segment.forked },
        segment.log)
  | .answer thread answer =>
      match w.threads[thread]? with
      | some (.await request next) =>
          if sys.accepts w.state thread request answer then
            let segment := (next answer).run sys.record w.threads.length w.state
            ({ state := segment.state,
               threads := w.threads.set thread segment.rest ++ segment.forked }, segment.log)
          else (w, [])
      | _ => (w, [])

def machine (sys : System σ α ρ ι κ) : Machine (World σ α ρ ι) (SystemInput ι κ) α where
  initial := { state := sys.initial }
  step := sys.step

/-- The system where some calls do nothing and threads are not given some answers. -/
def restrict (sys : System σ α ρ ι κ) (calls : κ → Bool) (answers : Nat → ι → Bool) :
    System σ α ρ ι κ where
  initial := sys.initial
  record := sys.record
  accepts s thread request answer := sys.accepts s thread request answer && answers thread answer
  call c thread := if calls c then sys.call c thread else .halt

/-- Inputs that a restricted system takes as the whole one does. -/
def Allows (calls : κ → Bool) (answers : Nat → ι → Bool) : SystemInput ι κ → Prop
  | .call c => calls c = true
  | .answer thread answer => answers thread answer = true

theorem restrict_step (sys : System σ α ρ ι κ) {calls : κ → Bool} {answers : Nat → ι → Bool}
    {input : SystemInput ι κ} (h : Allows calls answers input) (w : World σ α ρ ι) :
    (sys.restrict calls answers).step w input = sys.step w input := by
  cases input with
  | call c =>
    have hcall : (sys.restrict calls answers).call c w.threads.length =
        sys.call c w.threads.length := if_pos h
    simp only [step]
    rw [hcall]
    rfl
  | answer thread answer =>
    have haccepts : ∀ request, (sys.restrict calls answers).accepts w.state thread request answer =
        sys.accepts w.state thread request answer := fun request => by
      have hanswer : answers thread answer = true := h
      simp only [restrict, hanswer, Bool.and_true]
    simp only [step, haccepts]
    rfl

-- A run whose inputs are allowed is one of the restricted system.
theorem restrict_run (sys : System σ α ρ ι κ) {calls : κ → Bool} {answers : Nat → ι → Bool}
    {inputs : List (SystemInput ι κ)} (h : ∀ input ∈ inputs, Allows calls answers input) :
    (sys.restrict calls answers).machine.run inputs = sys.machine.run inputs := by
  have hfrom : ∀ w, (sys.restrict calls answers).machine.runFrom w inputs =
      sys.machine.runFrom w inputs := by
    induction inputs with
    | nil => exact fun w => rfl
    | cons input inputs ih =>
      intro w
      have hstep : (sys.restrict calls answers).machine.step w input = sys.machine.step w input :=
        sys.restrict_step (h input List.mem_cons_self) w
      rw [Machine.runFrom, Machine.runFrom, hstep]
      rw [ih (fun later hlater => h later (List.mem_cons_of_mem input hlater))]
  exact hfrom _

end System

/-! ## Tasks -/

/-- A computation inside a thread: it returns or throws to what comes after it. -/
def Async (σ α ρ ι ε β : Type) : Type := (Except ε β → Program σ α ρ ι) → Program σ α ρ ι

namespace Async

variable {ε β γ : Type}

instance : Monad (Async σ α ρ ι ε) where
  pure b := fun k => k (.ok b)
  bind t f := fun k => t fun
    | .ok b => f b k
    | .error e => k (.error e)

instance : MonadExceptOf ε (Async σ α ρ ι ε) where
  throw e := fun k => k (.error e)
  tryCatch t handler := fun k => t fun
    | .ok b => k (.ok b)
    | .error e => handler e k

def get : Async σ α ρ ι ε σ := fun k => .get fun s => k (.ok s)

def perform (a : α) : Async σ α ρ ι ε Unit := fun k => .perform a (k (.ok ()))

def await (request : ρ) : Async σ α ρ ι ε ι := fun k => .await request fun answer => k (.ok answer)

/-- Start a thread; its number comes back. -/
def fork (child : Nat → Program σ α ρ ι) : Async σ α ρ ι ε Nat :=
  fun k => .fork child fun thread => k (.ok thread)

/-- Run a task to its end, whichever way it ends. -/
def attempt (t : Async σ α ρ ι ε β) : Async σ α ρ ι ε (Except ε β) := fun k => t fun r => k (.ok r)

def ofExcept (r : Except ε β) : Async σ α ρ ι ε β := fun k => k r

/-- A task as the whole of a thread. -/
def toProgram (t : Async σ α ρ ι ε Unit) : Program σ α ρ ι := t fun _ => .halt

end Async

end Core
