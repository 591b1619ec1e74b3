import TeslatlasSdk.Core.Errors
import TeslatlasSdk.Core.Machine
import Mathlib.Data.List.Basic

/-!
# `defaultSleep`

A delay is slept in timers that the platform can keep.  The machine is the call of the function: a
timer may fire and the signal may be aborted at any time, and the body goes on when its promise is
settled.
-/

open Core

namespace Events

/-- The longest delay of a timer. -/
def maximumTimeout : Nat := 2147483647

inductive SleepPlace where
  | start (milliseconds : Nat)
  /-- The condition of the loop is next. -/
  | looping (remaining : Nat)
  | waiting (remaining delay : Nat)
  | rejecting (error : Thrown)
  | settled
  deriving DecidableEq, Repr

structure Sleep where
  place : SleepPlace
  signal : AbortState
  deriving DecidableEq, Repr

inductive SleepInput where
  /-- The body goes on. -/
  | resume
  | timeout
  | abort (reason : Thrown)
  deriving DecidableEq, Repr

inductive SleepAction where
  | setTimeout (delay : Nat)
  | clearTimeout
  | settled (result : Except Thrown Unit)
  deriving DecidableEq

namespace Sleep

def settle (s : Sleep) (result : Except Thrown Unit) : Sleep × List SleepAction :=
  ({ s with place := .settled }, [.settled result])

/-- One turn of `while (remaining > 0)`. -/
def turn (s : Sleep) (remaining : Nat) : Sleep × List SleepAction :=
  if remaining > 0 then
    match s.signal with
    | some reason => s.settle (.error (abortReason reason))
    | none =>
        let delay := min remaining maximumTimeout
        ({ s with place := .waiting remaining delay }, [.setTimeout delay])
  else s.settle (.ok ())

/-- The listener of `"abort"` is there while a timer is. -/
def abort (s : Sleep) (reason : Thrown) : Sleep × List SleepAction :=
  let signal := s.signal.or (some reason)
  match s.place with
  | .waiting _ _ => ({ place := .rejecting (abortReason reason), signal }, [.clearTimeout])
  | _ => ({ s with signal }, [])

def step (s : Sleep) : SleepInput → Sleep × List SleepAction
  | .abort reason => s.abort reason
  | .timeout =>
      match s.place with
      | .waiting remaining delay => ({ s with place := .looping (remaining - delay) }, [])
      | _ => (s, [])
  | .resume =>
      match s.place, s.signal with
      | .start _, some reason => s.settle (.error (abortReason reason))
      | .start milliseconds, none => s.turn milliseconds
      | .looping remaining, _ => s.turn remaining
      | .rejecting error, _ => s.settle (.error error)
      | _, _ => (s, [])

end Sleep

def defaultSleep (milliseconds : Nat) (signal : AbortState) :
    Machine Sleep SleepInput SleepAction where
  initial := { place := .start milliseconds, signal }
  step := Sleep.step

/-! ## Timers -/

def IsTimeout (delay : Nat) : Prop := 1 ≤ delay ∧ delay ≤ maximumTimeout

/-- The time that the timers of a log take together, and whether the call has come back. -/
structure Slept where
  total : Nat := 0
  returned : Bool := false

namespace Slept

def record (k : Slept) : SleepAction → Slept
  | .setTimeout delay => { k with total := k.total + delay }
  | .clearTimeout => k
  | .settled _ => { k with returned := true }

/-- Timers are in range and take no longer than the delay, and a sleep that is not rejected has
taken exactly that time. -/
def Permits (milliseconds : Nat) (k : Slept) : SleepAction → Prop
  | .setTimeout delay => k.returned = false ∧ IsTimeout delay ∧ k.total + delay ≤ milliseconds
  | .clearTimeout => k.returned = false
  | .settled (.ok ()) => k.returned = false ∧ k.total = milliseconds
  | .settled (.error _) => k.returned = false

def monitor (milliseconds : Nat) : Monitor Slept SleepAction where
  initial := {}
  record := record
  permits := Permits milliseconds

/-- The time slept and the time that remains. -/
def Place (milliseconds : Nat) (k : Slept) : SleepPlace → Prop
  | .start total => k.returned = false ∧ total = milliseconds ∧ k.total = 0
  | .looping remaining => k.returned = false ∧ k.total + remaining = milliseconds
  | .waiting remaining delay =>
      k.returned = false ∧ k.total + remaining = milliseconds + delay ∧ delay ≤ remaining
  | .rejecting _ => k.returned = false
  | .settled => True

end Slept

namespace Sleep

variable {milliseconds : Nat} {s : Sleep} {k : Slept}

/-- The step's actions are permitted, and its place fits the time slept. -/
abbrev Keeps (milliseconds : Nat) (k : Slept) (step : Sleep × List SleepAction) : Prop :=
  (Slept.monitor milliseconds).Follows (fun s k => Slept.Place milliseconds k s.place) k step

theorem isTimeout_min {remaining : Nat} (h : 0 < remaining) :
    IsTimeout (min remaining maximumTimeout) := by
  have hpos : 0 < maximumTimeout := by decide
  exact ⟨Nat.le_min.mpr ⟨h, hpos⟩, Nat.min_le_right _ _⟩

theorem reject_keeps (h : k.returned = false) (error : Thrown) :
    Keeps milliseconds k (s.settle (.error error)) :=
  ⟨⟨h, trivial⟩, trivial⟩

theorem turn_keeps (h : k.returned = false) {remaining : Nat}
    (hremaining : k.total + remaining = milliseconds) :
    Keeps milliseconds k (s.turn remaining) := by
  unfold turn
  split
  · next hpos =>
    split
    · exact reject_keeps h _
    · have hle : min remaining maximumTimeout ≤ remaining := Nat.min_le_left _ _
      have hpermits : Slept.Permits milliseconds k (.setTimeout (min remaining maximumTimeout)) :=
        ⟨h, isTimeout_min hpos, by omega⟩
      have hplace : k.total + min remaining maximumTimeout + remaining =
          milliseconds + min remaining maximumTimeout := by
        omega
      exact ⟨⟨hpermits, trivial⟩, h, hplace, hle⟩
  · next hzero => exact ⟨⟨⟨h, by omega⟩, trivial⟩, trivial⟩

theorem step_keeps (h : Slept.Place milliseconds k s.place) (input : SleepInput) :
    Keeps milliseconds k (s.step input) := by
  have hsame : Keeps milliseconds k (s, []) := ⟨trivial, h⟩
  cases input with
  | abort reason =>
    simp only [step, abort]
    split
    · next hplace =>
      rw [hplace] at h
      exact ⟨⟨h.1, trivial⟩, h.1⟩
    · exact ⟨trivial, h⟩
  | timeout =>
    simp only [step]
    split
    · next remaining delay hplace =>
      rw [hplace] at h
      obtain ⟨hover, htotal, hle⟩ := h
      have hlooping : k.total + (remaining - delay) = milliseconds := by omega
      exact ⟨trivial, hover, hlooping⟩
    · exact hsame
  | resume =>
    simp only [step]
    split
    · next hplace _ =>
      rw [hplace] at h
      exact reject_keeps h.1 _
    · next hplace _ =>
      rw [hplace] at h
      obtain ⟨hover, rfl, hzero⟩ := h
      exact turn_keeps hover (by omega)
    · next hplace =>
      rw [hplace] at h
      exact turn_keeps h.1 h.2
    · next hplace =>
      rw [hplace] at h
      exact reject_keeps h _
    · exact hsame

end Sleep

theorem defaultSleep_permitted (milliseconds : Nat) (signal : AbortState)
    (inputs : List SleepInput) :
    (Slept.monitor milliseconds).Permitted {} ((defaultSleep milliseconds signal).run inputs).2 :=
  have hinit : Slept.Place milliseconds {} (.start milliseconds) := ⟨rfl, rfl, rfl⟩
  (Monitor.follows_run (defaultSleep milliseconds signal) (Slept.monitor milliseconds) hinit
    (fun _ _ input h => Sleep.step_keeps h input) inputs).1

/-! ## Sleeping through -/

/-- Each timer fires, and the body goes on. -/
def timersFire (delays : List Nat) : List SleepInput :=
  delays.flatMap fun _ => [.timeout, .resume]

theorem runFrom_waiting (m : Machine Sleep SleepInput SleepAction) (hm : m.step = Sleep.step)
    (remaining : Nat) :
    ∃ delays, (∀ delay ∈ delays, IsTimeout delay) ∧ delays.sum = remaining ∧
      (m.runFrom ⟨.looping remaining, none⟩ (.resume :: timersFire delays)).2 =
        delays.map .setTimeout ++ [.settled (.ok ())] := by
  induction remaining using Nat.strongRecOn with
  | ind remaining ih =>
    by_cases hzero : remaining = 0
    · subst hzero
      refine ⟨[], by simp, rfl, ?_⟩
      rw [timersFire, List.flatMap_nil, Machine.runFrom_cons_log, hm]
      rfl
    · have hpos : 0 < remaining := Nat.pos_of_ne_zero hzero
      have hdelay := Sleep.isTimeout_min hpos
      have hle : min remaining maximumTimeout ≤ remaining := Nat.min_le_left _ _
      obtain ⟨delays, htimeouts, hsum, hlog⟩ :=
        ih (remaining - min remaining maximumTimeout) (by have := hdelay.1; omega)
      refine ⟨min remaining maximumTimeout :: delays, ?_, ?_, ?_⟩
      · intro delay hmem
        rcases List.mem_cons.mp hmem with rfl | hmem
        · exact hdelay
        · exact htimeouts delay hmem
      · rw [List.sum_cons, hsum]
        omega
      · have hturn : Sleep.step ⟨.looping remaining, none⟩ .resume =
            (⟨.waiting remaining (min remaining maximumTimeout), none⟩,
              [.setTimeout (min remaining maximumTimeout)]) := by
          simp only [Sleep.step, Sleep.turn, if_pos hpos]
        have hfire : Sleep.step ⟨.waiting remaining (min remaining maximumTimeout), none⟩ .timeout =
            (⟨.looping (remaining - min remaining maximumTimeout), none⟩, []) := rfl
        have hinputs : timersFire (min remaining maximumTimeout :: delays) =
            .timeout :: .resume :: timersFire delays := rfl
        rw [hinputs, Machine.runFrom_cons_log, hm, hturn, Machine.runFrom_cons_log, hm, hfire, hlog]
        rfl

-- Without an abort the sleep comes back when its timers have fired.
theorem defaultSleep_sleeps (milliseconds : Nat) :
    ∃ delays, (∀ delay ∈ delays, IsTimeout delay) ∧ delays.sum = milliseconds ∧
      ((defaultSleep milliseconds none).run (.resume :: timersFire delays)).2 =
        delays.map .setTimeout ++ [.settled (.ok ())] :=
  runFrom_waiting (defaultSleep milliseconds none) rfl milliseconds

-- An abort clears the timer, and the sleep is rejected.
theorem defaultSleep_aborted (milliseconds : Nat) (signal : AbortState)
    (inputs : List SleepInput) (reason : Thrown) (remaining delay : Nat)
    (h : ((defaultSleep milliseconds signal).run inputs).1.place = .waiting remaining delay) :
    ((defaultSleep milliseconds signal).runFrom ((defaultSleep milliseconds signal).run inputs).1
      [.abort reason, .resume]).2 = [.clearTimeout, .settled (.error (abortReason reason))] := by
  generalize ((defaultSleep milliseconds signal).run inputs).1 = s at h
  obtain ⟨place, signal⟩ := s
  subst h
  rfl

end Events
