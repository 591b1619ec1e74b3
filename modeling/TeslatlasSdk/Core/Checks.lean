import Mathlib.Logic.Basic

/-!
# Computations that check

A run of checks is taken apart one step at a time.
-/

namespace Core

theorem bind_eq_ok {ε α β : Type} {m : Except ε α} {f : α → Except ε β} {b : β} :
    (m >>= f) = .ok b ↔ ∃ a, m = .ok a ∧ f a = .ok b := by
  cases m with
  | error e => simp [bind, Except.bind]
  | ok a => simp [bind, Except.bind]

theorem bind_eq_error {ε α β : Type} {m : Except ε α} {f : α → Except ε β} {e : ε} :
    (m >>= f) = .error e ↔ m = .error e ∨ ∃ a, m = .ok a ∧ f a = .error e := by
  cases m with
  | error e' => simp [bind, Except.bind]
  | ok a => simp [bind, Except.bind]

-- A loop of checks throws what one of them does.
theorem exists_of_forM_eq_error {ε α : Type} {f : α → Except ε Unit} {e : ε} {l : List α}
    (h : l.forM f = .error e) : ∃ a ∈ l, f a = .error e := by
  induction l with
  | nil => cases h
  | cons a l ih =>
    change (f a >>= fun _ => l.forM f) = .error e at h
    rcases bind_eq_error.mp h with h | ⟨u, -, h⟩
    · exact ⟨a, List.mem_cons_self, h⟩
    · obtain ⟨b, hb, he⟩ := ih h
      exact ⟨b, List.mem_cons_of_mem a hb, he⟩

/-- `if (c) throw e`. -/
def rejectIf {ε : Type} (c : Prop) [Decidable c] (e : ε) : Except ε Unit :=
  if c then .error e else .ok ()

theorem rejectIf_eq_ok {ε : Type} {c : Prop} [Decidable c] {e : ε} {u : Unit} :
    rejectIf c e = .ok u ↔ ¬ c := by
  by_cases hc : c
  · simp [rejectIf, hc]
  · simp [rejectIf, hc]

theorem rejectIf_eq_error {ε : Type} {c : Prop} [Decidable c] {e e' : ε} :
    rejectIf c e = .error e' ↔ c ∧ e' = e := by
  by_cases hc : c
  · simp [rejectIf, hc, eq_comm]
  · simp [rejectIf, hc]

theorem rejectIf_bind_eq_ok {ε α : Type} {c : Prop} [Decidable c] {e : ε}
    {f : Unit → Except ε α} {a : α} : (rejectIf c e >>= f) = .ok a ↔ ¬ c ∧ f () = .ok a := by
  rw [bind_eq_ok]
  constructor
  · rintro ⟨u, hu, hf⟩
    exact ⟨rejectIf_eq_ok.mp hu, hf⟩
  · rintro ⟨hc, hf⟩
    exact ⟨(), rejectIf_eq_ok.mpr hc, hf⟩

theorem rejectIf_bind_pos {ε α : Type} {c : Prop} [Decidable c] (h : c) (e : ε)
    (f : Unit → Except ε α) : (rejectIf c e >>= f) = .error e := by
  rw [rejectIf, if_pos h]
  rfl

theorem rejectIf_bind_neg {ε α : Type} {c : Prop} [Decidable c] (h : ¬ c) (e : ε)
    (f : Unit → Except ε α) : (rejectIf c e >>= f) = f () := by
  rw [rejectIf, if_neg h]
  rfl

end Core
