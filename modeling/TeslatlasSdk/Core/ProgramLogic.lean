import TeslatlasSdk.Core.Program

/-!
# Rules for cooperative threads

A logic for a system says which actions a state permits, what one thread leaves to the others, and
what holds of a thread while it is parked at an await.  A program is checked once, alone, against
every state that the others may have made of the one it last saw.  If every call's program is
checked, then every log of the system is permitted.
-/

namespace Core

variable {σ α ρ ι κ : Type}

structure Logic (sys : System σ α ρ ι κ) where
  permits : σ → α → Prop
  /-- The thread that performs an action. -/
  actor : α → Nat
  Inv : σ → Prop
  /-- What others may do to a thread. -/
  Keeps : Nat → σ → σ → Prop
  /-- The thread has not begun. -/
  Fresh : σ → Nat → Prop
  Parked : σ → Nat → ρ → (ι → Program σ α ρ ι) → Prop
  Halted : σ → Nat → Prop
  inv_initial : Inv sys.initial
  inv_record : ∀ {s a}, Inv s → permits s a → Inv (sys.record s a)
  keeps_refl : ∀ i s, Keeps i s s
  keeps_trans : ∀ {i s s' s''}, Keeps i s s' → Keeps i s' s'' → Keeps i s s''
  keeps_record : ∀ {i s a}, Inv s → permits s a → actor a ≠ i → Keeps i s (sys.record s a)
  fresh_initial : ∀ i, Fresh sys.initial i
  fresh_keeps : ∀ {i s s'}, Keeps i s s' → Fresh s i → Fresh s' i
  parked_keeps : ∀ {i s s' request next}, Keeps i s s' → Parked s i request next →
    Parked s' i request next
  halted_keeps : ∀ {i s s'}, Keeps i s s' → Halted s i → Halted s' i

namespace Logic

variable {sys : System σ α ρ ι κ} (L : Logic sys)

def monitor : Monitor σ α where
  initial := sys.initial
  record := sys.record
  permits := L.permits

/-- No thread from a number on has begun. -/
def FreshFrom (fresh : Nat) (s : σ) : Prop := ∀ i, fresh ≤ i → L.Fresh s i

/-- Running the program as thread `i`, from the state and in every later one, performs permitted
actions only. -/
def Holds (i : Nat) : Program σ α ρ ι → (fresh : Nat) → σ → Prop
  | .halt, _, s => L.Halted s i
  | .get next, fresh, s => Holds i (next s) fresh s
  | .perform a next, fresh, s =>
      L.actor a = i ∧ L.permits s a ∧ Holds i next fresh (sys.record s a)
  | .fork child next, fresh, s =>
      Holds fresh (child fresh) (fresh + 1) s ∧
        let first := (child fresh).run sys.record (fresh + 1) s
        Holds i (next fresh) (fresh + 1 + first.forked.length) first.state
  | .await request next, _, s =>
      L.Parked s i request next ∧
        ∀ s' fresh answer, L.Keeps i s s' → L.Inv s' → L.FreshFrom fresh s' → i < fresh →
          sys.accepts s' i request answer = true → Holds i (next answer) fresh s'

/-- A thread between two of its segments. -/
def Resumable (i : Nat) (p : Program σ α ρ ι) (s : σ) : Prop :=
  match p with
  | .halt => L.Halted s i
  | .await request next =>
      L.Parked s i request next ∧
        ∀ s' fresh answer, L.Keeps i s s' → L.Inv s' → L.FreshFrom fresh s' → i < fresh →
          sys.accepts s' i request answer = true → L.Holds i (next answer) fresh s'
  | _ => False

variable {L}

theorem Resumable.keeps {i : Nat} {p : Program σ α ρ ι} {s s' : σ} (h : L.Resumable i p s)
    (hkeeps : L.Keeps i s s') : L.Resumable i p s' := by
  cases p with
  | halt => exact L.halted_keeps hkeeps h
  | await request next =>
    obtain ⟨hparked, hnext⟩ := h
    exact ⟨L.parked_keeps hkeeps hparked, fun s'' fresh answer hk =>
      hnext s'' fresh answer (L.keeps_trans hkeeps hk)⟩
  | get | perform | fork => exact h

/-- What a segment has made of a state. -/
structure Sound (L : Logic sys) (i fresh : Nat) (s : σ) (segment : Segment σ α ρ ι) : Prop where
  permitted : L.monitor.Permitted s segment.log
  state : segment.state = L.monitor.after s segment.log
  inv : L.Inv segment.state
  unused : L.FreshFrom (fresh + segment.forked.length) segment.state
  rest : L.Resumable i segment.rest segment.state
  forked : ∀ k p, segment.forked[k]? = some p → L.Resumable (fresh + k) p segment.state
  keeps : ∀ j, j ≠ i → j < fresh → L.Keeps j s segment.state

-- A fresh thread's segment, then the rest of the segment that forked it.
theorem Sound.fork {i fresh : Nat} {s : σ} {first later : Segment σ α ρ ι}
    (hfirst : Sound L fresh (fresh + 1) s first) (hi : i < fresh)
    (hlater : Sound L i (fresh + 1 + first.forked.length) first.state later) :
    Sound L i fresh s { state := later.state, log := first.log ++ later.log, rest := later.rest,
                        forked := first.rest :: first.forked ++ later.forked } where
  permitted := by
    rw [Monitor.permitted_append, ← hfirst.state]
    exact ⟨hfirst.permitted, hlater.permitted⟩
  state := by
    rw [Monitor.after_append, ← hfirst.state]
    exact hlater.state
  inv := hlater.inv
  unused := by
    have hlength : fresh + (first.rest :: first.forked ++ later.forked).length =
        fresh + 1 + first.forked.length + later.forked.length := by
      simp only [List.cons_append, List.length_cons, List.length_append]
      omega
    rw [hlength]
    exact hlater.unused
  rest := hlater.rest
  forked := by
    intro k p hp
    have hkeeps : ∀ j, j ≠ i → j < fresh + 1 + first.forked.length →
        L.Keeps j first.state later.state := hlater.keeps
    cases k with
    | zero =>
      simp only [List.cons_append, List.getElem?_cons_zero, Option.some.injEq] at hp
      subst hp
      exact hfirst.rest.keeps (hkeeps fresh (by omega) (by omega))
    | succ k =>
      simp only [List.cons_append, List.getElem?_cons_succ] at hp
      by_cases hk : k < first.forked.length
      · rw [List.getElem?_append_left hk] at hp
        have hsum : fresh + 1 + k = fresh + (k + 1) := by omega
        rw [← hsum]
        exact (hfirst.forked k p hp).keeps (hkeeps _ (by omega) (by omega))
      · rw [List.getElem?_append_right (by omega)] at hp
        have hsum : fresh + 1 + first.forked.length + (k - first.forked.length) =
            fresh + (k + 1) := by omega
        rw [← hsum]
        exact hlater.forked _ p hp
  keeps := fun j hj hlt =>
    L.keeps_trans (hfirst.keeps j (by omega) (by omega)) (hlater.keeps j hj (by omega))

-- A program that is checked does only what is permitted, and stays checked where it stops.
theorem Holds.sound {i fresh : Nat} {p : Program σ α ρ ι} {s : σ} (h : L.Holds i p fresh s)
    (hinv : L.Inv s) (hfresh : L.FreshFrom fresh s) (hi : i < fresh) :
    Sound L i fresh s (p.run sys.record fresh s) := by
  induction p generalizing i fresh s with
  | halt =>
    exact ⟨trivial, rfl, hinv, hfresh, h, fun k p hp => by simp [Program.run] at hp,
      fun j _ _ => L.keeps_refl j s⟩
  | get next ih => exact ih s h hinv hfresh hi
  | perform a next ih =>
    obtain ⟨hactor, hpermits, hnext⟩ := h
    have hkeeps : ∀ j, j ≠ i → L.Keeps j s (sys.record s a) := fun j hj =>
      L.keeps_record hinv hpermits (by rw [hactor]; exact hj.symm)
    have hfresh' : L.FreshFrom fresh (sys.record s a) := fun j hj =>
      L.fresh_keeps (hkeeps j (by omega)) (hfresh j hj)
    have hs := ih hnext (L.inv_record hinv hpermits) hfresh' hi
    exact ⟨⟨hpermits, hs.permitted⟩, hs.state, hs.inv, hs.unused, hs.rest, hs.forked,
      fun j hj hlt => L.keeps_trans (hkeeps j hj) (hs.keeps j hj hlt)⟩
  | fork child next ihchild ihnext =>
    obtain ⟨hchild, hnext⟩ := h
    have hfresh' : L.FreshFrom (fresh + 1) s := fun j hj => hfresh j (by omega)
    have hfirst := ihchild fresh hchild hinv hfresh' (Nat.lt_succ_self fresh)
    have hlater := ihnext fresh hnext hfirst.inv hfirst.unused (by omega)
    exact hfirst.fork hi hlater
  | await request next ih =>
    exact ⟨trivial, rfl, hinv, hfresh, h, fun k p hp => by simp [Program.run] at hp,
      fun j _ _ => L.keeps_refl j s⟩

/-! ## Systems -/

/-- A world between two steps. -/
structure Sane (L : Logic sys) (w : World σ α ρ ι) : Prop where
  inv : L.Inv w.state
  fresh : L.FreshFrom w.threads.length w.state
  threads : ∀ i p, w.threads[i]? = some p → L.Resumable i p w.state

/-- Every call's program is checked from every state. -/
def CallsHold (L : Logic sys) : Prop :=
  ∀ c fresh s, L.Inv s → L.FreshFrom fresh s → L.Holds fresh (sys.call c fresh) (fresh + 1) s

/-- The state is the monitor's summary of the log. -/
def Tracks (L : Logic sys) (w : World σ α ρ ι) (s : σ) : Prop := L.Sane w ∧ w.state = s

theorem sane_call (hcalls : L.CallsHold) {w : World σ α ρ ι} (h : L.Sane w) (c : κ) :
    L.monitor.Follows L.Tracks w.state (sys.step w (.call c)) := by
  have hfresh : L.FreshFrom (w.threads.length + 1) w.state := fun j hj => h.fresh j (by omega)
  have hs := (hcalls c w.threads.length w.state h.inv h.fresh).sound h.inv hfresh
    (Nat.lt_succ_self _)
  refine ⟨hs.permitted, ⟨hs.inv, ?_, ?_⟩, hs.state⟩
  · have hf := hs.unused
    simp only [System.step, List.length_append, List.length_cons]
    rw [Nat.add_right_comm] at hf
    exact hf
  · intro i p hp
    simp only [System.step] at hp ⊢
    by_cases hi : i < w.threads.length
    · rw [List.getElem?_append_left hi] at hp
      exact (h.threads i p hp).keeps (hs.keeps i (by omega) (by omega))
    · rw [List.getElem?_append_right (by omega)] at hp
      obtain ⟨k, rfl⟩ : ∃ k, i = w.threads.length + k := ⟨i - w.threads.length, by omega⟩
      rw [Nat.add_sub_cancel_left] at hp
      cases k with
      | zero =>
        simp only [List.getElem?_cons_zero, Option.some.injEq] at hp
        subst hp
        exact hs.rest
      | succ k =>
        simp only [List.getElem?_cons_succ] at hp
        have hsum : w.threads.length + (k + 1) = w.threads.length + 1 + k := by omega
        rw [hsum]
        exact hs.forked k p hp

theorem sane_answer {w : World σ α ρ ι} (h : L.Sane w) (thread : Nat) (answer : ι) :
    L.monitor.Follows L.Tracks w.state (sys.step w (.answer thread answer)) := by
  have hstay : L.monitor.Follows L.Tracks w.state (w, []) := ⟨trivial, h, rfl⟩
  simp only [System.step]
  split
  · next request next hthread =>
    split
    · next haccepts =>
      obtain ⟨hlt, -⟩ := List.getElem?_eq_some_iff.mp hthread
      obtain ⟨-, hnext⟩ := h.threads thread _ hthread
      have hs := (hnext w.state w.threads.length answer (L.keeps_refl thread w.state) h.inv h.fresh
        hlt haccepts).sound h.inv h.fresh hlt
      refine ⟨hs.permitted, ⟨hs.inv, ?_, ?_⟩, hs.state⟩
      · simp only [List.length_append, List.length_set]
        exact hs.unused
      · intro i p hp
        simp only at hp ⊢
        by_cases hi : i < w.threads.length
        · rw [List.getElem?_append_left (by simpa using hi)] at hp
          by_cases heq : i = thread
          · subst heq
            rw [List.getElem?_set_self hlt, Option.some.injEq] at hp
            subst hp
            exact hs.rest
          · rw [List.getElem?_set_ne (Ne.symm heq)] at hp
            exact (h.threads i p hp).keeps (hs.keeps i heq hi)
        · rw [List.getElem?_append_right (by simpa using Nat.le_of_not_lt hi), List.length_set] at hp
          have hsum : w.threads.length + (i - w.threads.length) = i := by omega
          rw [← hsum]
          exact hs.forked _ p hp
    · exact hstay
  · exact hstay

-- Every run of the system performs permitted actions only, and keeps the invariant.
theorem follows_run (hcalls : L.CallsHold) (inputs : List (SystemInput ι κ)) :
    L.monitor.Follows L.Tracks sys.initial (sys.machine.run inputs) := by
  have hinit : L.Tracks sys.machine.initial L.monitor.initial :=
    ⟨⟨L.inv_initial, fun i _ => L.fresh_initial i, fun i p hp => by
      simp [System.machine] at hp⟩, rfl⟩
  refine Monitor.follows_run sys.machine L.monitor hinit (fun w s input hw => ?_) inputs
  obtain ⟨hsane, rfl⟩ := hw
  cases input with
  | call c => exact sane_call hcalls hsane c
  | answer thread answer => exact sane_answer hsane thread answer

/-! ## Rules for tasks -/

variable {ε β γ : Type}

/-- From `P`, the task performs permitted actions only, and where it returns or throws, `Q` holds. -/
def Triple (L : Logic sys) (i : Nat) (P : σ → Prop) (t : Async σ α ρ ι ε β)
    (Q : Except ε β → σ → Prop) : Prop :=
  ∀ fresh s k, L.Inv s → L.FreshFrom fresh s → i < fresh → P s →
    (∀ fresh s r, L.Inv s → L.FreshFrom fresh s → i < fresh → Q r s → L.Holds i (k r) fresh s) →
    L.Holds i (t k) fresh s

variable {i : Nat} {P W : σ → Prop} {Q Q' : Except ε β → σ → Prop}

theorem Triple.weaken {t : Async σ α ρ ι ε β} (h : L.Triple i W t Q') (hpre : ∀ s, P s → W s)
    (hpost : ∀ r s, Q' r s → Q r s) : L.Triple i P t Q :=
  fun fresh s k hinv hfresh hi hp hk =>
    h fresh s k hinv hfresh hi (hpre s hp) fun fresh s r hinv hfresh hi hq =>
      hk fresh s r hinv hfresh hi (hpost r s hq)

-- The invariant holds wherever a task returns or throws.
theorem Triple.with_inv {t : Async σ α ρ ι ε β} (h : L.Triple i P t Q) :
    L.Triple i P t fun r s => L.Inv s ∧ Q r s :=
  fun fresh s k hinv hfresh hi hp hk =>
    h fresh s k hinv hfresh hi hp fun fresh s r hinv hfresh hi hq =>
      hk fresh s r hinv hfresh hi ⟨hinv, hq⟩

theorem Triple.pure {b : β} (h : ∀ s, P s → Q (.ok b) s) :
    L.Triple i P (pure b : Async σ α ρ ι ε β) Q :=
  fun fresh s _ hinv hfresh hi hp hk => hk fresh s (.ok b) hinv hfresh hi (h s hp)

theorem Triple.throw {e : ε} (h : ∀ s, P s → Q (.error e) s) :
    L.Triple i P (throw e : Async σ α ρ ι ε β) Q :=
  fun fresh s _ hinv hfresh hi hp hk => hk fresh s (.error e) hinv hfresh hi (h s hp)

theorem Triple.ofExcept {r : Except ε β} (h : ∀ s, P s → Q r s) :
    L.Triple i P (Async.ofExcept r : Async σ α ρ ι ε β) Q :=
  fun fresh s _ hinv hfresh hi hp hk => hk fresh s r hinv hfresh hi (h s hp)

theorem Triple.bind {t : Async σ α ρ ι ε β} {f : β → Async σ α ρ ι ε γ} {R : Except ε γ → σ → Prop}
    (ht : L.Triple i P t Q) (hf : ∀ b, L.Triple i (Q (.ok b)) (f b) R)
    (herror : ∀ e s, Q (.error e) s → R (.error e) s) : L.Triple i P (t >>= f) R := by
  intro fresh s k hinv hfresh hi hp hk
  refine ht fresh s _ hinv hfresh hi hp fun fresh s r hinv hfresh hi hq => ?_
  cases r with
  | ok b => exact hf b fresh s k hinv hfresh hi hq hk
  | error e => exact hk fresh s (.error e) hinv hfresh hi (herror e s hq)

theorem Triple.tryCatch {t : Async σ α ρ ι ε β} {handler : ε → Async σ α ρ ι ε β}
    {R : Except ε β → σ → Prop} (ht : L.Triple i P t Q)
    (hhandler : ∀ e, L.Triple i (Q (.error e)) (handler e) R)
    (hok : ∀ b s, Q (.ok b) s → R (.ok b) s) : L.Triple i P (tryCatch t handler) R := by
  intro fresh s k hinv hfresh hi hp hk
  refine ht fresh s _ hinv hfresh hi hp fun fresh s r hinv hfresh hi hq => ?_
  cases r with
  | ok b => exact hk fresh s (.ok b) hinv hfresh hi (hok b s hq)
  | error e => exact hhandler e fresh s k hinv hfresh hi hq hk

theorem Triple.attempt {t : Async σ α ρ ι ε β} {R : Except ε (Except ε β) → σ → Prop}
    (ht : L.Triple i P t Q) (h : ∀ r s, Q r s → R (.ok r) s) : L.Triple i P t.attempt R := by
  intro fresh s k hinv hfresh hi hp hk
  exact ht fresh s _ hinv hfresh hi hp fun fresh s r hinv hfresh hi hq =>
    hk fresh s (.ok r) hinv hfresh hi (h r s hq)

theorem Triple.get {Q : Except ε σ → σ → Prop} (h : ∀ s, L.Inv s → P s → Q (.ok s) s) :
    L.Triple i P (Async.get : Async σ α ρ ι ε σ) Q :=
  fun fresh s _ hinv hfresh hi hp hk => hk fresh s (.ok s) hinv hfresh hi (h s hinv hp)

theorem Triple.perform {a : α} {Q : Except ε Unit → σ → Prop} (hactor : L.actor a = i)
    (h : ∀ s, L.Inv s → P s → L.permits s a ∧ Q (.ok ()) (sys.record s a)) :
    L.Triple i P (Async.perform a : Async σ α ρ ι ε Unit) Q := by
  intro fresh s k hinv hfresh hi hp hk
  obtain ⟨hpermits, hq⟩ := h s hinv hp
  have hfresh' : L.FreshFrom fresh (sys.record s a) := fun j hj =>
    L.fresh_keeps (L.keeps_record hinv hpermits (by omega)) (hfresh j hj)
  exact ⟨hactor, hpermits, hk fresh _ _ (L.inv_record hinv hpermits) hfresh' hi hq⟩

theorem Triple.await {request : ρ} {Q : Except ε ι → σ → Prop}
    (hparked : ∀ s next, L.Inv s → P s → L.Parked s i request next)
    (h : ∀ s s' answer, P s → L.Keeps i s s' → L.Inv s' → sys.accepts s' i request answer = true →
      Q (.ok answer) s') : L.Triple i P (Async.await request : Async σ α ρ ι ε ι) Q := by
  intro fresh s k hinv hfresh hi hp hk
  refine ⟨hparked s _ hinv hp, ?_⟩
  intro s' fresh' answer hkeeps hinv' hfresh' hi' haccepts
  exact hk fresh' s' (.ok answer) hinv' hfresh' hi' (h s s' answer hp hkeeps hinv' haccepts)

-- The state that is read is the one in which the task goes on.
theorem Triple.get_bind {f : σ → Async σ α ρ ι ε γ} {R : Except ε γ → σ → Prop}
    (hf : ∀ s, L.Inv s → P s → L.Triple i (· = s) (f s) R) :
    L.Triple i P (Async.get >>= f) R :=
  fun fresh s k hinv hfresh hi hp hk => hf s hinv hp fresh s k hinv hfresh hi rfl hk

-- A result that is known in front of a task.
theorem Triple.ofExcept_bind {r : Except ε β} {f : β → Async σ α ρ ι ε γ}
    {R : Except ε γ → σ → Prop} (hf : ∀ b, r = .ok b → L.Triple i P (f b) R)
    (herror : ∀ e s, r = .error e → P s → R (.error e) s) :
    L.Triple i P (Async.ofExcept r >>= f) R := by
  cases r with
  | ok b => exact hf b rfl
  | error e =>
    have hthrow : L.Triple i P (Async.ofExcept (.error e) : Async σ α ρ ι ε γ) R :=
      .ofExcept fun s => herror e s rfl
    exact hthrow

-- A task goes on with the result of an attempt, whichever it is.
theorem Triple.attempt_bind {t : Async σ α ρ ι ε β} {f : Except ε β → Async σ α ρ ι ε γ}
    {R : Except ε γ → σ → Prop} (ht : L.Triple i P t Q) (hf : ∀ r, L.Triple i (Q r) (f r) R) :
    L.Triple i P (t.attempt >>= f) R := by
  intro fresh s k hinv hfresh hi hp hk
  exact ht fresh s _ hinv hfresh hi hp fun fresh s r hinv hfresh hi hq =>
    hf r fresh s k hinv hfresh hi hq hk

-- An action in front of another task.
theorem Triple.perform_bind {a : α} {f : Unit → Async σ α ρ ι ε γ} {R : Except ε γ → σ → Prop}
    (hactor : L.actor a = i)
    (h : ∀ s, L.Inv s → P s → L.permits s a ∧ W (sys.record s a))
    (hf : L.Triple i W (f ()) R) : L.Triple i P (Async.perform a >>= f) R := by
  refine .bind (Q := fun r s => r = .ok () ∧ W s) (.perform hactor fun s hinv hs => ?_)
    (fun _ => hf.weaken (fun _ hs => hs.2) fun _ _ hr => hr) ?_
  · obtain ⟨hpermits, hw⟩ := h s hinv hs
    exact ⟨hpermits, rfl, hw⟩
  · rintro e s ⟨herror, -⟩
    cases herror

-- A fact about the state that does not depend on it.
theorem Triple.assume {c : Prop} {t : Async σ α ρ ι ε β} (h : c → L.Triple i P t Q) :
    L.Triple i (fun s => c ∧ P s) t Q :=
  fun fresh s k hinv hfresh hi hp hk => h hp.1 fresh s k hinv hfresh hi hp.2 hk

-- A case distinction in a task.
theorem Triple.ite {c : Prop} [Decidable c] {t u : Async σ α ρ ι ε β}
    (ht : c → L.Triple i P t Q) (hu : ¬ c → L.Triple i P u Q) :
    L.Triple i P (if c then t else u) Q := by
  by_cases hc : c
  · rw [if_pos hc]
    exact ht hc
  · rw [if_neg hc]
    exact hu hc

/-! ### Tasks that read and wait -/

/-- What the others do leaves an assertion as it is. -/
def Stable (L : Logic sys) (i : Nat) (A : σ → Prop) : Prop := ∀ s s', L.Keeps i s s' → A s → A s'

theorem Stable.and {A B : σ → Prop} (hA : L.Stable i A) (hB : L.Stable i B) :
    L.Stable i fun s => A s ∧ B s :=
  fun s s' hkeeps hs => ⟨hA s s' hkeeps hs.1, hB s s' hkeeps hs.2⟩

/-- A task that leaves every stable assertion as it is. -/
def Quiet (L : Logic sys) (i : Nat) (t : Async σ α ρ ι ε β) : Prop :=
  ∀ A, L.Stable i A → L.Triple i A t fun _ => A

theorem Quiet.pure (b : β) : L.Quiet i (pure b : Async σ α ρ ι ε β) :=
  fun _ _ => .pure fun _ hs => hs

theorem Quiet.throw (e : ε) : L.Quiet i (throw e : Async σ α ρ ι ε β) :=
  fun _ _ => .throw fun _ hs => hs

theorem Quiet.ofExcept (r : Except ε β) : L.Quiet i (Async.ofExcept r : Async σ α ρ ι ε β) :=
  fun _ _ => .ofExcept fun _ hs => hs

theorem Quiet.bind {t : Async σ α ρ ι ε β} {f : β → Async σ α ρ ι ε γ} (ht : L.Quiet i t)
    (hf : ∀ b, L.Quiet i (f b)) : L.Quiet i (t >>= f) :=
  fun A hA => .bind (ht A hA) (fun b => hf b A hA) fun _ _ hs => hs

theorem Quiet.tryCatch {t : Async σ α ρ ι ε β} {handler : ε → Async σ α ρ ι ε β}
    (ht : L.Quiet i t) (hhandler : ∀ e, L.Quiet i (handler e)) :
    L.Quiet i (tryCatch t handler) :=
  fun A hA => .tryCatch (ht A hA) (fun e => hhandler e A hA) fun _ _ hs => hs

theorem Quiet.get_bind {f : σ → Async σ α ρ ι ε γ} (hf : ∀ s, L.Quiet i (f s)) :
    L.Quiet i (Async.get >>= f) :=
  fun A hA => .bind (Q := fun _ => A) (.get fun _ _ hs => hs) (fun s => hf s A hA)
    fun _ _ hs => hs

theorem Quiet.await {request : ρ} (hparked : ∀ s next, L.Inv s → L.Parked s i request next) :
    L.Quiet i (Async.await request : Async σ α ρ ι ε ι) :=
  fun _ hA => .await (fun s next hinv _ => hparked s next hinv)
    fun s s' _ hs hkeeps _ _ => hA s s' hkeeps hs

-- An await whose answer does not matter, in front of another task.
theorem Triple.await_bind {request : ρ} {f : ι → Async σ α ρ ι ε γ} {R : Except ε γ → σ → Prop}
    (hparked : ∀ s next, L.Inv s → L.Parked s i request next) (hP : L.Stable i P)
    (hf : ∀ answer, L.Triple i P (f answer) R) :
    L.Triple i P (Async.await request >>= f) R := by
  refine .bind (Q := fun r s => (∃ answer, r = .ok answer) ∧ P s)
    (.await (fun s next hinv _ => hparked s next hinv)
      fun s s' answer hs hkeeps _ _ => ⟨⟨answer, rfl⟩, hP s s' hkeeps hs⟩)
    (fun answer => (hf answer).weaken (fun s hs => hs.2) fun _ _ hr => hr) ?_
  rintro e s ⟨⟨answer, herror⟩, -⟩
  cases herror

-- A quiet task in front of another.
theorem Quiet.bind_triple {t : Async σ α ρ ι ε β} {f : β → Async σ α ρ ι ε γ}
    {R : Except ε γ → σ → Prop} (ht : L.Quiet i t) (hP : L.Stable i P)
    (hf : ∀ b, L.Triple i P (f b) R) (herror : ∀ e s, P s → R (.error e) s) :
    L.Triple i P (t >>= f) R :=
  .bind (ht P hP) hf herror

-- A thread whose task ends where it may halt.
theorem Triple.toProgram {t : Async σ α ρ ι ε Unit} {Q : Except ε Unit → σ → Prop}
    (h : L.Triple i P t Q) (hend : ∀ r s, Q r s → L.Halted s i) {fresh : Nat} {s : σ}
    (hinv : L.Inv s) (hfresh : L.FreshFrom fresh s) (hi : i < fresh) (hp : P s) :
    L.Holds i t.toProgram fresh s :=
  h fresh s _ hinv hfresh hi hp fun _ s r _ _ _ hq => hend r s hq

-- A new thread that runs up to its first await, and what it leaves to the one that has started it.
theorem Triple.fork {child : Nat → Async σ α ρ ι ε Unit} {Q : Except ε Nat → σ → Prop}
    (hchild : ∀ k, L.Triple k (fun s => L.Fresh s k ∧ P s) (child k) fun _ s => L.Halted s k)
    (h : ∀ k s s', P s → s' = ((child k).toProgram.run sys.record (k + 1) s).state →
      L.Keeps i s s' → L.Inv s' → Q (.ok k) s') :
    L.Triple i P (Async.fork fun k => (child k).toProgram) Q := by
  intro fresh s k hinv hfresh hi hp hk
  have hfresh' : L.FreshFrom (fresh + 1) s := fun j hj => hfresh j (by omega)
  have hholds : L.Holds fresh (child fresh).toProgram (fresh + 1) s :=
    (hchild fresh).toProgram (fun _ _ hs => hs) hinv hfresh' (Nat.lt_succ_self fresh)
      ⟨hfresh fresh (Nat.le_refl fresh), hp⟩
  have hfirst := hholds.sound hinv hfresh' (Nat.lt_succ_self fresh)
  have hkeeps := hfirst.keeps i (by omega) (by omega)
  exact ⟨hholds, hk _ _ (.ok fresh) hfirst.inv hfirst.unused (by omega)
    (h fresh s _ hp rfl hkeeps hfirst.inv)⟩

end Logic

end Core
