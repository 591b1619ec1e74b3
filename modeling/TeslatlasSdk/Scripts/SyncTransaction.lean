import TeslatlasSdk.Scripts.SyncProtocol

/-!
# The phases of a transaction

Before its journal is committed every original is at its path or in its backup, and a path that had
no original is told from one that was left alone by what is still staged for it.  Afterwards every
path has what was staged for it.  Each operation keeps its phase, but for the rename that commits.
-/

open Text Core Json

namespace Scripts

variable {γ : Type}

/-- What the journal on disk says. -/
def Tree.journalState (tree : Tree γ) : Option JournalState :=
  match tree.journal.map parseJournal with
  | some (.ok value) =>
      match value.child (js "state") with
      | some (.leaf (.string text)) => Scripts.journalState text
      | _ => none
  | _ => none

/-- A synchronization under way: what stood at the paths before, what is staged for them and where,
and how much had been done when it began. -/
structure Transaction (γ : Type) where
  original : ReplacementPath → Option (Node γ)
  staged : ReplacementPath → Option (Node γ)
  root : JsString
  owner : Pid
  since : Nat

namespace Transaction

variable (T : Transaction γ)

def entry (path : ReplacementPath) : JournalEntry :=
  { path, originallyPresent := (T.original path).isSome }

def journal (state : JournalState) : Journal :=
  { state, ownerPid := T.owner, stageRoot := T.root, entries := replacementPaths.map T.entry }

def HasJournal (state : JournalState) (tree : Tree γ) : Prop :=
  ∃ bytes, tree.journal = some bytes ∧ Holds (T.journal state) bytes

/-- Recovery will find the original of a path. -/
def Restorable (tree : Tree γ) (path : ReplacementPath) : Prop :=
  match T.original path with
  | some original =>
      tree.node (.backup T.root path) = some original ∨
        tree.node (.backup T.root path) = none ∧ tree.node (.target path) = some original
  | none =>
      tree.node (.backup T.root path) = none ∧
        (tree.node (.staged T.root path) ≠ none → tree.node (.target path) = none)

structure Prepared (tree : Tree γ) : Prop where
  journal : T.HasJournal .prepared tree
  parents : ∀ path : ReplacementPath, tree.parent path.parent = some .directory
  kinds : ∀ path node, T.original path = some node → node.kind = path.kind
  staging : (tree.staging T.root).isSome = true
  restorable : ∀ path, T.Restorable tree path

def IsOriginal (tree : Tree γ) : Prop := ∀ path, tree.node (.target path) = T.original path

def IsReplaced (tree : Tree γ) : Prop :=
  ∀ path, ∃ node, T.staged path = some node ∧ tree.node (.target path) = some node

def Phase (committed : Bool) (tree : Tree γ) : Prop :=
  if committed then (tree.journal = none ∨ T.HasJournal .committed tree) ∧ T.IsReplaced tree
  else (tree.journal = none ∧ T.IsOriginal tree) ∨ T.Prepared tree

end Transaction

/-- While the journal says that a transaction is prepared, a backup stays or is put back. -/
def KeepsBackups (before after : Tree γ) : Prop :=
  before.journalState = some .prepared → ∀ root path node,
    before.node (.backup root path) = some node →
      after.node (.backup root path) = some node ∨ after.node (.target path) = some node

abbrev SyncStep (γ : Type) := Step (FileOperation γ) (Tree γ) (Leftover γ)

abbrev SyncPast (γ : Type) := Past (FileOperation γ) (Tree γ) (Leftover γ)

/-- A journal that is created is not left without its closing brace. -/
def createsWhole (operation : FileOperation γ) (before after : Tree γ) : Bool :=
  match operation with
  | .createJournal text =>
      before.journal.isSome || after.journal.all fun bytes =>
        (utf8Encode text).length ≤ bytes.length + 1
  | _ => true

namespace Transaction

variable (T : Transaction γ)

/-- The journal has been seen to be committed. -/
def Committed (w : SyncPast γ) : Prop :=
  ∃ step ∈ w.steps.drop T.since, step.after.journalState = some .committed

/-- What holds of the past of a transaction whose journal has, or has not, been committed. -/
structure At (committed : Bool) (Φ : Tree γ → Prop) (w : SyncPast γ) : Prop where
  begun : T.since ≤ w.steps.length
  backups : ∀ step ∈ w.steps.drop T.since, KeepsBackups step.before step.after
  committed_iff : T.Committed w ↔ committed = true
  state : Φ w.state

def Sound (w : SyncPast γ) : Prop := ∃ committed, T.At committed (T.Phase committed) w

/-- Journals are created whole and, where the run is smooth, every operation is carried out. -/
def logic (host : Host) (smooth : Bool) : CrashLogic (files (γ := γ) host) where
  assumed step := createsWhole step.operation step.before step.after = true ∧
    (smooth = true → step.fate = .done)
  always := T.Sound

variable {T}

/-! ## What the journal says -/

theorem HasJournal.parse {state : JournalState} {tree : Tree γ} (h : T.HasJournal state tree) :
    ∃ bytes, tree.journal = some bytes ∧
      parseJournal bytes = .ok (parsed (T.journal state).record) := by
  obtain ⟨bytes, hbytes, hholds⟩ := h
  exact ⟨bytes, hbytes, parseJournal_of_holds hholds⟩

theorem HasJournal.journalState {state : JournalState} {tree : Tree γ}
    (h : T.HasJournal state tree) : tree.journalState = some state := by
  obtain ⟨bytes, hbytes, hparse⟩ := h.parse
  have hchild : (parsed (T.journal state).record).child (js "state") =
      some (.leaf (.string state.text)) := by
    rw [child_parsed]
    rfl
  rw [Tree.journalState, hbytes, Option.map_some, hparse]
  simp only [hchild]
  exact journalState_text state

theorem journalState_of_none {tree : Tree γ} (h : tree.journal = none) :
    tree.journalState = none := by
  rw [Tree.journalState, h]
  rfl

theorem Phase.not_committed {tree : Tree γ} (h : T.Phase false tree) :
    tree.journalState ≠ some .committed := by
  rcases h with ⟨hnone, -⟩ | hprepared
  · rw [journalState_of_none hnone]
    simp
  · rw [hprepared.journal.journalState]
    simp

theorem map_path_entries : (T.journal .prepared).entries.map (·.path) = replacementPaths := by
  rw [journal, List.map_map]
  exact List.map_id _

/-! ## One step -/

theorem committed_record {w : SyncPast γ} (hbegun : T.since ≤ w.steps.length)
    (operation : FileOperation γ) (fate : Fate (Leftover γ)) (s : Tree γ) :
    T.Committed (w.record operation fate s) ↔
      T.Committed w ∨ s.journalState = some .committed := by
  simp only [Committed, Past.record, List.drop_append_of_le_length hbegun, List.mem_append,
    List.mem_singleton]
  constructor
  · rintro ⟨step, hstep | rfl, h⟩
    · exact .inl ⟨step, hstep, h⟩
    · exact .inr h
  · rintro (⟨step, hstep, h⟩ | h)
    · exact ⟨step, .inl hstep, h⟩
    · exact ⟨_, .inr rfl, h⟩

theorem At.extend {committed later : Bool} {Φ Ψ : Tree γ → Prop} {w : SyncPast γ}
    (h : T.At committed Φ w) {operation : FileOperation γ} {fate : Fate (Leftover γ)} {s : Tree γ}
    (hlater : (committed = true ∨ s.journalState = some .committed) ↔ later = true)
    (hbackups : KeepsBackups w.state s) (hs : Ψ s) :
    T.At later Ψ (w.record operation fate s) where
  begun := by
    have := h.begun
    rw [Past.record, List.length_append]
    omega
  backups := by
    intro step hstep
    simp only [Past.record, List.drop_append_of_le_length h.begun, List.mem_append,
      List.mem_singleton] at hstep
    rcases hstep with hstep | rfl
    · exact h.backups step hstep
    · exact hbackups
  committed_iff := by
    rw [committed_record h.begun, h.committed_iff]
    exact hlater
  state := hs

-- A step that keeps the backups and the phase.
theorem At.record {committed : Bool} {Φ Ψ : Tree γ → Prop} {w : SyncPast γ}
    (h : T.At committed Φ w) {operation : FileOperation γ} {fate : Fate (Leftover γ)} {s : Tree γ}
    (hphase : T.Phase committed s) (hbackups : KeepsBackups w.state s) (hs : Ψ s) :
    T.At committed Ψ (w.record operation fate s) := by
  refine h.extend ?_ hbackups hs
  cases committed with
  | true => simp
  | false => simpa using hphase.not_committed

theorem At.sound {committed : Bool} {Φ : Tree γ → Prop} {w : SyncPast γ} (h : T.At committed Φ w)
    (hphase : Φ w.state → T.Phase committed w.state) : T.Sound w :=
  ⟨committed, h.begun, h.backups, h.committed_iff, hphase h.state⟩

theorem At.imp {committed : Bool} {Φ Ψ : Tree γ → Prop} {w : SyncPast γ} (h : T.At committed Φ w)
    (himp : Φ w.state → Ψ w.state) : T.At committed Ψ w :=
  ⟨h.begun, h.backups, h.committed_iff, himp h.state⟩

theorem KeepsBackups.of_nodes {before after : Tree γ}
    (h : ∀ root path, after.node (.backup root path) = before.node (.backup root path)) :
    KeepsBackups before after := by
  intro _ root path node hnode
  rw [h]
  exact .inl hnode

theorem KeepsBackups.of_journal {before after : Tree γ}
    (h : before.journalState ≠ some .prepared) : KeepsBackups before after :=
  fun hprepared => absurd hprepared h

/-! ## Specifications -/

/-- After a result, or after an error, which leaves the phase as it is and is none of a smooth
run. -/
def Post {β : Type} (T : Transaction γ) (smooth committed : Bool) (Ψ : β → Tree γ → Prop) :
    Except SyncError β → SyncPast γ → Prop
  | .ok b, w => T.At committed (Ψ b) w
  | .error _, w => T.At committed (T.Phase committed) w ∧ smooth = false

def Spec {β : Type} (T : Transaction γ) (host : Host) (smooth committed : Bool)
    (Φ : Tree γ → Prop) (t : Sync γ β) (Ψ : β → Tree γ → Prop) : Prop :=
  (T.logic host smooth).Triple (T.At committed Φ) t (T.Post smooth committed Ψ)

variable {host : Host} {smooth committed : Bool} {Φ : Tree γ → Prop} {β δ : Type}

theorem Spec.pure {Ψ : β → Tree γ → Prop} {b : β} (h : ∀ tree, Φ tree → Ψ b tree) :
    T.Spec host smooth committed Φ (pure b) Ψ :=
  CrashLogic.triple_ended fun w hw => hw.imp (h w.state)

theorem Spec.bind {t : Sync γ β} {f : β → Sync γ δ} {Ψ : β → Tree γ → Prop}
    {Χ : δ → Tree γ → Prop} (h : T.Spec host smooth committed Φ t Ψ)
    (hf : ∀ b, T.Spec host smooth committed (Ψ b) (f b) Χ) :
    T.Spec host smooth committed Φ (t >>= f) Χ :=
  CrashLogic.Triple.bind h hf fun _ _ hw => hw

theorem Spec.weaken {t : Sync γ β} {Φ' : Tree γ → Prop} {Ψ Ψ' : β → Tree γ → Prop}
    (h : T.Spec host smooth committed Φ t Ψ) (hpre : ∀ tree, Φ' tree → Φ tree)
    (hpost : ∀ b tree, Ψ b tree → Ψ' b tree) : T.Spec host smooth committed Φ' t Ψ' := by
  refine CrashLogic.Triple.weaken h (fun w hw => hw.imp (hpre w.state)) fun result w hw => ?_
  cases result with
  | ok b => exact At.imp hw (hpost b w.state)
  | error e => exact hw

-- What follows from the precondition alone may be used in the proof.
theorem Spec.assume {t : Sync γ β} {Ψ : β → Tree γ → Prop} {p : Prop} (h : ∀ tree, Φ tree → p)
    (ht : p → T.Spec host smooth committed Φ t Ψ) : T.Spec host smooth committed Φ t Ψ :=
  fun fates w hw => ht (h w.state hw.state) fates w hw

theorem Spec.ok {b : β} {f : β → Sync γ δ} {Χ : δ → Tree γ → Prop}
    (h : T.Spec host smooth committed Φ (f b) Χ) :
    T.Spec host smooth committed Φ (Script.ofExcept (.ok b) >>= f) Χ := h

theorem Spec.ofExcept {x : Except SyncError β} {Ψ : β → Tree γ → Prop}
    (hok : ∀ b tree, x = .ok b → Φ tree → Ψ b tree)
    (hphase : ∀ tree, Φ tree → T.Phase committed tree)
    (hable : smooth = true → ∀ tree, Φ tree → ∃ b, x = .ok b) :
    T.Spec host smooth committed Φ (Script.ofExcept x) Ψ := by
  cases x with
  | ok b => exact Spec.pure fun tree h => hok b tree rfl h
  | error e =>
    refine CrashLogic.triple_ended fun w hw => ⟨hw.imp (hphase w.state), ?_⟩
    refine Bool.eq_false_iff.mpr fun hsmooth => ?_
    obtain ⟨b, hb⟩ := hable hsmooth w.state hw.state
    cases hb

/-- A smooth run carries the operation out. -/
def Able (host : Host) (smooth : Bool) (Φ : Tree γ → Prop) (operation : FileOperation γ) : Prop :=
  smooth = true → ∀ tree, Φ tree →
    ∃ answer s, performFile host operation tree = .ok (answer, s)

theorem Spec.operate {operation : FileOperation γ} {Ψ : Answer operation → Tree γ → Prop}
    (hdone : ∀ tree answer s, Φ tree → performFile host operation tree = .ok (answer, s) →
      createsWhole operation tree s = true →
      Ψ answer s ∧ T.Phase committed s ∧ KeepsBackups tree s)
    (hphase : ∀ tree, Φ tree → T.Phase committed tree)
    (hable : Able host smooth Φ operation)
    (hleft : ∀ tree left, Φ tree →
      createsWhole operation tree (leaveFile host operation left tree) = true →
      T.Phase committed (leaveFile host operation left tree) ∧
        KeepsBackups tree (leaveFile host operation left tree)) :
    T.Spec host smooth committed Φ (operate operation) Ψ := by
  refine CrashLogic.triple_operate ?_ ?_ ?_ ?_
  · intro w answer s hw hperform hassumed
    obtain ⟨hs, hs', hbackups⟩ := hdone w.state answer s hw.state hperform hassumed.1
    exact hw.record hs' hbackups hs
  · intro w e hw hrefused
    have hw' := hphase w.state hw.state
    refine ⟨hw.record hw' (KeepsBackups.of_nodes fun _ _ => rfl) hw', ?_⟩
    refine Bool.eq_false_iff.mpr fun hsmooth => ?_
    obtain ⟨answer, s, hperform⟩ := hable hsmooth w.state hw.state
    have hboth := hrefused.symm.trans hperform
    cases hboth
  · intro w left hw hassumed
    obtain ⟨hs, hbackups⟩ := hleft w.state left hw.state hassumed.1
    refine ⟨hw.record hs hbackups hs, Bool.eq_false_iff.mpr fun hsmooth => ?_⟩
    cases hassumed.2 hsmooth
  · intro w left hw hassumed
    obtain ⟨hs, hbackups⟩ := hleft w.state left hw.state hassumed.1
    exact (hw.record hs hbackups hs).sound id

theorem Spec.command {operation : FileOperation γ} {Ψ : Tree γ → Prop}
    (hdone : ∀ tree answer s, Φ tree → performFile host operation tree = .ok (answer, s) →
      createsWhole operation tree s = true →
      Ψ s ∧ T.Phase committed s ∧ KeepsBackups tree s)
    (hphase : ∀ tree, Φ tree → T.Phase committed tree)
    (hable : Able host smooth Φ operation)
    (hleft : ∀ tree left, Φ tree →
      createsWhole operation tree (leaveFile host operation left tree) = true →
      T.Phase committed (leaveFile host operation left tree) ∧
        KeepsBackups tree (leaveFile host operation left tree)) :
    T.Spec host smooth committed Φ (command operation) fun _ => Ψ :=
  (Spec.operate hdone hphase hable hleft).bind fun _ => Spec.pure fun _ h => h

end Transaction

/-- Operations that look at the tree only. -/
def FileOperation.isQuery : FileOperation γ → Bool
  | .requireRoot => true
  | .readInputs => true
  | .realTemporaryRoot => true
  | .requireParent _ => true
  | .requireStaging _ => true
  | .pathExists _ => true
  | .requireKind _ _ => true
  | .journalExists => true
  | .requireJournal => true
  | .readJournal => true
  | .processIsAlive _ => true
  | .failpoint => true
  | _ => false

theorem ensure_map {α : Type} {condition : Bool} {a b : α}
    (h : ((ensure condition).map fun _ => a) = .ok b) : condition = true ∧ a = b := by
  cases condition with
  | true => exact ⟨rfl, Except.ok.inj h⟩
  | false => cases h

theorem query_perform {host : Host} {operation : FileOperation γ} (hquery : operation.isQuery = true)
    {tree s : Tree γ} {answer : Answer operation}
    (h : performFile host operation tree = .ok (answer, s)) : s = tree := by
  cases operation with
  | requireRoot | realTemporaryRoot | pathExists | journalExists | processIsAlive | failpoint =>
    exact (Prod.mk.inj (Except.ok.inj h)).2.symm
  | readInputs =>
    rw [performFile] at h
    split at h
    · exact (Prod.mk.inj (Except.ok.inj h)).2.symm
    · cases h
  | requireParent | requireStaging | requireKind | requireJournal =>
    exact (Prod.mk.inj (ensure_map h).2).2.symm
  | readJournal =>
    rw [performFile] at h
    cases hjournal : tree.journal with
    | none =>
      rw [hjournal] at h
      cases h
    | some bytes =>
      rw [hjournal] at h
      exact (Prod.mk.inj (Except.ok.inj h)).2.symm
  | _ => cases hquery

/-- Operations that take place as a whole or not at all. -/
def FileOperation.isWhole : FileOperation γ → Bool
  | .stageInputs _ _ => false
  | .remove _ => false
  | .removeStaging _ => false
  | .createJournal _ => false
  | .createNext _ => false
  | _ => true

theorem FileOperation.isWhole_of_isQuery {operation : FileOperation γ}
    (hquery : operation.isQuery = true) : operation.isWhole = true := by
  cases operation with
  | stageInputs | remove | removeStaging | createJournal | createNext => cases hquery
  | _ => rfl

theorem leave_of_isWhole {host : Host} {operation : FileOperation γ}
    (hwhole : operation.isWhole = true) (left : Leftover γ) (tree : Tree γ) :
    leaveFile host operation left tree = tree ∨
      ∃ answer, performFile host operation tree =
        .ok (answer, leaveFile host operation left tree) := by
  cases operation with
  | stageInputs | remove | removeStaging | createJournal | createNext => cases hwhole
  | _ =>
    unfold leaveFile
    dsimp only
    split
    · split
      · next answer s hs => exact .inr ⟨answer, hs⟩
      · exact .inl rfl
    · exact .inl rfl

namespace Transaction

variable {T : Transaction γ} {host : Host} {smooth committed : Bool} {Φ : Tree γ → Prop}

theorem Spec.whole {operation : FileOperation γ} {Ψ : Answer operation → Tree γ → Prop}
    (hwhole : operation.isWhole = true) (hphase : ∀ tree, Φ tree → T.Phase committed tree)
    (hable : Able host smooth Φ operation)
    (hdone : ∀ tree answer s, Φ tree → performFile host operation tree = .ok (answer, s) →
      Ψ answer s ∧ T.Phase committed s ∧ KeepsBackups tree s) :
    T.Spec host smooth committed Φ (Scripts.operate operation) Ψ := by
  refine Spec.operate (fun tree answer s htree hperform _ => hdone tree answer s htree hperform)
    hphase hable ?_
  intro tree left htree _
  rcases leave_of_isWhole hwhole left tree with hleft | ⟨answer, hleft⟩
  · rw [hleft]
    exact ⟨hphase tree htree, KeepsBackups.of_nodes fun _ _ => rfl⟩
  · exact (hdone tree answer _ htree hleft).2

theorem Spec.wholeCommand {operation : FileOperation γ} {Ψ : Tree γ → Prop}
    (hwhole : operation.isWhole = true) (hphase : ∀ tree, Φ tree → T.Phase committed tree)
    (hable : Able host smooth Φ operation)
    (hdone : ∀ tree answer s, Φ tree → performFile host operation tree = .ok (answer, s) →
      Ψ s ∧ T.Phase committed s ∧ KeepsBackups tree s) :
    T.Spec host smooth committed Φ (Scripts.command operation) fun _ => Ψ :=
  (Spec.whole hwhole hphase hable hdone).bind fun _ => Spec.pure fun _ h => h

theorem Spec.query {operation : FileOperation γ} (hquery : operation.isQuery = true)
    (hphase : ∀ tree, Φ tree → T.Phase committed tree) (hable : Able host smooth Φ operation) :
    T.Spec host smooth committed Φ (Scripts.operate operation) fun answer tree =>
      Φ tree ∧ performFile host operation tree = .ok (answer, tree) := by
  refine Spec.whole (FileOperation.isWhole_of_isQuery hquery) hphase hable ?_
  intro tree answer s htree hperform
  obtain rfl := query_perform hquery hperform
  exact ⟨⟨htree, hperform⟩, hphase s htree, KeepsBackups.of_nodes fun _ _ => rfl⟩

theorem Spec.check {operation : FileOperation γ} (hquery : operation.isQuery = true)
    (hphase : ∀ tree, Φ tree → T.Phase committed tree) (hable : Able host smooth Φ operation) :
    T.Spec host smooth committed Φ (Scripts.command operation) fun _ => Φ :=
  (Spec.query hquery hphase hable).bind fun _ => Spec.pure fun _ h => h.1

theorem Spec.pathExists {place : Place} (hphase : ∀ tree, Φ tree → T.Phase committed tree) :
    T.Spec host smooth committed Φ (Scripts.pathExists place) fun found tree =>
      Φ tree ∧ (tree.node place).isSome = found := by
  have hquery : T.Spec host smooth committed Φ (Scripts.operate (.pathExists place)) _ :=
    Spec.query rfl hphase fun _ tree _ => ⟨_, _, rfl⟩
  exact hquery.weaken (fun _ h => h) fun _ _ h => ⟨h.1, (Prod.mk.inj (Except.ok.inj h.2)).1⟩

theorem Spec.journalExists (hphase : ∀ tree, Φ tree → T.Phase committed tree) :
    T.Spec host smooth committed Φ Scripts.journalExists fun found tree =>
      Φ tree ∧ tree.journal.isSome = found := by
  have hquery : T.Spec host smooth committed Φ (Scripts.operate .journalExists) _ :=
    Spec.query rfl hphase fun _ tree _ => ⟨_, _, rfl⟩
  exact hquery.weaken (fun _ h => h) fun _ _ h => ⟨h.1, (Prod.mk.inj (Except.ok.inj h.2)).1⟩

theorem Spec.readJournalFile (hphase : ∀ tree, Φ tree → T.Phase committed tree)
    (hable : smooth = true → ∀ tree, Φ tree → tree.journal.isSome = true) :
    T.Spec host smooth committed Φ Scripts.readJournalFile fun bytes tree =>
      Φ tree ∧ tree.journal = some bytes := by
  have hread : Able host smooth Φ .readJournal := by
    intro hsmooth tree htree
    obtain ⟨bytes, hbytes⟩ := Option.isSome_iff_exists.mp (hable hsmooth tree htree)
    exact ⟨bytes, tree, by rw [performFile, hbytes]; rfl⟩
  have hquery : T.Spec host smooth committed Φ (Scripts.operate .readJournal) _ :=
    Spec.query rfl hphase hread
  refine hquery.weaken (fun _ h => h) fun bytes tree h => ⟨h.1, ?_⟩
  have hperform := h.2
  rw [performFile] at hperform
  cases hjournal : tree.journal with
  | none =>
    rw [hjournal] at hperform
    cases hperform
  | some found =>
    rw [hjournal] at hperform
    rw [(Prod.mk.inj (Except.ok.inj hperform)).1]

theorem Spec.realTemporaryRoot (hphase : ∀ tree, Φ tree → T.Phase committed tree) :
    T.Spec host smooth committed Φ Scripts.realTemporaryRoot fun root tree =>
      Φ tree ∧ root = host.temporaryRoot := by
  have hquery : T.Spec host smooth committed Φ (Scripts.operate .realTemporaryRoot) _ :=
    Spec.query rfl hphase fun _ tree _ => ⟨_, _, rfl⟩
  exact hquery.weaken (fun _ h => h) fun _ _ h => ⟨h.1, (Prod.mk.inj (Except.ok.inj h.2)).1.symm⟩

theorem Spec.processIsAlive {pid : Pid} (hphase : ∀ tree, Φ tree → T.Phase committed tree) :
    T.Spec host smooth committed Φ (Scripts.processIsAlive pid) fun alive tree =>
      Φ tree ∧ alive = host.alive pid := by
  have hquery : T.Spec host smooth committed Φ (Scripts.operate (.processIsAlive pid)) _ :=
    Spec.query rfl hphase fun _ tree _ => ⟨_, _, rfl⟩
  exact hquery.weaken (fun _ h => h) fun _ _ h => ⟨h.1, (Prod.mk.inj (Except.ok.inj h.2)).1.symm⟩

end Transaction

end Scripts
