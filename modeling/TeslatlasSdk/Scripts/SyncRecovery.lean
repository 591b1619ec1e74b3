import TeslatlasSdk.Scripts.SyncTransaction

/-!
# Recovery keeps the phase

From either phase, recovery ends without a journal or leaves what a later recovery goes on from.
-/

open Text Core Json

namespace Scripts

variable {γ : Type}

namespace Transaction

variable {T : Transaction γ} {host : Host} {smooth committed : Bool} {Φ : Tree γ → Prop}

theorem Spec.each {κ : Type} {body : κ → Sync γ Unit} {items : List κ} {I : List κ → Tree γ → Prop}
    (hbody : ∀ done item later, done ++ item :: later = items →
      T.Spec host smooth committed (I done) (body item) fun _ => I (done ++ [item])) :
    T.Spec host smooth committed (I []) (Script.each body items) fun _ => I items := by
  have hloop := CrashLogic.triple_each (L := T.logic host smooth) body items
    (I := fun done _ => T.At committed (I done))
    (E := fun _ w => T.At committed (T.Phase committed) w ∧ smooth = false)
    fun done item later hitems => by
      refine CrashLogic.Triple.weaken (hbody done item later hitems) (fun w hw => hw) ?_
      intro result w hw
      cases result with
      | ok _ => exact hw
      | error e => exact hw
  refine hloop.weaken (fun w hw => hw) fun result w hw => ?_
  cases result with
  | ok _ => exact hw
  | error e => exact hw

/-! ## Moving and removing -/

theorem perform_rename {source target : Place} {tree s : Tree γ}
    {answer : Answer (FileOperation.rename (γ := γ) source target)}
    (h : performFile host (.rename source target) tree = .ok (answer, s)) :
    tree.rename source target = some s := by
  rw [performFile] at h
  cases hrename : tree.rename source target with
  | none =>
    rw [hrename] at h
    cases h
  | some later =>
    rw [hrename] at h
    rw [(Prod.mk.inj (Except.ok.inj h)).2]

theorem Spec.rename {source target : Place} {Ψ : Tree γ → Prop}
    (hphase : ∀ tree, Φ tree → T.Phase committed tree)
    (hable : smooth = true → ∀ tree, Φ tree → (tree.rename source target).isSome = true)
    (hmoved : ∀ tree s, Φ tree → tree.rename source target = some s →
      Ψ s ∧ T.Phase committed s ∧ KeepsBackups tree s) :
    T.Spec host smooth committed Φ (Scripts.command (.rename source target)) fun _ => Ψ := by
  refine Spec.wholeCommand rfl hphase ?_ fun tree _ s htree hperform =>
    hmoved tree s htree (perform_rename hperform)
  intro hsmooth tree htree
  obtain ⟨s, hs⟩ := Option.isSome_iff_exists.mp (hable hsmooth tree htree)
  exact ⟨(), s, by rw [performFile, hs]; rfl⟩

theorem Spec.removeTarget {path : ReplacementPath} {Ψ : Tree γ → Prop}
    (hphase : ∀ tree, Φ tree → T.Phase committed tree)
    (hput : ∀ tree found, Φ tree → T.Phase committed (tree.put found (.target path)))
    (hnone : ∀ tree, Φ tree → Ψ (tree.put none (.target path))) :
    T.Spec host smooth committed Φ (Scripts.command (.remove (.target path))) fun _ => Ψ := by
  have hbackups : ∀ (tree : Tree γ) found, KeepsBackups tree (tree.put found (.target path)) :=
    fun tree found => KeepsBackups.of_nodes fun root path' => Tree.node_put_ne (by simp)
  refine Spec.command ?_ hphase (fun _ tree _ => ⟨(), _, rfl⟩) ?_
  · intro tree answer s htree hperform _
    obtain rfl := (Prod.mk.inj (Except.ok.inj hperform)).2
    exact ⟨hnone tree htree, hput tree none htree, hbackups tree none⟩
  · intro tree left htree _
    rw [leaveFile]
    split
    · exact ⟨hput tree left.node htree, hbackups tree left.node⟩
    · exact ⟨hphase tree htree, KeepsBackups.of_nodes fun _ _ => rfl⟩

/-! ## One path -/

-- A change at one path keeps the others restorable.
theorem Prepared.elsewhere {tree s : Tree γ} (h : T.Prepared tree) (path : ReplacementPath)
    (hjournal : s.journal = tree.journal) (hparent : s.parent = tree.parent)
    (hstaging : (s.staging T.root).isSome = (tree.staging T.root).isSome)
    (hsame : ∀ place, place.path ≠ path → s.node place = tree.node place)
    (hpath : T.Restorable s path) : T.Prepared s where
  journal := by
    obtain ⟨bytes, hbytes, hholds⟩ := h.journal
    exact ⟨bytes, hjournal.trans hbytes, hholds⟩
  parents := fun path => hparent ▸ h.parents path
  kinds := h.kinds
  staging := hstaging.trans h.staging
  restorable := by
    intro other
    by_cases hother : other = path
    · rw [hother]
      exact hpath
    · have hother' := h.restorable other
      rw [Restorable, ← hsame (.backup T.root other) hother, ← hsame (.target other) hother,
        ← hsame (.staged T.root other) hother] at hother'
      exact hother'

def Restored (T : Transaction γ) (tree : Tree γ) (path : ReplacementPath) : Prop :=
  tree.node (.target path) = T.original path ∧ tree.node (.backup T.root path) = none

/-- The paths that are done stay restored while another one is worked on. -/
structure Restoring (T : Transaction γ) (done : List JournalEntry) (path : ReplacementPath)
    (tree : Tree γ) : Prop where
  prepared : T.Prepared tree
  others : ∀ entry ∈ done, entry.path ≠ path → T.Restored tree entry.path

theorem Restoring.elsewhere {done : List JournalEntry} {path : ReplacementPath} {tree s : Tree γ}
    (h : T.Restoring done path tree) (hjournal : s.journal = tree.journal)
    (hparent : s.parent = tree.parent)
    (hstaging : (s.staging T.root).isSome = (tree.staging T.root).isSome)
    (hsame : ∀ place, place.path ≠ path → s.node place = tree.node place)
    (hpath : T.Restorable s path) : T.Restoring done path s where
  prepared := h.prepared.elsewhere path hjournal hparent hstaging hsame hpath
  others := by
    intro entry hentry hne
    have hother := h.others entry hentry hne
    rw [Restored, ← hsame (.target entry.path) hne, ← hsame (.backup T.root entry.path) hne] at hother
    exact hother

theorem Restoring.putTarget {done : List JournalEntry} {path : ReplacementPath} {tree : Tree γ}
    (h : T.Restoring done path tree) (found : Option (Node γ))
    (hpath : T.Restorable (tree.put found (.target path)) path) :
    T.Restoring done path (tree.put found (.target path)) := by
  refine h.elsewhere Tree.put_journal Tree.put_parent (Tree.put_staging_isSome _) ?_ hpath
  intro place hplace
  exact Tree.node_put_ne fun heq => hplace (by rw [heq]; rfl)

theorem Restoring.done {done : List JournalEntry} {path : ReplacementPath} {tree : Tree γ}
    (h : T.Restoring done path tree) (hpath : T.Restored tree path) :
    T.Prepared tree ∧ ∀ entry ∈ done ++ [T.entry path], T.Restored tree entry.path := by
  refine ⟨h.prepared, fun entry hentry => ?_⟩
  by_cases hne : entry.path = path
  · rw [hne]
    exact hpath
  · rcases List.mem_append.mp hentry with hentry | hentry
    · exact h.others entry hentry hne
    · rw [List.mem_singleton.mp hentry] at hne
      exact absurd rfl hne

/-- The original is in its backup, where it stays until it is put back. -/
def BackedUp (T : Transaction γ) (path : ReplacementPath) (tree : Tree γ) : Prop :=
  ∃ node, T.original path = some node ∧ tree.node (.backup T.root path) = some node

theorem Prepared.backedUp {tree : Tree γ} (h : T.Prepared tree) {path : ReplacementPath}
    (hbackup : (tree.node (.backup T.root path)).isSome = true) : T.BackedUp path tree := by
  have hpath := h.restorable path
  rw [Restorable] at hpath
  split at hpath
  · next original horiginal =>
    rcases hpath with hback | ⟨hback, -⟩
    · exact ⟨original, horiginal, hback⟩
    · rw [hback] at hbackup
      cases hbackup
  · rw [hpath.1] at hbackup
    cases hbackup

theorem putBack_spec (done : List JournalEntry) (path : ReplacementPath) :
    T.Spec host smooth false (fun tree => T.Restoring done path tree ∧ T.BackedUp path tree)
      (putBack T.root path) fun _ tree => T.Restoring done path tree ∧ T.Restored tree path := by
  have hphase : ∀ tree, (T.Restoring done path tree ∧ T.BackedUp path tree) →
      T.Phase false tree := fun tree h => .inr h.1.prepared
  have hput : ∀ tree found, (T.Restoring done path tree ∧ T.BackedUp path tree) →
      T.Restoring done path (tree.put found (.target path)) ∧
        T.BackedUp path (tree.put found (.target path)) := by
    rintro tree found ⟨h, node, horiginal, hnode⟩
    have hnode' : (tree.put found (.target path)).node (.backup T.root path) = some node := by
      rw [Tree.node_put_ne (by simp), hnode]
    refine ⟨h.putTarget found ?_, node, horiginal, hnode'⟩
    rw [Restorable, horiginal]
    exact .inl hnode'
  have hkind : Able host smooth (fun tree => T.Restoring done path tree ∧ T.BackedUp path tree)
      (.requireKind path.kind (.backup T.root path)) := by
    rintro - tree ⟨h, node, horiginal, hnode⟩
    refine ⟨(), tree, ?_⟩
    rw [performFile, hnode, Option.map_some, h.prepared.kinds path node horiginal,
      decide_eq_true rfl]
    rfl
  have hremove : T.Spec host smooth false
      (fun tree => T.Restoring done path tree ∧ T.BackedUp path tree)
      (Scripts.command (.remove (.target path)))
      fun _ tree => (T.Restoring done path tree ∧ T.BackedUp path tree) ∧
        tree.node (.target path) = none :=
    Spec.removeTarget hphase (fun tree found h => hphase _ (hput tree found h))
      fun tree h => ⟨hput tree none h, Tree.node_put_target⟩
  refine (Spec.check rfl hphase hkind).bind fun _ => hremove.bind fun _ => ?_
  refine Spec.rename (fun tree h => hphase tree h.1) ?_ ?_
  · rintro - tree ⟨⟨h, node, horiginal, hnode⟩, hfree⟩
    exact Tree.rename_isSome hnode (decide_eq_true (h.prepared.parents path)) hfree
  rintro tree s ⟨⟨h, node, horiginal, hnode⟩, -⟩ hrename
  obtain ⟨moved, hmoved, hback, htarget, hothers⟩ :=
    Tree.rename_nodes hrename (by simp) h.prepared.staging
  obtain ⟨hjournal, -, hparent, hstaging⟩ := Tree.rename_rest hrename
  rw [hnode, Option.some.injEq] at hmoved
  subst hmoved
  have hs : T.Restoring done path s := by
    refine h.elsewhere hjournal hparent (hstaging _) (fun place hplace => hothers place ?_ ?_) ?_
    · rintro rfl
      exact hplace rfl
    · rintro rfl
      exact hplace rfl
    · rw [Restorable, horiginal]
      exact .inr ⟨hback, htarget⟩
  refine ⟨⟨hs, htarget.trans horiginal.symm, hback⟩, .inr hs.prepared,
    fun _ root path' node' hnode' => ?_⟩
  by_cases hplace : Place.backup root path' = .backup T.root path
  · obtain ⟨rfl, rfl⟩ := Place.backup.inj hplace
    rw [hnode] at hnode'
    exact .inr (htarget.trans hnode')
  · rw [hothers _ hplace (by simp)]
    exact .inl hnode'

theorem removeNew_spec (done : List JournalEntry) {path : ReplacementPath}
    (horiginal : T.original path = none) :
    T.Spec host smooth false (T.Restoring done path) (removeNew T.root path) fun _ tree =>
      T.Restoring done path tree ∧ T.Restored tree path := by
  have hphase : ∀ tree, T.Restoring done path tree → T.Phase false tree :=
    fun tree h => .inr h.prepared
  have hbackup : ∀ tree, T.Restoring done path tree →
      tree.node (.backup T.root path) = none ∧
        (tree.node (.staged T.root path) ≠ none → tree.node (.target path) = none) := by
    intro tree h
    have hpath := h.prepared.restorable path
    rw [Restorable, horiginal] at hpath
    exact hpath
  refine (Spec.pathExists hphase).bind fun staged => ?_
  cases staged with
  | true =>
    refine Spec.pure fun tree h => ⟨h.1, ?_, (hbackup tree h.1).1⟩
    rw [horiginal]
    exact (hbackup tree h.1).2 (Option.isSome_iff_ne_none.mp h.2)
  | false =>
    have hput : ∀ tree found, (T.Restoring done path tree ∧
        (tree.node (.staged T.root path)).isSome = false) →
        T.Restoring done path (tree.put found (.target path)) := by
      rintro tree found ⟨h, hstaged⟩
      refine h.putTarget found ?_
      rw [Restorable, horiginal]
      simp only [Tree.node_put_ne (show Place.backup T.root path ≠ .target path by simp),
        Tree.node_put_ne (show Place.staged T.root path ≠ .target path by simp)]
      refine ⟨(hbackup tree h).1, fun hne => absurd ?_ hne⟩
      simpa using hstaged
    refine Spec.removeTarget (fun tree h => hphase tree h.1)
      (fun tree found h => hphase _ (hput tree found h)) fun tree h => ?_
    have hs := hput tree none h
    exact ⟨hs, Tree.node_put_target.trans horiginal.symm, (hbackup _ hs).1⟩

theorem restoreEntry_spec (done : List JournalEntry) (path : ReplacementPath) :
    T.Spec host smooth false (fun tree => T.Prepared tree ∧ ∀ entry ∈ done, T.Restored tree entry.path)
      (restoreEntry T.root (T.entry path)) fun _ tree =>
        T.Prepared tree ∧ ∀ entry ∈ done ++ [T.entry path], T.Restored tree entry.path := by
  have hphase : ∀ tree, T.Restoring done path tree → T.Phase false tree :=
    fun tree h => .inr h.prepared
  suffices hrestore : T.Spec host smooth false (T.Restoring done path) (restoreEntry T.root (T.entry path))
      fun _ tree => T.Restoring done path tree ∧ T.Restored tree path from
    hrestore.weaken (fun tree h => ⟨h.1, fun entry hentry _ => h.2 entry hentry⟩)
      fun _ tree h => h.1.done h.2
  have hparent : Able host smooth (T.Restoring done path) (.requireParent path.parent) := by
    intro _ tree h
    refine ⟨(), tree, ?_⟩
    rw [performFile, h.prepared.parents path, decide_eq_true rfl]
    rfl
  refine (Spec.check rfl hphase hparent).bind fun _ =>
    (Spec.pathExists hphase).bind fun found => ?_
  cases found with
  | true =>
    exact (putBack_spec done path).weaken (fun tree h => ⟨h.1, h.1.prepared.backedUp h.2⟩)
      fun _ tree h => h
  | false =>
    cases horiginal : T.original path with
    | none =>
      have hentry : (T.entry path).originallyPresent = false := by
        rw [entry, horiginal]
        rfl
      simp only [Bool.false_eq_true, if_false, hentry, if_true]
      exact (removeNew_spec done horiginal).weaken (fun tree h => h.1) fun _ tree h => h
    | some original =>
      have hentry : (T.entry path).originallyPresent = true := by
        rw [entry, horiginal]
        rfl
      simp only [Bool.false_eq_true, if_false, hentry]
      refine Spec.pure fun tree h => ⟨h.1, ?_⟩
      have hpath := h.1.prepared.restorable path
      have hmissing : (tree.node (.backup T.root path)).isSome = false := h.2
      have hnone : tree.node (.backup T.root path) = none := by simpa using hmissing
      rw [Restorable, horiginal, hnone] at hpath
      rcases hpath with hpath | hpath
      · cases hpath
      · exact ⟨hpath.2.trans horiginal.symm, hnone⟩

theorem restoreEntries_spec :
    T.Spec host smooth false T.Prepared (restoreEntries (T.journal .prepared)) fun _ tree =>
      T.Prepared tree ∧ T.IsOriginal tree := by
  have hstaging : Able host smooth T.Prepared (.requireStaging T.root) := by
    intro _ tree h
    refine ⟨(), tree, ?_⟩
    rw [performFile, h.staging]
    rfl
  have heach : T.Spec host smooth false
      (fun tree => T.Prepared tree ∧ ∀ entry ∈ ([] : List JournalEntry), T.Restored tree entry.path)
      (Script.each (restoreEntry T.root) (T.journal .prepared).entries.reverse) fun _ tree =>
        T.Prepared tree ∧
          ∀ entry ∈ (T.journal .prepared).entries.reverse, T.Restored tree entry.path := by
    refine Spec.each (I := fun (done : List JournalEntry) tree =>
      T.Prepared tree ∧ ∀ entry ∈ done, T.Restored tree entry.path) fun done item later hitems => ?_
    have hitem : item ∈ (T.journal .prepared).entries.reverse :=
      hitems ▸ List.mem_append_right _ List.mem_cons_self
    obtain ⟨path, -, rfl⟩ := List.mem_map.mp (List.mem_reverse.mp hitem)
    exact restoreEntry_spec done path
  rw [restoreEntries, if_pos (show (T.journal .prepared).state = .prepared from rfl)]
  have hphase : ∀ tree, T.Prepared tree → T.Phase false tree := fun tree h => Or.inr h
  refine (Spec.check rfl hphase hstaging).bind fun _ => ?_
  refine heach.weaken (fun tree h => ⟨h, fun _ hmem => absurd hmem List.not_mem_nil⟩)
    fun _ tree h => ⟨h.1, ?_⟩
  intro path
  refine (h.2 (T.entry path) ?_).1
  rw [List.mem_reverse]
  exact List.mem_map_of_mem (mem_replacementPaths path)

/-! ## The end of a transaction -/

/-- The paths are as they are to be when the journal is gone. -/
def Settled (T : Transaction γ) (committed : Bool) (tree : Tree γ) : Prop :=
  if committed then T.IsReplaced tree else T.IsOriginal tree

theorem Settled.phase {tree : Tree γ} (h : T.Settled committed tree) (hnone : tree.journal = none) :
    T.Phase committed tree := by
  cases committed with
  | true => exact ⟨.inl hnone, h⟩
  | false => exact .inl ⟨hnone, h⟩

theorem Phase.settled {tree : Tree γ} (h : T.Phase committed tree) (hnone : tree.journal = none) :
    T.Settled committed tree := by
  cases committed with
  | true => exact h.2
  | false =>
    rcases h with ⟨-, h⟩ | h
    · exact h
    · obtain ⟨bytes, hbytes, -⟩ := h.journal
      rw [hnone] at hbytes
      cases hbytes

theorem Phase.setNext {tree : Tree γ} (h : T.Phase committed tree) (next : Option (List UInt8)) :
    T.Phase committed { tree with next } := by
  cases committed with
  | true => exact h
  | false =>
    rcases h with h | h
    · exact .inl h
    · exact .inr ⟨h.journal, h.parents, h.kinds, h.staging, h.restorable⟩

def Closed (T : Transaction γ) (committed : Bool) (tree : Tree γ) : Prop :=
  tree.journal = none ∧ T.Settled committed tree

theorem Closed.phase {tree : Tree γ} (h : T.Closed committed tree) : T.Phase committed tree :=
  h.2.phase h.1

theorem Spec.removeStaging (root : JsString) :
    T.Spec host smooth committed (T.Closed committed) (Scripts.command (.removeStaging root))
      fun _ => T.Closed committed := by
  have hput : ∀ (tree : Tree γ) st, T.Closed committed tree →
      T.Closed committed (tree.putStaging root st) := fun tree st h => h
  have hbackups : ∀ (tree s : Tree γ), T.Closed committed tree → KeepsBackups tree s := by
    intro tree s h
    refine KeepsBackups.of_journal ?_
    rw [journalState_of_none h.1]
    simp
  refine Spec.command ?_ (fun tree h => h.phase) (fun _ tree _ => ⟨(), _, rfl⟩) ?_
  · intro tree answer s h hperform _
    obtain rfl := (Prod.mk.inj (Except.ok.inj hperform)).2
    exact ⟨hput tree none h, (hput tree none h).phase, hbackups _ _ h⟩
  · intro tree left h _
    rw [leaveFile]
    split
    · exact ⟨(hput tree left.staging h).phase, hbackups _ _ h⟩
    · exact ⟨h.phase, hbackups _ _ h⟩

theorem removeJournal_spec (journal : Journal) :
    T.Spec host smooth committed
      (fun tree => T.Phase committed tree ∧ T.Settled committed tree ∧ tree.journal.isSome = true)
      (removeJournal journal) fun _ => T.Closed committed := by
  have hnext : T.Spec host smooth committed
      (fun tree => T.Phase committed tree ∧ T.Settled committed tree ∧ tree.journal.isSome = true)
      (Scripts.command .removeNext) fun _ tree =>
        T.Phase committed tree ∧ T.Settled committed tree ∧ tree.journal.isSome = true := by
    refine Spec.wholeCommand rfl (fun tree h => h.1) (fun _ tree _ => ⟨(), _, rfl⟩) ?_
    intro tree _ s h hperform
    obtain rfl := (Prod.mk.inj (Except.ok.inj hperform)).2
    exact ⟨⟨h.1.setNext none, h.2⟩, h.1.setNext none, KeepsBackups.of_nodes fun _ _ => rfl⟩
  have hjournal : T.Spec host smooth committed
      (fun tree => T.Phase committed tree ∧ T.Settled committed tree ∧ tree.journal.isSome = true)
      (Scripts.command .removeJournal) fun _ => T.Closed committed := by
    refine Spec.wholeCommand rfl (fun tree h => h.1) ?_ ?_
    · intro _ tree h
      exact ⟨(), _, by rw [performFile, h.2.2]; rfl⟩
    · intro tree _ s h hperform
      obtain rfl := (Prod.mk.inj (ensure_map hperform).2).2
      have hclosed : T.Closed committed { tree with journal := none } := ⟨rfl, h.2.1⟩
      exact ⟨hclosed, hclosed.phase, KeepsBackups.of_nodes fun _ _ => rfl⟩
  have hfailpoint : Able host smooth (T.Closed committed) .failpoint :=
    fun _ tree _ => ⟨(), tree, rfl⟩
  refine hnext.bind fun _ => hjournal.bind fun _ => ?_
  exact (Spec.check rfl (fun tree h => h.phase) hfailpoint).bind fun _ => Spec.removeStaging _

/-! ## Recovery -/

def stateOf (committed : Bool) : JournalState := if committed then .committed else .prepared

theorem Phase.hasJournal {tree : Tree γ} (h : T.Phase committed tree)
    (hjournal : tree.journal.isSome = true) : T.HasJournal (stateOf committed) tree := by
  have hsome : tree.journal ≠ none := Option.isSome_iff_ne_none.mp hjournal
  cases committed with
  | true => exact h.1.resolve_left hsome
  | false => exact (h.resolve_left fun hnone => hsome hnone.1).journal

theorem Phase.holds {tree : Tree γ} (h : T.Phase committed tree) {bytes : List UInt8}
    (hbytes : tree.journal = some bytes) : Holds (T.journal (stateOf committed)) bytes := by
  obtain ⟨found, hfound, hholds⟩ := h.hasJournal (by rw [hbytes]; rfl)
  rw [hbytes, Option.some.injEq] at hfound
  exact hfound ▸ hholds

theorem settle_spec :
    T.Spec host smooth committed
      (fun tree => T.Phase committed tree ∧ tree.journal.isSome = true)
      (restoreEntries (T.journal (stateOf committed))) fun _ tree =>
        T.Phase committed tree ∧ T.Settled committed tree ∧ tree.journal.isSome = true := by
  cases committed with
  | true => exact Spec.pure fun tree h => ⟨h.1, h.1.2, h.2⟩
  | false =>
    refine restoreEntries_spec.weaken (fun tree h => ?_) fun _ tree h => ⟨Or.inr h.1, h.2, ?_⟩
    · exact h.1.resolve_left fun hnone => Option.isSome_iff_ne_none.mp h.2 hnone.1
    · obtain ⟨bytes, hbytes, -⟩ := h.1.journal
      rw [hbytes]
      rfl

theorem refuseOther_spec {pid : Pid} {activeOwnerPid : Option Pid} {journal : Journal}
    (hphase : ∀ tree, Φ tree → T.Phase committed tree)
    (hable : smooth = true → host.alive journal.ownerPid = false) :
    T.Spec host smooth committed Φ (refuseOther pid activeOwnerPid journal) fun _ => Φ := by
  rw [refuseOther]
  split
  · refine (Spec.processIsAlive hphase).bind fun alive => ?_
    cases alive with
    | false => exact Spec.pure fun tree h => h.1
    | true =>
      refine Spec.ofExcept (x := .error .journalOwned) (fun _ _ h => nomatch h)
        (fun tree h => hphase tree h.1) fun hsmooth tree h => ?_
      rw [hable hsmooth] at h
      exact absurd h.2 (by simp)
  · exact Spec.pure fun tree h => h

theorem recover_spec (pid : Pid) (activeOwnerPid : Option Pid)
    (hable : smooth = true →
      isStageRoot host.temporaryRoot T.root = true ∧ host.alive T.owner = false) :
    T.Spec host smooth committed (T.Phase committed) (recoverProtocolSync pid activeOwnerPid)
      fun _ => T.Closed committed := by
  have hroot : Able host smooth (T.Phase committed) .requireRoot := fun _ tree _ => ⟨(), tree, rfl⟩
  have hjournal : Able host smooth
      (fun tree => T.Phase committed tree ∧ tree.journal.isSome = true) .requireJournal :=
    fun _ tree h => ⟨(), tree, by rw [performFile, h.2]; rfl⟩
  refine (Spec.check rfl (fun tree h => h) hroot).bind fun _ =>
    (Spec.journalExists fun tree h => h).bind fun found => ?_
  cases found with
  | false =>
    refine Spec.pure fun tree h => ?_
    have hnone : tree.journal = none := by simpa using h.2
    exact ⟨hnone, h.1.settled hnone⟩
  | true =>
    simp only [if_true]
    refine (Spec.check rfl (fun tree h => h.1) hjournal).bind fun _ => ?_
    refine (Spec.readJournalFile (fun tree h => h.1) fun _ tree h => h.2).bind fun bytes => ?_
    refine Spec.assume (p := Holds (T.journal (stateOf committed)) bytes)
      (fun tree h => h.1.1.holds h.2) fun hholds => ?_
    rw [parseJournal_of_holds hholds]
    refine Spec.ok ?_
    refine (Spec.realTemporaryRoot fun tree h => h.1.1).bind fun root => ?_
    have hcheck : checkJournal root (parsed (T.journal (stateOf committed)).record) =
        if isStageRoot root T.root then .ok (T.journal (stateOf committed))
        else .error .journalInvalid :=
      checkJournal_record root map_path_entries
    generalize checkJournal root (parsed (T.journal (stateOf committed)).record) = checked
      at hcheck ⊢
    have hread : T.Spec host smooth committed
        (fun tree => ((T.Phase committed tree ∧ tree.journal.isSome = true) ∧
          tree.journal = some bytes) ∧ root = host.temporaryRoot)
        (Script.ofExcept checked) fun journal tree => (T.Phase committed tree ∧ tree.journal.isSome = true) ∧
          journal = T.journal (stateOf committed) := by
      refine Spec.ofExcept (fun journal tree hok h => ⟨h.1.1, ?_⟩) (fun tree h => h.1.1.1) ?_
      · rw [hcheck] at hok
        split at hok
        · exact (Except.ok.inj hok).symm
        · cases hok
      · rintro hsmooth tree ⟨-, rfl⟩
        rw [hcheck, if_pos (hable hsmooth).1]
        exact ⟨_, rfl⟩
    refine hread.bind fun journal => ?_
    refine Spec.assume (p := journal = T.journal (stateOf committed)) (fun tree h => h.2) ?_
    rintro rfl
    have hrefuse : T.Spec host smooth committed
        (fun tree => T.Phase committed tree ∧ tree.journal.isSome = true)
        (refuseOther pid activeOwnerPid (T.journal (stateOf committed)))
        fun _ tree => T.Phase committed tree ∧ tree.journal.isSome = true :=
      refuseOther_spec (fun tree h => h.1) fun hsmooth => (hable hsmooth).2
    refine (hrefuse.weaken (fun tree h => h.1) fun _ tree h => h).bind fun _ => ?_
    exact settle_spec.bind fun _ => removeJournal_spec _

theorem recover_closed_spec (pid : Pid) (activeOwnerPid : Option Pid) :
    T.Spec host smooth committed (T.Closed committed) (recoverProtocolSync pid activeOwnerPid)
      fun _ => T.Closed committed := by
  have hroot : Able host smooth (T.Closed committed) .requireRoot := fun _ tree _ => ⟨(), tree, rfl⟩
  refine (Spec.check rfl (fun tree h => h.phase) hroot).bind fun _ =>
    (Spec.journalExists fun tree h => h.phase).bind fun found => ?_
  cases found with
  | false => exact Spec.pure fun tree h => h.1
  | true =>
    refine Spec.assume (p := False) (fun tree h => ?_) fun h => h.elim
    rw [h.1.1] at h
    exact absurd h.2 (by simp)

end Transaction

end Scripts
