import TeslatlasSdk.Scripts.SyncRecovery

/-!
# Replacement keeps the phase

The paths are replaced in turn, each original by way of its backup.  The rename of the second
journal is the one step between the phases; what goes wrong before or after it is rolled back or
carried to its end.
-/

open Text Core Json

namespace Scripts

variable {γ : Type}

namespace Transaction

variable {T : Transaction γ} {host : Host} {smooth committed : Bool} {Φ : Tree γ → Prop}

/-! ## Before the journal -/

/-- Everything is staged and nothing has been moved. -/
structure Opened (T : Transaction γ) (tree : Tree γ) : Prop where
  journal : tree.journal = none
  original : T.IsOriginal tree
  staging : tree.staging T.root = some { staged := T.staged, backup := fun _ => none }

theorem Opened.phase {tree : Tree γ} (h : T.Opened tree) : T.Phase false tree :=
  Or.inl ⟨h.journal, h.original⟩

/-- A path may be replaced. -/
def Inspected (T : Transaction γ) (tree : Tree γ) (path : ReplacementPath) : Prop :=
  tree.parent path.parent = some .directory ∧
    ∀ node, T.original path = some node → node.kind = path.kind

structure Inspecting (T : Transaction γ) (done : List ReplacementPath) (tree : Tree γ) : Prop where
  opened : T.Opened tree
  inspected : ∀ path ∈ done, T.Inspected tree path

theorem perform_ensureParent {parent : ReplacementParent} {tree s : Tree γ}
    {answer : Answer (FileOperation.ensureParent (γ := γ) parent)}
    (h : performFile host (.ensureParent parent) tree = .ok (answer, s)) :
    ∃ parents, s = { tree with parent := parents } ∧ parents parent = some .directory ∧
      ∀ other, tree.parent other = some .directory → parents other = some .directory := by
  rw [performFile] at h
  split at h
  · obtain rfl := (Prod.mk.inj (Except.ok.inj h)).2
    refine ⟨_, rfl, Function.update_self _ _ _, fun other hother => ?_⟩
    by_cases heq : other = parent
    · rw [heq]
      exact Function.update_self _ _ _
    · rw [Function.update_of_ne heq, hother]
  · next kind hkind =>
    obtain ⟨hdirectory, hs⟩ := ensure_map h
    obtain rfl := (Prod.mk.inj hs).2
    rw [decide_eq_true_eq] at hdirectory
    exact ⟨tree.parent, rfl, hkind.trans (by rw [hdirectory]), fun _ hother => hother⟩

theorem ensureParent_spec (done : List ReplacementPath) (path : ReplacementPath) :
    T.Spec host false false (T.Inspecting done) (command (.ensureParent path.parent)) fun _ tree =>
      T.Inspecting done tree ∧ tree.parent path.parent = some .directory := by
  refine Spec.wholeCommand rfl (fun tree h => h.opened.phase) nofun ?_
  intro tree _ s h hperform
  obtain ⟨parents, rfl, hparent, hothers⟩ := perform_ensureParent hperform
  have hs : T.Inspecting done { tree with parent := parents } :=
    { opened := ⟨h.opened.journal, h.opened.original, h.opened.staging⟩
      inspected := fun other hother =>
        ⟨hothers _ (h.inspected other hother).1, (h.inspected other hother).2⟩ }
  exact ⟨⟨hs, hparent⟩, hs.opened.phase, KeepsBackups.of_nodes fun _ _ => rfl⟩

theorem inspectKind_spec (path : ReplacementPath) (hopened : ∀ tree, Φ tree → T.Opened tree) :
    T.Spec host false false Φ (command (.requireKind path.kind (.target path))) fun _ tree =>
      Φ tree ∧ ∀ node, T.original path = some node → node.kind = path.kind := by
  have hquery : T.Spec host false false Φ
      (operate (.requireKind path.kind (.target path))) _ :=
    Spec.query rfl (fun tree h => (hopened tree h).phase) nofun
  refine hquery.bind fun _ => Spec.pure fun tree h => ⟨h.1, fun node horiginal => ?_⟩
  have hkind := (ensure_map h.2).1
  rw [(hopened tree h.1).original path, horiginal, decide_eq_true_eq] at hkind
  exact Option.some.inj hkind

theorem inspectEntries_spec (paths done : List ReplacementPath) :
    T.Spec host false false (T.Inspecting done) (inspectEntries paths) fun entries tree =>
      entries = paths.map T.entry ∧ T.Inspecting (done ++ paths) tree := by
  induction paths generalizing done with
  | nil => exact Spec.pure fun tree h => ⟨rfl, (List.append_nil done).symm ▸ h⟩
  | cons path paths ih =>
    refine (ensureParent_spec done path).bind fun _ => ?_
    refine (Spec.pathExists fun tree h => h.1.opened.phase).bind fun present => ?_
    have hrest : T.Spec host false false
        (fun tree => ((T.Inspecting done tree ∧ tree.parent path.parent = some .directory) ∧
          (tree.node (.target path)).isSome = present) ∧
            ∀ node, T.original path = some node → node.kind = path.kind)
        (inspectEntries paths >>= fun entries =>
          pure ({ path, originallyPresent := present } :: entries)) fun entries tree =>
            entries = (path :: paths).map T.entry ∧ T.Inspecting (done ++ path :: paths) tree := by
      refine Spec.assume (p := ({ path, originallyPresent := present } : JournalEntry) =
        T.entry path) ?_ fun hentry => ?_
      · intro tree h
        rw [entry, ← h.1.1.1.opened.original path, h.1.2]
      rw [hentry]
      refine ((ih (done ++ [path])).weaken ?_ fun _ tree h => h).bind fun entries =>
        Spec.pure fun tree h => ⟨by rw [h.1, List.map_cons], ?_⟩
      · intro tree h
        refine ⟨h.1.1.1.opened, fun other hother => ?_⟩
        rcases List.mem_append.mp hother with hother | hother
        · exact h.1.1.1.inspected other hother
        · rw [List.mem_singleton.mp hother]
          exact ⟨h.1.1.2, h.2⟩
      · rw [List.append_assoc] at h
        exact h.2
    cases present with
    | true => exact (inspectKind_spec path fun tree h => h.1.1.opened).bind fun _ => hrest
    | false =>
      refine hrest.weaken (fun tree h => ⟨h, fun node horiginal => ?_⟩) fun _ _ h => h
      have habsent := h.2
      rw [h.1.1.opened.original path, horiginal] at habsent
      cases habsent

/-! ## The journal is created -/

theorem holds_take {journal : Journal} {count : Nat}
    (h : (utf8Encode (stableJson journal)).length ≤
      ((utf8Encode (stableJson journal)).take count).length + 1) :
    Holds journal ((utf8Encode (stableJson journal)).take count) := by
  have hbreak : utf8Encode (stableJson journal) = utf8Encode journal.json ++ [0x0A] := by
    rw [stableJson, utf8Encode_append (isWellFormed_json journal) rfl]
    rfl
  rw [Holds, hbreak]
  rw [hbreak] at h
  generalize utf8Encode journal.json = bytes at h ⊢
  rw [List.length_take, List.length_append, List.length_singleton] at h
  by_cases hcount : count = bytes.length
  · left
    rw [hcount, List.take_left]
  · right
    exact List.take_of_length_le (by rw [List.length_append, List.length_singleton]; omega)

theorem Inspecting.prepared {tree : Tree γ} (h : T.Inspecting replacementPaths tree)
    {bytes : List UInt8} (hholds : Holds (T.journal .prepared) bytes) :
    T.Prepared { tree with journal := some bytes } where
  journal := ⟨bytes, rfl, hholds⟩
  parents := fun path => (h.inspected path (mem_replacementPaths path)).1
  kinds := fun path => (h.inspected path (mem_replacementPaths path)).2
  staging := by
    show (tree.staging T.root).isSome = true
    rw [h.opened.staging]
    rfl
  restorable := by
    intro path
    have hbackup : tree.node (.backup T.root path) = none := by
      rw [Tree.node, h.opened.staging]
      rfl
    have htarget := h.opened.original path
    rw [Restorable]
    split
    · next original horiginal => exact .inr ⟨hbackup, htarget.trans horiginal⟩
    · next horiginal => exact ⟨hbackup, fun _ => htarget.trans horiginal⟩

/-! ## One path -/

/-- A path to be replaced: what is staged for it is there and it is as it was. -/
structure Waiting (T : Transaction γ) (tree : Tree γ) (path : ReplacementPath) : Prop where
  staged : tree.node (.staged T.root path) = T.staged path
  backup : tree.node (.backup T.root path) = none
  target : tree.node (.target path) = T.original path

def Replaced (T : Transaction γ) (tree : Tree γ) (path : ReplacementPath) : Prop :=
  ∃ node, T.staged path = some node ∧ tree.node (.target path) = some node

/-- Some paths are done while another is worked on. -/
structure Replacing (T : Transaction γ) (done : List JournalEntry) (path : ReplacementPath)
    (tree : Tree γ) : Prop where
  prepared : T.Prepared tree
  replaced : ∀ entry ∈ done, entry.path ≠ path → T.Replaced tree entry.path
  waiting : ∀ other, other ≠ path → (∀ entry ∈ done, entry.path ≠ other) → T.Waiting tree other

theorem Replacing.elsewhere {done : List JournalEntry} {path : ReplacementPath} {tree s : Tree γ}
    (h : T.Replacing done path tree) (hjournal : s.journal = tree.journal)
    (hparent : s.parent = tree.parent)
    (hstaging : (s.staging T.root).isSome = (tree.staging T.root).isSome)
    (hsame : ∀ place, place.path ≠ path → s.node place = tree.node place)
    (hpath : T.Restorable s path) : T.Replacing done path s where
  prepared := h.prepared.elsewhere path hjournal hparent hstaging hsame hpath
  replaced := by
    intro entry hentry hne
    obtain ⟨node, hstaged, htarget⟩ := h.replaced entry hentry hne
    exact ⟨node, hstaged, (hsame (.target entry.path) hne).trans htarget⟩
  waiting := by
    intro other hne hother
    obtain ⟨hstaged, hbackup, htarget⟩ := h.waiting other hne hother
    exact ⟨(hsame (.staged T.root other) hne).trans hstaged,
      (hsame (.backup T.root other) hne).trans hbackup,
      (hsame (.target other) hne).trans htarget⟩

/-- The path has room for what is staged for it, and its original is kept. -/
structure MovedAway (T : Transaction γ) (tree : Tree γ) (path : ReplacementPath) : Prop where
  staged : tree.node (.staged T.root path) = T.staged path
  backup : tree.node (.backup T.root path) = T.original path
  target : tree.node (.target path) = none

theorem Waiting.movedAway {tree : Tree γ} {path : ReplacementPath} (h : T.Waiting tree path)
    (habsent : T.original path = none) : T.MovedAway tree path :=
  ⟨h.staged, h.backup.trans habsent.symm, h.target.trans habsent⟩

theorem makeBackupParent_spec (hprepared : ∀ tree, Φ tree → T.Prepared tree) :
    T.Spec host false false Φ (command (.makeBackupParent T.root)) fun _ => Φ := by
  have hphase : ∀ tree, Φ tree → T.Phase false tree := fun tree h => Or.inr (hprepared tree h)
  refine Spec.wholeCommand rfl hphase nofun ?_
  intro tree _ s h hperform
  obtain rfl := (Prod.mk.inj (Except.ok.inj hperform)).2
  obtain ⟨st, hst⟩ := Option.isSome_iff_exists.mp (hprepared tree h).staging
  have hsame : tree.putStaging T.root (some ((tree.staging T.root).getD .empty)) = tree := by
    rw [Tree.putStaging, hst, Option.getD_some, ← hst, Function.update_eq_self]
  rw [hsame]
  exact ⟨h, hphase tree h, KeepsBackups.of_nodes fun _ _ => rfl⟩

theorem moveAway_spec (done : List JournalEntry) {path : ReplacementPath} {original : Node γ}
    (horiginal : T.original path = some original) :
    T.Spec host false false (fun tree => T.Replacing done path tree ∧ T.Waiting tree path)
      (command (.rename (.target path) (.backup T.root path))) fun _ tree =>
        T.Replacing done path tree ∧ T.MovedAway tree path := by
  refine Spec.rename (fun tree h => Or.inr h.1.prepared) nofun ?_
  rintro tree s ⟨h, hwaiting⟩ hrename
  obtain ⟨moved, hmoved, htarget, hbackup, hothers⟩ :=
    Tree.rename_nodes hrename (by simp) trivial
  obtain ⟨hjournal, -, hparent, hstaging⟩ := Tree.rename_rest hrename
  have hbackup' : s.node (.backup T.root path) = T.original path := by
    rw [hbackup, ← hwaiting.target, hmoved]
  have hs : T.Replacing done path s := by
    refine h.elsewhere hjournal hparent (hstaging _) (fun place hplace => hothers place ?_ ?_) ?_
    · rintro rfl
      exact hplace rfl
    · rintro rfl
      exact hplace rfl
    · rw [Restorable, horiginal]
      exact .inl (hbackup'.trans horiginal)
  have haway : T.MovedAway s path :=
    ⟨(hothers _ (by simp) (by simp)).trans hwaiting.staged, hbackup', htarget⟩
  refine ⟨⟨hs, haway⟩, Or.inr hs.prepared, fun _ root path' node hnode => ?_⟩
  -- The place of the new backup was free.
  have hne : Place.backup root path' ≠ .backup T.root path := by
    rintro heq
    rw [heq, hwaiting.backup] at hnode
    cases hnode
  rw [hothers _ (by simp) hne]
  exact .inl hnode

theorem moveIn_spec (done : List JournalEntry) (path : ReplacementPath) :
    T.Spec host false false (fun tree => T.Replacing done path tree ∧ T.MovedAway tree path)
      (command (.rename (.staged T.root path) (.target path))) fun _ tree =>
        T.Replacing done path tree ∧ T.Replaced tree path := by
  refine Spec.rename (fun tree h => Or.inr h.1.prepared) nofun ?_
  rintro tree s ⟨h, haway⟩ hrename
  obtain ⟨moved, hmoved, hstaged, htarget, hothers⟩ :=
    Tree.rename_nodes hrename (by simp) h.prepared.staging
  obtain ⟨hjournal, -, hparent, hstaging⟩ := Tree.rename_rest hrename
  have hbackup : s.node (.backup T.root path) = T.original path :=
    (hothers _ (by simp) (by simp)).trans haway.backup
  have hs : T.Replacing done path s := by
    refine h.elsewhere hjournal hparent (hstaging _) (fun place hplace => hothers place ?_ ?_) ?_
    · rintro rfl
      exact hplace rfl
    · rintro rfl
      exact hplace rfl
    · rw [Restorable]
      split
      · next original horiginal => exact .inl (hbackup.trans horiginal)
      · next horiginal => exact ⟨hbackup.trans horiginal, fun hne => absurd hstaged hne⟩
  have hreplaced : T.Replaced s path := ⟨moved, haway.staged.symm.trans hmoved, htarget⟩
  refine ⟨⟨hs, hreplaced⟩, Or.inr hs.prepared, fun _ root path' node hnode => .inl ?_⟩
  rw [hothers _ (by simp) (by simp)]
  exact hnode

/-- Between two paths. -/
structure Forward (T : Transaction γ) (done : List JournalEntry) (tree : Tree γ) : Prop where
  prepared : T.Prepared tree
  replaced : ∀ entry ∈ done, T.Replaced tree entry.path
  waiting : ∀ path, (∀ entry ∈ done, entry.path ≠ path) → T.Waiting tree path

theorem Forward.replacing {done : List JournalEntry} {tree : Tree γ} (h : T.Forward done tree)
    (path : ReplacementPath) : T.Replacing done path tree :=
  ⟨h.prepared, fun entry hentry _ => h.replaced entry hentry, fun other _ => h.waiting other⟩

theorem Replacing.forward {done : List JournalEntry} {path : ReplacementPath} {tree : Tree γ}
    (h : T.Replacing done path tree) (hpath : T.Replaced tree path) :
    T.Forward (done ++ [T.entry path]) tree where
  prepared := h.prepared
  replaced := by
    intro entry hentry
    by_cases hne : entry.path = path
    · rw [hne]
      exact hpath
    · rcases List.mem_append.mp hentry with hentry | hentry
      · exact h.replaced entry hentry hne
      · rw [List.mem_singleton.mp hentry] at hne
        exact absurd rfl hne
  waiting := by
    intro other hother
    refine h.waiting other ?_ fun entry hentry => hother entry (List.mem_append_left _ hentry)
    rintro rfl
    exact hother (T.entry other) (List.mem_append_right _ (List.mem_singleton.mpr rfl)) rfl

theorem replaceEntry_spec (done : List JournalEntry) (path : ReplacementPath)
    (hnew : ∀ entry ∈ done, entry.path ≠ path) :
    T.Spec host false false (T.Forward done) (replaceEntry T.root (T.entry path)) fun _ =>
      T.Forward (done ++ [T.entry path]) := by
  have hlast : T.Spec host false false
      (fun tree => T.Replacing done path tree ∧ T.MovedAway tree path)
      (command (.rename (.staged T.root path) (.target path)) >>= fun _ => command .failpoint)
      fun _ => T.Forward (done ++ [T.entry path]) := by
    refine (moveIn_spec done path).bind fun _ => ?_
    have hfailpoint : T.Spec host false false
        (fun tree => T.Replacing done path tree ∧ T.Replaced tree path) (command .failpoint) _ :=
      Spec.check rfl (fun tree h => Or.inr h.1.prepared) nofun
    exact hfailpoint.weaken (fun tree h => h) fun _ tree h => h.1.forward h.2
  have hfirst : ∀ tree, T.Forward done tree → T.Replacing done path tree ∧ T.Waiting tree path :=
    fun tree h => ⟨h.replacing path, h.waiting path hnew⟩
  cases horiginal : T.original path with
  | none =>
    have hentry : (T.entry path).originallyPresent = false := by
      rw [entry, horiginal]
      rfl
    simp only [replaceEntry, hentry, Bool.false_eq_true, if_false]
    refine hlast.weaken (fun tree h => ?_) fun _ tree h => h
    exact ⟨(hfirst tree h).1, (hfirst tree h).2.movedAway horiginal⟩
  | some original =>
    have hentry : (T.entry path).originallyPresent = true := by
      rw [entry, horiginal]
      rfl
    simp only [replaceEntry, hentry, if_true]
    have hparent : T.Spec host false false (T.Forward done)
        (command (.makeBackupParent T.root)) fun _ => T.Forward done :=
      makeBackupParent_spec fun tree h => h.prepared
    refine (hparent.weaken (fun tree h => h) fun _ tree h => hfirst tree h).bind fun _ => ?_
    exact (moveAway_spec done horiginal).bind fun _ => hlast

/-! ## The journals -/

theorem Inspecting.phase {done : List ReplacementPath} {tree : Tree γ}
    (h : T.Inspecting done tree) : T.Phase false tree := h.opened.phase

theorem Prepared.forward {tree : Tree γ} (h : T.Prepared tree) (horiginal : T.IsOriginal tree)
    (hstaging : tree.staging T.root = some { staged := T.staged, backup := fun _ => none }) :
    T.Forward [] tree where
  prepared := h
  replaced := fun _ hmem => nomatch hmem
  waiting := by
    intro path _
    refine ⟨?_, ?_, horiginal path⟩
    · rw [Tree.node, hstaging]
      rfl
    · rw [Tree.node, hstaging]
      rfl

theorem createJournal_spec :
    T.Spec host false false (T.Inspecting replacementPaths)
      (command (.createJournal (stableJson (T.journal .prepared)))) fun _ => T.Forward [] := by
  have hbackups : ∀ (tree : Tree γ) journal, KeepsBackups tree { tree with journal } :=
    fun tree journal => KeepsBackups.of_nodes fun _ _ => rfl
  refine Spec.command ?_ (fun tree h => h.phase) nofun ?_
  · intro tree _ s h hperform _
    obtain rfl := (Prod.mk.inj (ensure_map hperform).2).2
    have hs := h.prepared (Or.inr rfl)
    exact ⟨hs.forward h.opened.original h.opened.staging, Or.inr hs, hbackups tree _⟩
  · intro tree left h hwhole
    have hnone := h.opened.journal
    have hleave : leaveFile host (.createJournal (stableJson (T.journal .prepared))) left tree =
        if left.took then { tree with
          journal := some ((utf8Encode (stableJson (T.journal .prepared))).take left.bytes) }
        else tree := by
      rw [leaveFile, writtenPart, hnone]
      cases left.took with
      | true => rfl
      | false =>
        show { tree with journal := none } = tree
        rw [← hnone]
    rw [hleave] at hwhole ⊢
    by_cases htook : left.took = true
    · rw [if_pos htook] at hwhole ⊢
      simp only [createsWhole, hnone, Option.isSome_none, Bool.false_or, Option.all_some,
        decide_eq_true_eq] at hwhole
      exact ⟨Or.inr (h.prepared (holds_take hwhole)), hbackups tree _⟩
    · rw [if_neg htook]
      exact ⟨h.phase, KeepsBackups.of_nodes fun _ _ => rfl⟩

/-- Every path has been replaced. -/
def Complete (T : Transaction γ) (tree : Tree γ) : Prop := T.Prepared tree ∧ T.IsReplaced tree

theorem nodup_replacementPaths : replacementPaths.Nodup := by decide

theorem replaceEntries_spec :
    T.Spec host false false (T.Forward [])
      (Script.each (replaceEntry T.root) (T.journal .prepared).entries) fun _ => T.Complete := by
  have heach : T.Spec host false false (T.Forward [])
      (Script.each (replaceEntry T.root) (T.journal .prepared).entries) fun _ =>
        T.Forward (T.journal .prepared).entries := by
    refine Spec.each fun done item later hitems => ?_
    have hitem : item ∈ (T.journal .prepared).entries :=
      hitems ▸ List.mem_append_right _ List.mem_cons_self
    obtain ⟨path, -, rfl⟩ := List.mem_map.mp hitem
    refine replaceEntry_spec done path fun entry hentry heq => ?_
    have hnodup : ((T.journal .prepared).entries.map (·.path)).Nodup := by
      rw [map_path_entries]
      exact nodup_replacementPaths
    rw [← hitems, List.map_append, List.nodup_append] at hnodup
    refine hnodup.2.2 entry.path (List.mem_map_of_mem hentry) path ?_ heq
    exact List.mem_map_of_mem (f := JournalEntry.path) (List.mem_cons_self (a := T.entry path))
  refine heach.weaken (fun tree h => h) fun _ tree h => ⟨h.prepared, fun path => ?_⟩
  exact h.replaced (T.entry path) (List.mem_map_of_mem (mem_replacementPaths path))

theorem createNext_spec (text : JsString) :
    T.Spec host false false T.Complete (command (.createNext text)) fun _ tree =>
      T.Complete tree ∧ tree.next = some (utf8Encode text) := by
  have hnext : ∀ (tree : Tree γ) next, T.Complete tree → T.Complete { tree with next } :=
    fun tree next h => ⟨⟨h.1.journal, h.1.parents, h.1.kinds, h.1.staging, h.1.restorable⟩, h.2⟩
  refine Spec.command ?_ (fun tree h => Or.inr h.1) nofun ?_
  · intro tree _ s h hperform _
    obtain rfl := (Prod.mk.inj (ensure_map hperform).2).2
    have hs := hnext tree (some (utf8Encode text)) h
    exact ⟨⟨hs, rfl⟩, Or.inr hs.1, KeepsBackups.of_nodes fun _ _ => rfl⟩
  · intro tree left h _
    exact ⟨Or.inr (hnext tree _ h).1, KeepsBackups.of_nodes fun _ _ => rfl⟩

/-! ## The commit -/

theorem At.commit {w : SyncPast γ} {operation : FileOperation γ} {fate : Fate (Leftover γ)}
    {s : Tree γ} (h : T.At false Φ w) (hjournal : T.HasJournal .committed s)
    (hreplaced : T.IsReplaced s) (hbackups : KeepsBackups w.state s) :
    T.At true (T.Phase true) (w.record operation fate s) := by
  refine h.extend ?_ hbackups ⟨Or.inr hjournal, hreplaced⟩
  simp [hjournal.journalState]

/-- The script ends well, or in an error or a death from which the transaction is recovered. -/
def Safe {β : Type} (T : Transaction γ) (host : Host) (P : SyncPast γ → Prop) (t : Sync γ β)
    (Q : β → SyncPast γ → Prop) : Prop :=
  (T.logic host false).Triple P t fun result w =>
    match result with
    | .ok b => Q b w
    | .error _ => T.Sound w

variable {β δ : Type} {P : SyncPast γ → Prop} {Q : β → SyncPast γ → Prop}

theorem Spec.safe {t : Sync γ β} {Ψ : β → Tree γ → Prop}
    (h : T.Spec host false committed Φ t Ψ) :
    T.Safe host (T.At committed Φ) t fun b => T.At committed (Ψ b) := by
  refine CrashLogic.Triple.weaken h (fun _ hw => hw) fun result w hw => ?_
  cases result with
  | ok b => exact hw
  | error e => exact hw.1.sound id

theorem Safe.bind {t : Sync γ β} {f : β → Sync γ δ} {R : δ → SyncPast γ → Prop}
    (h : T.Safe host P t Q) (hf : ∀ b, T.Safe host (Q b) (f b) R) : T.Safe host P (t >>= f) R :=
  CrashLogic.Triple.bind h hf fun _ _ hw => hw

theorem Safe.weaken {t : Sync γ β} {P' : SyncPast γ → Prop} {Q' : β → SyncPast γ → Prop}
    (h : T.Safe host P t Q) (hpre : ∀ w, P' w → P w) (hpost : ∀ b w, Q b w → Q' b w) :
    T.Safe host P' t Q' := by
  refine CrashLogic.Triple.weaken h hpre fun result w hw => ?_
  cases result with
  | ok b => exact hpost b w hw
  | error e => exact hw

-- Where every ending will do.
theorem safe_iff {t : Sync γ β} :
    T.Safe host P t (fun _ => T.Sound) ↔ (T.logic host false).Triple P t fun _ => T.Sound := by
  constructor
  · intro h
    refine CrashLogic.Triple.weaken h (fun _ hw => hw) fun result w hw => ?_
    cases result with
    | ok b => exact hw
    | error e => exact hw
  · intro h
    refine CrashLogic.Triple.weaken h (fun _ hw => hw) fun result w hw => ?_
    cases result with
    | ok b => exact hw
    | error e => exact hw

theorem renameNext_safe :
    T.Safe host
      (T.At false fun tree => T.Complete tree ∧
        tree.next = some (utf8Encode (stableJson (T.journal .committed))))
      (command .renameNext) fun _ => T.At true (T.Phase true) := by
  have hcommit : ∀ (w : SyncPast γ) fate s answer,
      T.At false (fun tree => T.Complete tree ∧
        tree.next = some (utf8Encode (stableJson (T.journal .committed)))) w →
      performFile host .renameNext w.state = .ok (answer, s) →
      T.At true (T.Phase true) (w.record .renameNext fate s) := by
    intro w fate s answer hw hperform
    rw [performFile, hw.state.2] at hperform
    obtain rfl := (Prod.mk.inj (Except.ok.inj hperform)).2
    exact hw.commit ⟨_, rfl, Or.inr rfl⟩ hw.state.1.2 (KeepsBackups.of_nodes fun _ _ => rfl)
  have hbefore : ∀ (w : SyncPast γ) fate,
      T.At false (fun tree => T.Complete tree ∧
        tree.next = some (utf8Encode (stableJson (T.journal .committed)))) w →
      T.Sound (w.record .renameNext fate w.state) := by
    intro w fate hw
    have hphase : T.Phase false w.state := Or.inr hw.state.1.1
    exact (hw.record hphase (KeepsBackups.of_nodes fun _ _ => rfl) hphase).sound id
  have hleft : ∀ (w : SyncPast γ) fate left,
      T.At false (fun tree => T.Complete tree ∧
        tree.next = some (utf8Encode (stableJson (T.journal .committed)))) w →
      T.Sound (w.record .renameNext fate (leaveFile host .renameNext left w.state)) := by
    intro w fate left hw
    have hwhole : (FileOperation.renameNext (γ := γ)).isWhole = true := rfl
    rcases leave_of_isWhole hwhole left w.state with hleave | ⟨answer, hperform⟩
    · rw [hleave]
      exact hbefore w fate hw
    · exact (hcommit w fate _ answer hw hperform).sound id
  refine Safe.bind (Q := fun _ => T.At true (T.Phase true)) ?_ fun _ =>
    CrashLogic.triple_ended fun w hw => hw
  exact CrashLogic.triple_operate (fun w answer s hw hperform _ => hcommit w _ s answer hw hperform)
    (fun w _ hw _ => hbefore w _ hw) (fun w left hw _ => hleft w _ left hw)
    fun w left hw _ => hleft w _ left hw

theorem commitJournal_safe :
    T.Safe host (T.At false T.Complete) (commitJournal (T.journal .prepared)) fun _ =>
      T.At true (T.Phase true) :=
  (createNext_spec _).safe.bind fun _ => renameNext_safe

/-! ## Replacement -/

/-- Recovered, one way or the other. -/
def Recovered (T : Transaction γ) (w : SyncPast γ) : Prop := T.Sound w ∧ w.state.journal = none

theorem recover_safe (pid : Pid) (activeOwnerPid : Option Pid) :
    T.Safe host T.Sound (recoverProtocolSync pid activeOwnerPid) fun _ => T.Recovered := by
  rintro fates w ⟨committed, hw⟩ hassumed
  have hrecover : T.Spec host false committed (T.Phase committed)
      (recoverProtocolSync pid activeOwnerPid) fun _ => T.Closed committed :=
    recover_spec pid activeOwnerPid nofun
  refine (hrecover.safe.weaken (fun _ h => h) fun _ w h => ?_) fates w hw hassumed
  exact ⟨h.sound fun hclosed => hclosed.phase, h.state.1⟩

theorem rollBack_safe (pid : Pid) (error : SyncError) :
    T.Safe host T.Sound (rollBack pid error) fun _ _ => False := by
  have hrecover : T.Safe host T.Sound (tryCatch (recoverProtocolSync (γ := γ) pid (some pid))
      fun recoveryError => throw (SyncError.rollbackFailed error recoveryError)) fun _ => T.Sound :=
    (recover_safe pid (some pid)).tryCatch (fun _ w hw => hw.1) fun _ =>
      CrashLogic.triple_ended fun w hw => hw
  exact hrecover.bind fun _ => CrashLogic.triple_ended fun w hw => hw

theorem replaceStagedProtocol_safe :
    T.Safe host (T.At false T.Opened) (replaceStagedProtocol T.owner T.root) fun _ =>
      T.Recovered := by
  have hinspect : T.Spec host false false T.Opened (inspectEntries replacementPaths)
      fun entries tree => entries = replacementPaths.map T.entry ∧
        T.Inspecting replacementPaths tree :=
    (inspectEntries_spec replacementPaths []).weaken (fun tree h => ⟨h, fun _ hmem => nomatch hmem⟩)
      fun _ _ h => h
  have hforward : T.Safe host (T.At false (T.Forward [])) (do
      Script.each (replaceEntry T.root) (T.journal .prepared).entries
      commitJournal (T.journal .prepared)) fun _ => T.At true (T.Phase true) :=
    replaceEntries_spec.safe.bind fun _ => commitJournal_safe
  have hreplace : T.Safe host (T.At false (T.Forward [])) (do
      try
        Script.each (replaceEntry T.root) (T.journal .prepared).entries
        commitJournal (T.journal .prepared)
      catch error => rollBack T.owner error
      recoverProtocolSync T.owner (some T.owner)) fun _ => T.Recovered := by
    have htry : T.Safe host (T.At false (T.Forward [])) (tryCatch (do
        Script.each (replaceEntry T.root) (T.journal .prepared).entries
        commitJournal (T.journal .prepared)) fun error => rollBack T.owner error) fun _ =>
          T.Sound :=
      hforward.tryCatch (fun _ w hw => hw.sound id) fun error =>
        (rollBack_safe T.owner error).weaken (fun _ hw => hw) fun _ _ hw => hw.elim
    exact htry.bind fun _ => recover_safe T.owner (some T.owner)
  refine hinspect.safe.bind fun entries => ?_
  rintro fates w hw
  obtain rfl := hw.state.1
  refine Safe.bind (Q := fun _ => T.At false (T.Forward [])) ?_ (fun _ => hreplace) fates w hw
  exact createJournal_spec.safe.weaken (fun _ hw => hw.imp fun h => h.2) fun _ _ hw => hw

/-! ## Synchronization -/

theorem disposeStaging_spec :
    T.Spec host false committed (T.Phase committed) (disposeStaging T.root) fun _ =>
      T.Phase committed := by
  refine (Spec.journalExists fun tree h => h).bind fun found => ?_
  cases found with
  | false =>
    refine (Spec.removeStaging T.root).weaken (fun tree h => ?_) fun _ tree h => h.phase
    have hnone : tree.journal = none := by simpa using h.2
    exact ⟨hnone, h.1.settled hnone⟩
  | true =>
    simp only [if_true]
    refine (Spec.readJournalFile (fun tree h => h.1) nofun).bind fun bytes => ?_
    refine Spec.assume (p := Holds (T.journal (stateOf committed)) bytes)
      (fun tree h => h.1.1.holds h.2) fun hholds => ?_
    rw [parseJournal_of_holds hholds]
    refine Spec.ok ?_
    have hpoints : pointsTo T.root (parsed (T.journal (stateOf committed)).record) = true := by
      have hchild : (parsed (T.journal (stateOf committed)).record).child (js "stageRoot") =
          some (.leaf (.string T.root)) := by
        rw [child_parsed]
        rfl
      rw [pointsTo, hchild]
      exact decide_eq_true rfl
    rw [hpoints]
    exact Spec.pure fun tree h => h.1.1

/-- No journal and the originals. -/
def Untouched (T : Transaction γ) (tree : Tree γ) : Prop := tree.journal = none ∧ T.IsOriginal tree

theorem mkdtemp_spec (hroot : T.root = stagePath host.temporaryRoot ++ host.suffix.val) :
    T.Spec host false false T.Untouched (mkdtemp (stagePath host.temporaryRoot)) fun root tree =>
      root = T.root ∧ T.Untouched tree ∧ tree.staging T.root = some .empty := by
  refine Spec.whole rfl (fun tree h => Or.inl h) nofun ?_
  intro tree answer s h hperform
  simp only [performFile, ← hroot] at hperform
  split at hperform
  · obtain ⟨rfl, rfl⟩ := Prod.mk.inj (Except.ok.inj hperform)
    have hs : T.Untouched (tree.putStaging T.root (some .empty)) := h
    refine ⟨⟨rfl, hs, Function.update_self _ _ _⟩, Or.inl hs, KeepsBackups.of_journal ?_⟩
    rw [journalState_of_none h.1]
    simp
  · cases hperform

theorem stageInputs_spec :
    T.Spec host false false
      (fun tree => T.Untouched tree ∧ tree.staging T.root = some .empty)
      (command (.stageInputs T.root T.staged)) fun _ => T.Opened := by
  have hbackups : ∀ (tree s : Tree γ), T.Untouched tree → KeepsBackups tree s := by
    intro tree s h
    refine KeepsBackups.of_journal ?_
    rw [journalState_of_none h.1]
    simp
  refine Spec.command ?_ (fun tree h => Or.inl h.1) nofun ?_
  · intro tree _ s h hperform _
    rw [performFile, h.2] at hperform
    obtain rfl := (Prod.mk.inj (Except.ok.inj hperform)).2
    have hs : T.Opened (tree.putStaging T.root (some { staged := T.staged, backup := fun _ => none })) :=
      ⟨h.1.1, h.1.2, Function.update_self _ _ _⟩
    exact ⟨hs, hs.phase, hbackups _ _ h.1⟩
  · intro tree left h _
    rw [leaveFile]
    split
    · exact ⟨Or.inl h.1, hbackups _ _ h.1⟩
    · exact ⟨Or.inl h.1, hbackups _ _ h.1⟩

end Transaction

/-- What a synchronization does when nothing is left to recover. -/
def stageAndReplace (pid : Pid) (staged : ReplacementPath → Option (Node γ)) : Sync γ Unit := do
  command .readInputs
  let temporaryRoot ← realTemporaryRoot
  let stageRoot ← mkdtemp (stagePath temporaryRoot)
  Script.andFinally (do
    command (.stageInputs stageRoot staged)
    replaceStagedProtocol pid stageRoot) (disposeStaging stageRoot)

def recoverFirst (pid : Pid) : Sync γ Unit := do
  command .requireRoot
  recoverProtocolSync pid none

theorem synchronizeProtocol_eq (pid : Pid) (staged : ReplacementPath → Option (Node γ)) :
    synchronizeProtocol pid staged = recoverFirst pid >>= fun _ => stageAndReplace pid staged :=
  (Script.bind_assoc _ _ _).symm

namespace Transaction

variable {T : Transaction γ} {host : Host}

theorem stageAndReplace_safe (hroot : T.root = stagePath host.temporaryRoot ++ host.suffix.val) :
    T.Safe host (T.At false T.Untouched) (stageAndReplace T.owner T.staged) fun _ => T.Sound := by
  have hinputs : T.Spec host false false T.Untouched (command .readInputs) fun _ => T.Untouched :=
    Spec.check rfl (fun tree h => Or.inl h) nofun
  have htemporary : T.Spec host false false T.Untouched realTemporaryRoot fun root tree =>
      T.Untouched tree ∧ root = host.temporaryRoot :=
    Spec.realTemporaryRoot fun tree h => Or.inl h
  have hdispose : ∀ result : Except SyncError Unit,
      (T.logic host false).Triple T.Sound (do
        disposeStaging T.root
        Script.ended result) fun _ => T.Sound := by
    intro result
    have hlast : T.Safe host T.Sound (disposeStaging T.root) fun _ => T.Sound := by
      rintro fates w ⟨committed, hw⟩ hassumed
      exact (disposeStaging_spec.safe.weaken (fun _ h => h) fun _ w h => h.sound id) fates w hw
        hassumed
    refine CrashLogic.Triple.bind hlast (fun _ => CrashLogic.triple_ended fun w hw => hw) ?_
    exact fun _ _ hw => hw
  have hbody : T.Safe host
      (T.At false fun tree => T.Untouched tree ∧ tree.staging T.root = some .empty) (do
        command (.stageInputs T.root T.staged)
        replaceStagedProtocol T.owner T.root) fun _ => T.Sound :=
    stageInputs_spec.safe.bind fun _ =>
      replaceStagedProtocol_safe.weaken (fun _ hw => hw) fun _ _ hw => hw.1
  refine hinputs.safe.bind fun _ => htemporary.safe.bind fun root => ?_
  rintro fates w hw
  obtain rfl := hw.state.2
  refine Safe.bind ((mkdtemp_spec hroot).safe.weaken (fun _ hw => hw.imp And.left) fun _ _ hw => hw)
    (fun stageRoot => ?_) fates w hw
  rintro fates w hw
  obtain rfl := hw.state.1
  have hfinally : T.Safe host
      (T.At false fun tree => T.Untouched tree ∧ tree.staging T.root = some .empty)
      (Script.andFinally (do
        command (.stageInputs T.root T.staged)
        replaceStagedProtocol T.owner T.root) (disposeStaging T.root)) fun _ => T.Sound :=
    safe_iff.mpr (CrashLogic.Triple.resume (safe_iff.mp hbody) hdispose)
  exact hfinally fates w (hw.imp fun h => h.2)

end Transaction

end Scripts
