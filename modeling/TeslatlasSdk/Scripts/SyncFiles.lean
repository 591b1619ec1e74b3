import TeslatlasSdk.Core.Script
import TeslatlasSdk.Text.Utf8Encoder
import Mathlib.Logic.Function.Basic

/-!
# The files of the Protocol synchronization

The tree as far as `sync-protocol.mjs` touches it: what stands at the replacement paths, in the
staging directories and in the two journal files.  A node's content is all that is below it.
-/

open Text Core

namespace Scripts

inductive NodeKind where
  | directory
  | regularFile
  /-- A symbolic link, or anything else. -/
  | other
  deriving DecidableEq, Repr

structure Node (γ : Type) where
  kind : NodeKind
  content : γ
  deriving DecidableEq, Repr

inductive ReplacementPath where
  | source
  | protocol
  | validators
  | protocolCases
  | eventCatalog
  | hubProtocol
  | hubValidators
  | hubValidatorTypes
  | lock
  deriving DecidableEq, Repr

def replacementPaths : List ReplacementPath :=
  [.source, .protocol, .validators, .protocolCases, .eventCatalog, .hubProtocol, .hubValidators,
    .hubValidatorTypes, .lock]

theorem mem_replacementPaths (path : ReplacementPath) : path ∈ replacementPaths := by
  cases path <;> decide

def ReplacementPath.text : ReplacementPath → JsString
  | .source => js "protocol/source"
  | .protocol => js "src/generated/protocol.ts"
  | .validators => js "src/generated/validators.ts"
  | .protocolCases => js "src/generated/protocol-cases.ts"
  | .eventCatalog => js "src/generated/event-catalog.ts"
  | .hubProtocol => js "src/generated/hub-protocol.ts"
  | .hubValidators => js "src/generated/hub-validators.js"
  | .hubValidatorTypes => js "src/generated/hub-validators.d.ts"
  | .lock => js "protocol/lock.json"

/-- `requireRealDirectory` for the source directory, `requireRegularFile` for the others. -/
def ReplacementPath.kind : ReplacementPath → NodeKind
  | .source => .directory
  | _ => .regularFile

/-- `protocol` and `src/generated`. -/
inductive ReplacementParent where
  | protocol
  | generated
  deriving DecidableEq, Repr

def ReplacementPath.parent : ReplacementPath → ReplacementParent
  | .source => .protocol
  | .lock => .protocol
  | _ => .generated

/-- A staging directory: new nodes under their paths, and old ones under `.backup`. -/
structure Staging (γ : Type) where
  staged : ReplacementPath → Option (Node γ)
  backup : ReplacementPath → Option (Node γ)

structure Tree (γ : Type) where
  parent : ReplacementParent → Option NodeKind
  target : ReplacementPath → Option (Node γ)
  staging : JsString → Option (Staging γ)
  /-- `protocol/.sync-transaction.json`. -/
  journal : Option (List UInt8)
  /-- The same name with `.next`. -/
  next : Option (List UInt8)

inductive Place where
  | target (path : ReplacementPath)
  | staged (root : JsString) (path : ReplacementPath)
  | backup (root : JsString) (path : ReplacementPath)
  deriving DecidableEq, Repr

inductive SyncError where
  /-- An operation of the system, a check of a path, or a failpoint. -/
  | operationFailed
  | commitNotPinned
  | journalNotJson
  | journalInvalid
  | journalOwned
  /-- `AggregateError`. -/
  | rollbackFailed (error recoveryError : SyncError)
  deriving DecidableEq, Repr

/-- A positive safe integer. -/
abbrev SafeNatural := { n : Nat // 0 < n ∧ n ≤ 2 ^ 53 - 1 }

abbrev Pid := SafeNatural

/-- An absolute path without links and dots in it, as `realpath` answers. -/
structure RealPath where
  components : List JsString
  proper : ∀ name ∈ components, name ≠ [] ∧ 0x2F ∉ name

def RealPath.text (path : RealPath) : JsString :=
  if path.components = [] then [0x2F] else path.components.flatMap (0x2F :: ·)

def isAlphanumeric (u : CodeUnit) : Bool :=
  (0x30 ≤ u && u ≤ 0x39) || (0x41 ≤ u && u ≤ 0x5A) || (0x61 ≤ u && u ≤ 0x7A)

/-- The characters that `mkdtemp` appends. -/
abbrev RandomSuffix := { s : JsString // s ≠ [] ∧ s.all isAlphanumeric = true }

inductive FileOperation (γ : Type) where
  /-- `requireRealDirectory(root)`. -/
  | requireRoot
  /-- Reading the lock and the inputs, and the check of the pinned commit. -/
  | readInputs
  | realTemporaryRoot
  | mkdtemp (namePrefix : JsString)
  /-- All that is done in the staging directory: inputs, locks and generation. -/
  | stageInputs (root : JsString) (staged : ReplacementPath → Option (Node γ))
  | ensureParent (parent : ReplacementParent)
  /-- `realpath(dirname(target)) !== dirname(target)`. -/
  | requireParent (parent : ReplacementParent)
  | requireStaging (root : JsString)
  | pathExists (place : Place)
  | requireKind (kind : NodeKind) (place : Place)
  /-- `mkdir(dirname(backup), { recursive: true })`. -/
  | makeBackupParent (root : JsString)
  | rename (source target : Place)
  /-- `rm` with `recursive` and `force`. -/
  | remove (place : Place)
  | removeStaging (root : JsString)
  | journalExists
  | requireJournal
  | readJournal
  /-- `writeFile` with the flag `wx`. -/
  | createJournal (text : JsString)
  | createNext (text : JsString)
  | renameNext
  | removeNext
  | removeJournal
  | processIsAlive (pid : Pid)
  | failpoint

def FileOperation.Answer {γ : Type} : FileOperation γ → Type
  | .realTemporaryRoot => RealPath
  | .mkdtemp _ => JsString
  | .pathExists _ => Bool
  | .journalExists => Bool
  | .readJournal => List UInt8
  | .processIsAlive _ => Bool
  | _ => Unit

instance {γ : Type} : Operations (FileOperation γ) where
  Answer := FileOperation.Answer

/-- What an operation leaves that stops short: whether it has taken place after all, how much has
been written, and what is left of what was to be removed. -/
structure Leftover (γ : Type) where
  took : Bool
  bytes : Nat
  node : Option (Node γ)
  staging : Option (Staging γ)

/-- A process, and the machine as it finds it. -/
structure Host where
  pid : Pid
  /-- `realpath(tmpdir())`. -/
  temporaryRoot : RealPath
  /-- What `mkdtemp` chooses. -/
  suffix : RandomSuffix
  alive : Pid → Bool
  /-- Whether the checkout is at the pinned commit. -/
  pinned : Bool

variable {γ : Type}

namespace Tree

def node (tree : Tree γ) : Place → Option (Node γ)
  | .target path => tree.target path
  | .staged root path => (tree.staging root).bind (·.staged path)
  | .backup root path => (tree.staging root).bind (·.backup path)

def put (tree : Tree γ) (found : Option (Node γ)) : Place → Tree γ
  | .target path => { tree with target := Function.update tree.target path found }
  | .staged root path =>
      { tree with staging := Function.update tree.staging root <| (tree.staging root).map fun st =>
          { st with staged := Function.update st.staged path found } }
  | .backup root path =>
      { tree with staging := Function.update tree.staging root <| (tree.staging root).map fun st =>
          { st with backup := Function.update st.backup path found } }

def putStaging (tree : Tree γ) (root : JsString) (st : Option (Staging γ)) : Tree γ :=
  { tree with staging := Function.update tree.staging root st }

def hasParent (tree : Tree γ) : Place → Bool
  | .target path => tree.parent path.parent = some .directory
  | .staged root _ => (tree.staging root).isSome
  | .backup root _ => (tree.staging root).isSome

/-- Whether a node may be renamed to a place; a directory takes no other node's place. -/
def admits (tree : Tree γ) (node : Node γ) (place : Place) : Bool :=
  tree.hasParent place && match tree.node place with
    | none => true
    | some old => old.kind ≠ .directory && node.kind ≠ .directory

def rename (tree : Tree γ) (source target : Place) : Option (Tree γ) :=
  match tree.node source with
  | none => none
  | some node =>
      if tree.admits node target then some ((tree.put none source).put (some node) target) else none

end Tree

def Staging.empty : Staging γ := { staged := fun _ => none, backup := fun _ => none }

def ensure (condition : Bool) : Except SyncError Unit :=
  if condition then .ok () else .error .operationFailed

def orFail {α : Type} (found : Option α) : Except SyncError α :=
  match found with
  | some a => .ok a
  | none => .error .operationFailed

/-- An operation that is carried out. -/
def performFile (host : Host) (operation : FileOperation γ) (tree : Tree γ) :
    Except SyncError (operation.Answer × Tree γ) :=
  match operation with
  | .requireRoot => .ok ((), tree)
  | .readInputs => if host.pinned then .ok ((), tree) else .error .commitNotPinned
  | .realTemporaryRoot => .ok (host.temporaryRoot, tree)
  | .mkdtemp namePrefix =>
      let root := namePrefix ++ host.suffix.val
      if (tree.staging root).isNone then .ok (root, tree.putStaging root (some .empty))
      else .error .operationFailed
  | .stageInputs root staged =>
      (orFail (tree.staging root)).map fun st =>
        ((), tree.putStaging root (some { st with staged := staged }))
  | .ensureParent parent =>
      match tree.parent parent with
      | none =>
          .ok ((), { tree with parent := Function.update tree.parent parent (some .directory) })
      | some kind => (ensure (kind = .directory)).map fun _ => ((), tree)
  | .requireParent parent =>
      (ensure (tree.parent parent = some .directory)).map fun _ => ((), tree)
  | .requireStaging root => (ensure (tree.staging root).isSome).map fun _ => ((), tree)
  | .pathExists place => .ok ((tree.node place).isSome, tree)
  | .requireKind kind place =>
      (ensure ((tree.node place).map (·.kind) = some kind)).map fun _ => ((), tree)
  | .makeBackupParent root =>
      .ok ((), tree.putStaging root (some ((tree.staging root).getD .empty)))
  | .rename source target => (orFail (tree.rename source target)).map fun tree => ((), tree)
  | .remove place => .ok ((), tree.put none place)
  | .removeStaging root => .ok ((), tree.putStaging root none)
  | .journalExists => .ok (tree.journal.isSome, tree)
  | .requireJournal => (ensure tree.journal.isSome).map fun _ => ((), tree)
  | .readJournal => (orFail tree.journal).map fun bytes => (bytes, tree)
  | .createJournal text =>
      (ensure tree.journal.isNone).map fun _ => ((), { tree with journal := some (utf8Encode text) })
  | .createNext text =>
      (ensure tree.next.isNone).map fun _ => ((), { tree with next := some (utf8Encode text) })
  | .renameNext =>
      (orFail tree.next).map fun bytes => ((), { tree with journal := some bytes, next := none })
  | .removeNext => .ok ((), { tree with next := none })
  | .removeJournal =>
      (ensure tree.journal.isSome).map fun _ => ((), { tree with journal := none })
  | .processIsAlive pid => .ok (host.alive pid, tree)
  | .failpoint => .ok ((), tree)

/-- A new file of which some bytes may have been written. -/
def writtenPart (text : JsString) (left : Leftover γ) (file : Option (List UInt8)) :
    Option (List UInt8) :=
  if file.isNone && left.took then some ((utf8Encode text).take left.bytes) else file

def leaveFile (host : Host) (operation : FileOperation γ) (left : Leftover γ) (tree : Tree γ) :
    Tree γ :=
  match operation with
  | .stageInputs root _ =>
      match tree.staging root, left.staging with
      | some st, some rest => tree.putStaging root (some { st with staged := rest.staged })
      | _, _ => tree
  | .remove place => if (tree.node place).isSome then tree.put left.node place else tree
  | .removeStaging root =>
      if (tree.staging root).isSome then tree.putStaging root left.staging else tree
  | .createJournal text => { tree with journal := writtenPart text left tree.journal }
  | .createNext text => { tree with next := writtenPart text left tree.next }
  | operation =>
      if left.took then
        match performFile host operation tree with
        | .ok (_, tree) => tree
        | .error _ => tree
      else tree

def files (host : Host) : Platform (FileOperation γ) SyncError (Tree γ) (Leftover γ) where
  perform := performFile host
  leave := leaveFile host
  fault := .operationFailed

abbrev Sync (γ : Type) := Script (FileOperation γ) SyncError

/-! ## Places -/

def Place.path : Place → ReplacementPath
  | .target path => path
  | .staged _ path => path
  | .backup _ path => path

namespace Tree

variable {tree later : Tree γ} {found : Option (Node γ)} {place other : Place}

/-- Whether there is a directory to put something in. -/
def HasRoom (tree : Tree γ) : Place → Prop
  | .target _ => True
  | .staged root _ => (tree.staging root).isSome = true
  | .backup root _ => (tree.staging root).isSome = true

@[simp] theorem put_journal : (tree.put found place).journal = tree.journal := by
  cases place <;> rfl

@[simp] theorem put_next : (tree.put found place).next = tree.next := by
  cases place <;> rfl

@[simp] theorem put_parent : (tree.put found place).parent = tree.parent := by
  cases place <;> rfl

@[simp] theorem put_staging_isSome (root : JsString) :
    ((tree.put found place).staging root).isSome = (tree.staging root).isSome := by
  cases place with
  | target path => rfl
  | staged root' path | backup root' path =>
    simp only [put, Function.update_apply]
    split
    · next h => rw [h, Option.isSome_map]
    · rfl

theorem node_put_self (h : tree.HasRoom place) : (tree.put found place).node place = found := by
  cases place with
  | target path => simp [put, node]
  | staged root path | backup root path =>
    obtain ⟨st, hst⟩ := Option.isSome_iff_exists.mp h
    simp [put, node, hst]

theorem node_put_target {path : ReplacementPath} :
    (tree.put found (.target path)).node (.target path) = found :=
  node_put_self trivial

theorem node_put_ne (h : other ≠ place) : (tree.put found place).node other = tree.node other := by
  cases place with
  | target path =>
    cases other with
    | target path' =>
      have hpath : path' ≠ path := fun heq => h (by rw [heq])
      exact Function.update_of_ne hpath _ _
    | staged root' path' | backup root' path' => rfl
  | staged root path | backup root path =>
    cases other with
    | target path' => rfl
    | staged root' path' | backup root' path' =>
      simp only [put, node, Function.update_apply]
      split
      · next hroot =>
        subst hroot
        cases tree.staging root' with
        | none => rfl
        | some st =>
          first
          | rfl
          | exact Function.update_of_ne (fun heq => h (by rw [heq])) _ _
      · rfl

theorem rename_eq_some (h : tree.rename place other = some later) :
    ∃ moved, tree.node place = some moved ∧ tree.HasRoom other ∧
      later = (tree.put none place).put (some moved) other := by
  rw [rename] at h
  split at h
  · cases h
  · next moved hmoved =>
    split at h
    · next hadmits =>
      refine ⟨moved, hmoved, ?_, (Option.some.inj h).symm⟩
      rw [admits, Bool.and_eq_true] at hadmits
      cases other with
      | target path => trivial
      | staged root path | backup root path => exact hadmits.1
    · cases h

theorem rename_isSome {moved : Node γ} (hmoved : tree.node place = some moved)
    (hparent : tree.hasParent other = true) (hfree : tree.node other = none) :
    (tree.rename place other).isSome = true := by
  have hadmits : tree.admits moved other = true := by
    rw [admits, hparent, hfree]
    rfl
  simp only [rename, hmoved, if_pos hadmits, Option.isSome_some]

theorem rename_nodes (h : tree.rename place other = some later) (hne : place ≠ other)
    (hroom : tree.HasRoom place) : ∃ moved, tree.node place = some moved ∧
      later.node place = none ∧ later.node other = some moved ∧
      ∀ third, third ≠ place → third ≠ other → later.node third = tree.node third := by
  obtain ⟨moved, hmoved, hroom', rfl⟩ := rename_eq_some h
  refine ⟨moved, hmoved, ?_, ?_, fun third hplace hother => ?_⟩
  · rw [node_put_ne hne, node_put_self hroom]
  · refine node_put_self ?_
    cases other with
    | target path => trivial
    | staged root path | backup root path =>
      show ((tree.put none place).staging root).isSome = true
      rw [put_staging_isSome]
      exact hroom'
  · rw [node_put_ne hother, node_put_ne hplace]

theorem rename_rest (h : tree.rename place other = some later) :
    later.journal = tree.journal ∧ later.next = tree.next ∧ later.parent = tree.parent ∧
      ∀ root, (later.staging root).isSome = (tree.staging root).isSome := by
  obtain ⟨moved, -, -, rfl⟩ := rename_eq_some h
  simp

end Tree

end Scripts
