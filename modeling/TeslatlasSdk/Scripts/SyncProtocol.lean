import TeslatlasSdk.Scripts.SyncJournal

/-!
# `sync-protocol.mjs`

The transaction that puts staged files in the place of the replacement paths, the recovery from a
journal, and the synchronization around them.
-/

open Text Core Json

namespace Scripts

variable {γ : Type}

/-! ## Operations -/

def operate (operation : FileOperation γ) : Sync γ (Answer operation) := .operate operation

def pathExists (place : Place) : Sync γ Bool := operate (.pathExists place)

def journalExists : Sync γ Bool := operate .journalExists

def readJournalFile : Sync γ (List UInt8) := operate .readJournal

def realTemporaryRoot : Sync γ RealPath := operate .realTemporaryRoot

def mkdtemp (namePrefix : JsString) : Sync γ JsString := operate (.mkdtemp namePrefix)

def processIsAlive (pid : Pid) : Sync γ Bool := operate (.processIsAlive pid)

/-- An operation for its effect alone. -/
def command (operation : FileOperation γ) : Sync γ Unit := do
  let _ ← operate operation

/-! ## Recovery -/

def putBack (stageRoot : JsString) (path : ReplacementPath) : Sync γ Unit := do
  command (.requireKind path.kind (.backup stageRoot path))
  command (.remove (.target path))
  command (.rename (.backup stageRoot path) (.target path))

/-- A path that had no original: what has been moved there from the staging goes. -/
def removeNew (stageRoot : JsString) (path : ReplacementPath) : Sync γ Unit := do
  if ¬ (← pathExists (.staged stageRoot path)) then
    command (.remove (.target path))

def restoreEntry (stageRoot : JsString) (entry : JournalEntry) : Sync γ Unit := do
  command (.requireParent entry.path.parent)
  if ← pathExists (.backup stageRoot entry.path) then
    putBack stageRoot entry.path
  else if entry.originallyPresent = false then
    removeNew stageRoot entry.path

/-- A journal is left to a process that may be at work. -/
def refuseOther (pid : Pid) (activeOwnerPid : Option Pid) (journal : Journal) : Sync γ Unit := do
  if ¬ (activeOwnerPid = some pid ∧ journal.ownerPid = pid) then
    if ← processIsAlive journal.ownerPid then
      throw SyncError.journalOwned

def restoreEntries (journal : Journal) : Sync γ Unit := do
  if journal.state = .prepared then
    command (.requireStaging journal.stageRoot)
    Script.each (restoreEntry journal.stageRoot) journal.entries.reverse

def removeJournal (journal : Journal) : Sync γ Unit := do
  command .removeNext
  command .removeJournal
  command .failpoint
  command (.removeStaging journal.stageRoot)

def recoverProtocolSync (pid : Pid) (activeOwnerPid : Option Pid) : Sync γ Unit := do
  command .requireRoot
  if ← journalExists then
    command .requireJournal
    let value ← Script.ofExcept (parseJournal (← readJournalFile))
    let journal ← Script.ofExcept (checkJournal (← realTemporaryRoot) value)
    refuseOther pid activeOwnerPid journal
    restoreEntries journal
    removeJournal journal

/-! ## Replacement -/

def inspectEntries : List ReplacementPath → Sync γ (List JournalEntry)
  | [] => return []
  | path :: paths => do
      command (.ensureParent path.parent)
      let originallyPresent ← pathExists (.target path)
      if originallyPresent then
        command (.requireKind path.kind (.target path))
      let entries ← inspectEntries paths
      return { path, originallyPresent } :: entries

def replaceEntry (stageRoot : JsString) (entry : JournalEntry) : Sync γ Unit := do
  let target := Place.target entry.path
  let backup := Place.backup stageRoot entry.path
  if entry.originallyPresent then
    command (.makeBackupParent stageRoot)
    command (.rename target backup)
  command (.rename (.staged stageRoot entry.path) target)
  command .failpoint

def commitJournal (journal : Journal) : Sync γ Unit := do
  command (.createNext (stableJson { journal with state := .committed }))
  command .renameNext

/-- The rollback of a failed replacement, which throws. -/
def rollBack (pid : Pid) (error : SyncError) : Sync γ Unit := do
  try
    recoverProtocolSync pid (some pid)
  catch recoveryError =>
    throw (SyncError.rollbackFailed error recoveryError)
  throw error

def replaceStagedProtocol (pid : Pid) (stageRoot : JsString) : Sync γ Unit := do
  let entries ← inspectEntries replacementPaths
  let journal : Journal := { state := .prepared, ownerPid := pid, stageRoot, entries }
  command (.createJournal (stableJson journal))
  try
    Script.each (replaceEntry stageRoot) entries
    commitJournal journal
  catch error => rollBack pid error
  recoverProtocolSync pid (some pid)

/-! ## Synchronization -/

/-- `JSON.parse(...).stageRoot === stageRoot`. -/
def pointsTo (stageRoot : JsString) (value : Value) : Bool :=
  match value.child (js "stageRoot") with
  | some (.leaf (.string root)) => root = stageRoot
  | _ => false

/-- The `finally` of `synchronizeProtocol`: the staging stays where a journal points to it. -/
def disposeStaging (stageRoot : JsString) : Sync γ Unit := do
  if ← journalExists then
    let value ← Script.ofExcept (parseJournal (← readJournalFile))
    if !pointsTo stageRoot value then
      command (.removeStaging stageRoot)
  else
    command (.removeStaging stageRoot)

def synchronizeProtocol (pid : Pid) (staged : ReplacementPath → Option (Node γ)) :
    Sync γ Unit := do
  command .requireRoot
  recoverProtocolSync pid none
  command .readInputs
  let temporaryRoot ← realTemporaryRoot
  let stageRoot ← mkdtemp (stagePath temporaryRoot)
  Script.andFinally (do
    command (.stageInputs stageRoot staged)
    replaceStagedProtocol pid stageRoot) (disposeStaging stageRoot)

end Scripts
