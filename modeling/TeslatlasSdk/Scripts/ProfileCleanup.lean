import TeslatlasSdk.Scripts.FirefoxProfile

/-!
# Preparing and cleaning up a browser profile

The functions of `firefox-nss-profile.mjs`, each in the thread of its call.  `startClose` and
`awaitClose` leave work behind, to a promise chain and to a timer, which are threads of their own.
-/

open Text Core

namespace FirefoxProfile

/-- The standard library and the process, as far as the script uses them. -/
structure Environment where
  isAbsolute : JsString → Bool
  resolve : JsString → JsString
  dirname : JsString → JsString
  basename : JsString → JsString
  join : JsString → JsString → JsString
  tmpdir : JsString
  /-- `process.getuid()`, where there is one. -/
  getuid : Option Nat

structure ProfileOptions where
  certutilPath : Option JsString := none
  certificatePath : JsString
  temporaryParent : Option JsString := none
  closeTimeoutMs : Option JsNumber := none
  certutilTimeoutMs : Option JsNumber := none
  headless : Option Bool := none

def firefoxNssCertutil : JsString := js "/opt/homebrew/opt/nss/bin/certutil"

def certificateNickname : JsString := js "Teslatlas Hub disposable CA"

def profilePrefix : JsString := js "teslatlas-firefox-nss-"

def boundedTimeout (value : JsNumber) : Except Failure Int :=
  match value.safeInteger? with
  | some value =>
      if 1 ≤ value ∧ value ≤ 2147483647 then .ok value
      else .error (.script (js "Firefox timeout must be a positive bounded integer"))
  | none => .error (.script (js "Firefox timeout must be a positive bounded integer"))

def processOptions (timeout : Int) : ProcessOptions where
  encoding := js "utf8"
  maxBuffer := 1024 * 1024
  shell := false
  timeout
  killSignal := js "SIGKILL"

/-! ## Calls -/

def act (i : Nat) (action : ProfileAction) : ProfileAsync Unit := Async.perform ⟨i, action⟩

/-- Calls whose values are awaited, several with `Promise.all`.  A rejection does not wait for the
other calls. -/
def callAll (i : Nat) (calls : List SystemCall) : ProfileAsync (List SystemValue) := do
  act i (.called calls)
  match ← Async.await (.calls calls) with
  | .settled result =>
      act i (.answered calls result)
      Async.ofExcept result
  | .tick => throw .typeError

/-- A call whose value is not used. -/
def command (i : Nat) (call : SystemCall) : ProfileAsync Unit := do
  let _ ← callAll i [call]
  return ()

def readStat (i : Nat) (path : JsString) : ProfileAsync FileStat := do
  match ← callAll i [.lstat path] with
  | [.stat stat] => return stat
  | _ => throw .typeError

def resolvePath (i : Nat) (path : JsString) : ProfileAsync JsString := do
  match ← callAll i [.realpath path] with
  | [.path path] => return path
  | _ => throw .typeError

/-- `Promise.all([resolvePath(path), readStat(path)])`. -/
def inspect (i : Nat) (path : JsString) : ProfileAsync (JsString × FileStat) := do
  match ← callAll i [.realpath path, .lstat path] with
  | [.path canonical, .stat stat] => return (canonical, stat)
  | _ => throw .typeError

/-! ## Ownership -/

inductive PathKind where
  | file
  | directory
  deriving DecidableEq, Repr

def PathKind.text : PathKind → JsString
  | .file => js "file"
  | .directory => js "directory"

def PathKind.isKindOf (stat : FileStat) : PathKind → Bool
  | .file => stat.isFile
  | .directory => stat.isDirectory

/-- Whether the path is open to others: `(mode & 0o077) !== 0`. -/
def FileStat.isShared (stat : FileStat) : Bool := stat.mode &&& 0o077 ≠ 0

/-- Whether the process has an owner, and the path another. -/
def FileStat.isForeign (env : Environment) (stat : FileStat) : Bool :=
  env.getuid.any fun uid => stat.uid ≠ some uid

/-- The checks of `requireOwnerOnlyPath` on what it has read. -/
def requireOwnerOnly (env : Environment) (path label : JsString) (kind : PathKind)
    (canonical : JsString) (stat : FileStat) : Except Failure Unit :=
  if canonical ≠ path ∨ stat.isSymbolicLink then
    .error (.script (label ++ js " path must be canonical"))
  else if !kind.isKindOf stat then .error (.script (label ++ js " must be a " ++ kind.text))
  else if stat.isForeign env then
    .error (.script (label ++ js " must be owned by the current user"))
  else if stat.isShared then .error (.script (label ++ js " must be owner-only"))
  else .ok ()

def requireOwnerOnlyPath (env : Environment) (i : Nat) (path label : JsString) (kind : PathKind) :
    ProfileAsync Unit :=
  if env.isAbsolute path ∧ env.resolve path = path then do
    let (canonical, stat) ← inspect i path
    Async.ofExcept (requireOwnerOnly env path label kind canonical stat)
  else throw (.script (label ++ js " path must be absolute and normalized"))

def ownershipUnknown : Failure := .script (js "Firefox profile ownership cannot be established")

def directoryIdentity (env : Environment) (stat : FileStat) : Except Failure DirectoryIdentity :=
  match stat.dev, stat.ino, stat.uid with
  | some dev, some ino, some uid =>
      if !stat.isDirectory ∨ stat.isSymbolicLink ∨ stat.isShared ∨ stat.isForeign env then
        .error ownershipUnknown
      else .ok { dev, ino, uid }
  | _, _, _ => .error ownershipUnknown

def sameDirectory (env : Environment) (stat : FileStat) (identity : DirectoryIdentity) :
    Except Failure Bool := do
  let current ← directoryIdentity env stat
  return current.dev = identity.dev && current.ino = identity.ino && current.uid = identity.uid

/-- The checks of `captureProfileAuthority` on what it has read. -/
def profileAuthority (env : Environment) (profilePath parent canonicalProfile : JsString)
    (canonicalParent : JsString) (profileStat parentStat : FileStat) :
    Except Failure ProfileAuthority :=
  if canonicalProfile ≠ profilePath ∨ canonicalParent ≠ parent ∨ env.dirname profilePath ≠ parent
  then .error ownershipUnknown
  else do
    let profile ← directoryIdentity env profileStat
    let parent ← directoryIdentity env parentStat
    return { profile, parent }

def captureProfileAuthority (env : Environment) (i : Nat) (profilePath parent : JsString) :
    ProfileAsync ProfileAuthority := do
  match ← callAll i [.realpath profilePath, .realpath parent, .lstat profilePath, .lstat parent] with
  | [.path canonicalProfile, .path canonicalParent, .stat profileStat, .stat parentStat] =>
      Async.ofExcept (profileAuthority env profilePath parent canonicalProfile canonicalParent
        profileStat parentStat)
  | _ => throw .typeError

/-! ## Closing -/

/-- `finish` of a waiter's `awaitClose`. -/
def finish (i waiter : Nat) : ProfileAsync Unit := do
  let s ← Async.get
  if s.closeState = .pending then return ()
  else
    act i (.timerCleared waiter)
    act i (.waiterDeleted waiter)
    if s.closeState = .fulfilled then act i (.closeAwaited waiter (.ok ()))
    else
      act i (.reason (js "close_rejected"))
      act i (.closeAwaited waiter (.error s.closeError))

/-- `for (const notify of waiters) notify()`. -/
def notifyAll (i : Nat) : List Nat → ProfileAsync Unit
  | [] => return ()
  | waiter :: waiters => do
      finish i waiter
      notifyAll i waiters

/-- The promise chain of `startClose`, with the assignment in front of it. -/
def closeThread (i : Nat) : ProfileAsync Unit := do
  act i .closeStarted
  let _ ← Async.await .tick
  let result ← (command i .close).attempt
  act i (.closeSettled result)
  notifyAll i (← Async.get).waiters

def startClose : ProfileAsync Unit := do
  let _ ← Async.fork fun k => (closeThread k).toProgram
  return ()

def closeTimedOut : Failure := .script (js "Firefox close timed out")

/-- The callback of the timer that `awaitClose` sets. -/
def timerThread (i waiter : Nat) : ProfileAsync Unit := do
  let _ ← Async.await (.timer waiter)
  act i (.timerFired waiter)
  act i (.waiterDeleted waiter)
  act i (.reason (js "close_timed_out"))
  act i (.closeAwaited waiter (.error closeTimedOut))

def awaitClose (i : Nat) : ProfileAsync Unit := do
  act i .timerSet
  let _ ← Async.fork fun k => (timerThread k i).toProgram
  act i .waiterAdded
  finish i i
  let _ ← Async.await (.closeAwaited i)
  let s ← Async.get
  Async.ofExcept ((s.awaited i).getD (.error .typeError))

/-! ## Cleanup -/

def parentChanged : Failure := .script (js "Firefox profile parent ownership changed")

def profileChanged : Failure := .script (js "Firefox profile ownership changed")

/-- Whether the parent is as it was: `sameDirectory` is only asked about the right path. -/
def requireParent (env : Environment) (cleanup : ProfileCleanup) (authority : ProfileAuthority)
    (canonical : JsString) (stat : FileStat) : Except Failure Unit :=
  if canonical ≠ cleanup.temporaryParent then .error parentChanged
  else do
    if ← sameDirectory env stat authority.parent then return () else throw parentChanged

def requireProfile (env : Environment) (authority : ProfileAuthority) (stat : FileStat) :
    Except Failure Unit := do
  if ← sameDirectory env stat authority.profile then return () else throw profileChanged

def verifyOwnership (env : Environment) (cleanup : ProfileCleanup) (i : Nat) :
    ProfileAsync Bool := do
  act i (.reason (js "ownership_changed"))
  match cleanup.authority with
  | none =>
      act i (.reason (js "ownership_unknown"))
      throw ownershipUnknown
  | some authority =>
      let (canonicalParent, parentStat) ← inspect i cleanup.temporaryParent
      Async.ofExcept (requireParent env cleanup authority canonicalParent parentStat)
      match ← (readStat i cleanup.profilePath).attempt with
      | .error error =>
          if error.code = some (js "ENOENT") then return false else throw error
      | .ok profileStat =>
          Async.ofExcept (requireProfile env authority profileStat)
          let canonical ← resolvePath i cleanup.profilePath
          if canonical = cleanup.profilePath then return true else throw profileChanged

/-- A close is started unless one is pending or has been fulfilled. -/
def ensureClose : ProfileAsync Unit := do
  let s ← Async.get
  if s.closeState = .none ∨ s.closeState = .rejected then startClose else return ()

/-- What an attempt does about the browser. -/
def settleBrowser (cleanup : ProfileCleanup) (i : Nat) : ProfileAsync Unit :=
  if cleanup.launchAttempted then
    if cleanup.closeContext then do
      ensureClose
      awaitClose i
    else do
      act i (.reason (js "settlement_unknown"))
      throw (.script (js "Firefox launch settlement is unknown"))
  else return ()

def removeExisting (cleanup : ProfileCleanup) (i : Nat) (existing : Bool) : ProfileAsync Unit :=
  if existing then do
    act i (.reason (js "remove_failed"))
    command i (.rm cleanup.profilePath true true)
  else return ()

/-- What an attempt does about the profile. -/
def removeOwned (env : Environment) (cleanup : ProfileCleanup) (i : Nat) : ProfileAsync Unit := do
  let existing ← verifyOwnership env cleanup i
  removeExisting cleanup i existing
  act i .removed

def attempt (env : Environment) (cleanup : ProfileCleanup) (i : Nat) : ProfileAsync Unit := do
  let s ← Async.get
  if s.removed then return ()
  else
    settleBrowser cleanup i
    removeOwned env cleanup i

/-- The error of a `retry`, when its attempt has failed. -/
def retryError (cleanup : ProfileCleanup) (reason : JsString) :
    Except Failure Unit → Option CleanupError
  | .ok () => none
  | .error error =>
      some (firefoxNssCleanupError (cleanup.primaryError.toList ++ [error]) reason)

/-- What a `retry` rejects with, if it does. -/
def retry (env : Environment) (cleanup : ProfileCleanup) (i : Nat) :
    ProfileAsync (Option CleanupError) := do
  act i .queued
  let _ ← Async.await (.turn i)
  act i .began
  let result ← (attempt env cleanup i).attempt
  act i (.settled result)
  let s ← Async.get
  return retryError cleanup s.reason result

/-! ## The invocation -/

structure PreparedProfile where
  profilePath : JsString
  temporaryParent : JsString
  closeTimeoutMs : Int
  certutilTimeoutMs : Int

/-- `withFirefoxNssProfile` up to its `try`. -/
def makeProfile (env : Environment) (options : ProfileOptions) (i : Nat) :
    ProfileAsync PreparedProfile := do
  if options.certutilPath.getD firefoxNssCertutil ≠ firefoxNssCertutil then
    throw (.script (js "certutil path is not approved"))
  else
    let closeTimeoutMs ←
      Async.ofExcept (boundedTimeout (options.closeTimeoutMs.getD (.integer 30000)))
    let certutilTimeoutMs ←
      Async.ofExcept (boundedTimeout (options.certutilTimeoutMs.getD (.integer 30000)))
    let temporaryParent ← resolvePath i (env.resolve (options.temporaryParent.getD env.tmpdir))
    requireOwnerOnlyPath env i options.certificatePath (js "Hub CA") .file
    requireOwnerOnlyPath env i temporaryParent (js "Firefox temporary parent") .directory
    command i (.access firefoxNssCertutil 1)
    match ← callAll i [.mkdtemp (env.join temporaryParent profilePrefix)] with
    | [.path profilePath] =>
        if env.dirname profilePath ≠ temporaryParent ∨
            !profilePrefix.isPrefixOf (env.basename profilePath) then
          throw (.script (js "Firefox profile escaped its private temporary parent"))
        else return { profilePath, temporaryParent, closeTimeoutMs, certutilTimeoutMs }
    | _ => throw .typeError

/-- The calls of `certutil`, in order. -/
def certutilArguments (options : ProfileOptions) (profilePath : JsString) : List (List JsString) :=
  let database := js "sql:" ++ profilePath
  [[js "-N", js "-d", database, js "--empty-password"],
    [js "-A", js "-d", database, js "-n", certificateNickname, js "-t", js "C,,", js "-i",
      options.certificatePath],
    [js "-L", js "-d", database, js "-n", certificateNickname]]

def runCertutil (i : Nat) (timeout : Int) : List (List JsString) → ProfileAsync Unit
  | [] => return ()
  | arguments :: rest => do
      command i (.execFile firefoxNssCertutil arguments (processOptions timeout))
      runCertutil i timeout rest

def databaseNames : List JsString := [js "cert9.db", js "key4.db", js "pkcs11.txt"]

/-- `for (const name of ["cert9.db", "key4.db", "pkcs11.txt"])`. -/
def restrictDatabases (env : Environment) (i : Nat) (profilePath : JsString) :
    List JsString → ProfileAsync Unit
  | [] => return ()
  | name :: names => do
      let databasePath := env.join profilePath name
      command i (.chmod databasePath 0o600)
      requireOwnerOnlyPath env i databasePath (js "Firefox NSS " ++ name) .file
      restrictDatabases env i profilePath names

/-- The body of the `try`. -/
def useProfile (env : Environment) (options : ProfileOptions) (i : Nat)
    (prepared : PreparedProfile) : ProfileAsync Nat := do
  let profilePath := prepared.profilePath
  command i (.chmod profilePath 0o700)
  requireOwnerOnlyPath env i profilePath (js "Firefox profile") .directory
  let authority ← captureProfileAuthority env i profilePath prepared.temporaryParent
  act i (.captured { profilePath, temporaryParent := prepared.temporaryParent, authority })
  runCertutil i prepared.certutilTimeoutMs (certutilArguments options profilePath)
  restrictDatabases env i profilePath databaseNames
  act i .launchAttempted
  match ← callAll i [.launchPersistentContext profilePath
      { enterpriseRoots := false, headless := options.headless.getD true,
        ignoreHTTPSErrors := false }] with
  | [.context true] =>
      act i .closeBound
      match ← callAll i [.operation] with
      | [.value value] => return value
      | _ => throw .typeError
  | _ => throw .typeError

def profileEvidence : ProfileEvidence where
  certificateNickname := certificateNickname
  database := js "sql:NSS"
  emptyPassword := true
  enterpriseRoots := false
  ignoreHTTPSErrors := false
  profileCleanup := js "removed"

/-- The cleanup of a profile, from the variables of the invocation. -/
def createProfileCleanup (s : ProfileState) (prepared : PreparedProfile) : ProfileCleanup where
  profilePath := prepared.profilePath
  temporaryParent := prepared.temporaryParent
  authority := s.captured.map (·.authority)
  closeContext := s.closeContext
  launchAttempted := s.launchAttempted
  closeTimeoutMs := prepared.closeTimeoutMs
  primaryError := s.primaryError

def catchPrimary {β : Type} (i : Nat) : Except Failure β → ProfileAsync Unit
  | .ok _ => return ()
  | .error error => act i (.caught error)

/-- What the invocation ends with, after its cleanup. -/
def report (result : Except Failure Nat) : Option CleanupError → Outcome
  | some error => .cleanupFailed error
  | none =>
      match result with
      | .ok value => .returned profileEvidence value
      | .error error => .threw error

def withFirefoxNssProfile (env : Environment) (options : ProfileOptions) (i : Nat) :
    ProfileAsync Outcome := do
  match ← (makeProfile env options i).attempt with
  | .error error => return .threw error
  | .ok prepared =>
      let result ← (useProfile env options i prepared).attempt
      catchPrimary i result
      let cleanup := createProfileCleanup (← Async.get) prepared
      act i (.created cleanup)
      let cleanupError ← retry env cleanup i
      return report result cleanupError

/-! ## The system -/

inductive ProfileCall where
  | withFirefoxNssProfile
  | retry
  deriving DecidableEq, Repr

/-- The invocation, once. -/
def invoke (env : Environment) (options : ProfileOptions) (i : Nat) : ProfileAsync Unit := do
  let s ← Async.get
  if s.invoker.isSome then return ()
  else
    act i .invoked
    let outcome ← withFirefoxNssProfile env options i
    act i (.ended outcome)

/-- How a `retry` of the caller ends. -/
def retryOutcome : Option CleanupError → Outcome
  | some error => .cleanupFailed error
  | none => .cleaned

/-- `deferredCleanup.retry()`, once there is a record to call it on. -/
def callRetry (env : Environment) (i : Nat) : ProfileAsync Unit := do
  let s ← Async.get
  match s.cleanup with
  | none => return ()
  | some cleanup =>
      let error ← retry env cleanup i
      act i (.ended (retryOutcome error))

/-- An invocation, any number of retries, and the answers to what they await, in any order. -/
def profileSystem (env : Environment) (options : ProfileOptions) :
    System ProfileState ProfileEvent ProfileAwait ProfileAnswer ProfileCall where
  initial := {}
  record := ProfileState.record
  accepts s _ := accepts s
  call
    | .withFirefoxNssProfile, i => (invoke env options i).toProgram
    | .retry, i => (callRetry env i).toProgram

end FirefoxProfile
