import TeslatlasSdk.Core.Numbers
import TeslatlasSdk.Core.Program
import TeslatlasSdk.Text.CodeUnits

/-!
# The browser profile of the Firefox check

`firefox-nss-profile.mjs`: a profile is made and prepared, a browser runs on it, and its cleanup
closes the browser and removes the profile, at once or in later retries.  The system, the browser and
the operation may answer anything at any time, or never.
-/

open Text Core

namespace FirefoxProfile

/-! ## Values -/

inductive Failure where
  | undefined
  | typeError
  /-- `new Error(message)`. -/
  | script (message : JsString)
  /-- What the system, the browser or the operation throws, with its `code`. -/
  | foreign (id : Nat) (code : Option JsString)
  deriving DecidableEq, Repr

/-- `error?.code`. -/
def Failure.code : Failure → Option JsString
  | .foreign _ code => code
  | _ => none

/-- What the script reads of an `lstat`. -/
structure FileStat where
  dev : Option Nat
  ino : Option Nat
  uid : Option Nat
  mode : Nat
  isDirectory : Bool
  isFile : Bool
  isSymbolicLink : Bool
  deriving DecidableEq, Repr

structure ProcessOptions where
  encoding : JsString
  maxBuffer : Nat
  shell : Bool
  timeout : Int
  killSignal : JsString
  deriving DecidableEq, Repr

structure LaunchOptions where
  /-- The preference `security.enterprise_roots.enabled`. -/
  enterpriseRoots : Bool
  headless : Bool
  ignoreHTTPSErrors : Bool
  deriving DecidableEq, Repr

/-- What is asked of the system, of the browser and of the operation. -/
inductive SystemCall where
  | realpath (path : JsString)
  | lstat (path : JsString)
  | access (path : JsString) (mode : Nat)
  | mkdtemp (path : JsString)
  | chmod (path : JsString) (mode : Nat)
  | execFile (path : JsString) (arguments : List JsString) (options : ProcessOptions)
  | rm (path : JsString) (force recursive : Bool)
  | launchPersistentContext (path : JsString) (options : LaunchOptions)
  | operation
  | close
  deriving DecidableEq, Repr

inductive SystemValue where
  | path (path : JsString)
  | stat (stat : FileStat)
  /-- A browser context, and whether it has a `close` to bind. -/
  | context (closable : Bool)
  /-- What the operation returns. -/
  | value (id : Nat)
  | done
  deriving DecidableEq, Repr

/-- The values of the right kind. -/
def SystemCall.answeredBy : SystemCall → SystemValue → Bool
  | .realpath _, .path _ => true
  | .lstat _, .stat _ => true
  | .mkdtemp _, .path _ => true
  | .launchPersistentContext _ _, .context _ => true
  | .operation, .value _ => true
  | .access _ _, .done => true
  | .chmod _ _, .done => true
  | .execFile _ _ _, .done => true
  | .rm _ _ _, .done => true
  | .close, .done => true
  | _, _ => false

structure DirectoryIdentity where
  dev : Nat
  ino : Nat
  uid : Nat
  deriving DecidableEq, Repr

structure ProfileAuthority where
  profile : DirectoryIdentity
  parent : DirectoryIdentity
  deriving DecidableEq, Repr

/-- An authority, and the paths that it has been captured for. -/
structure Capture where
  profilePath : JsString
  temporaryParent : JsString
  authority : ProfileAuthority
  deriving DecidableEq, Repr

/-- The arguments of `createProfileCleanup`. -/
structure ProfileCleanup where
  profilePath : JsString
  temporaryParent : JsString
  authority : Option ProfileAuthority
  /-- Whether there is a `closeContext`. -/
  closeContext : Bool
  launchAttempted : Bool
  closeTimeoutMs : Int
  /-- `primaryError`, when `failed`. -/
  primaryError : Option Failure
  deriving DecidableEq, Repr

/-- `FirefoxNssCleanupError`. -/
structure CleanupError where
  errors : List Failure
  message : JsString
  cause : Option Failure
  deriving DecidableEq, Repr

def firefoxNssCleanupError (errors : List Failure) (reason : JsString) : CleanupError where
  errors
  message := js "Firefox profile cleanup deferred: " ++ reason
  cause := errors.head?

structure ProfileEvidence where
  certificateNickname : JsString
  database : JsString
  emptyPassword : Bool
  enterpriseRoots : Bool
  ignoreHTTPSErrors : Bool
  profileCleanup : JsString
  deriving DecidableEq, Repr

/-- How a call of `withFirefoxNssProfile` or of `retry` ends. -/
inductive Outcome where
  | returned (evidence : ProfileEvidence) (value : Nat)
  /-- A retry that resolves. -/
  | cleaned
  | threw (error : Failure)
  | cleanupFailed (error : CleanupError)
  deriving DecidableEq, Repr

/-! ## State -/

inductive CloseState where
  | none
  | pending
  | fulfilled
  | rejected
  deriving DecidableEq, Repr

inductive ProfileAction where
  | invoked
  | called (calls : List SystemCall)
  | answered (calls : List SystemCall) (result : Except Failure (List SystemValue))
  | captured (capture : Capture)
  | launchAttempted
  | closeBound
  /-- The invocation catches an error as its `primaryError`. -/
  | caught (error : Failure)
  | created (cleanup : ProfileCleanup)
  /-- An attempt is put behind the `tail`. -/
  | queued
  | began
  | reason (reason : JsString)
  | closeStarted
  | closeSettled (result : Except Failure Unit)
  | timerSet
  | waiterAdded
  | timerFired (waiter : Nat)
  | timerCleared (waiter : Nat)
  | waiterDeleted (waiter : Nat)
  /-- The promise of a waiter's `awaitClose` is settled. -/
  | closeAwaited (waiter : Nat) (result : Except Failure Unit)
  | removed
  | settled (result : Except Failure Unit)
  | ended (outcome : Outcome)

structure ProfileEvent where
  thread : Nat
  action : ProfileAction

/-- The variables of the script, and from `pending` on what has happened. -/
structure ProfileState where
  /-- The thread of the invocation. -/
  invoker : Option Nat := none
  captured : Option Capture := none
  launchAttempted : Bool := false
  closeContext : Bool := false
  primaryError : Option Failure := none
  cleanup : Option ProfileCleanup := none
  closeState : CloseState := .none
  closeError : Failure := .undefined
  reason : JsString := js "ownership_unknown"
  removed : Bool := false
  /-- The threads of the attempts, in the order of the `tail`, and how many have settled. -/
  runs : List Nat := []
  finished : Nat := 0
  waiters : List Nat := []
  timers : List Nat := []
  /-- The settled promises of `awaitClose`. -/
  awaited : Nat → Option (Except Failure Unit) := fun _ => none
  /-- The thread of a close between its start and its settlement. -/
  pending : Option Nat := none
  /-- A call of `closeContext` has not been answered. -/
  closing : Bool := false
  /-- A call of `closeContext` has been fulfilled. -/
  fulfilled : Bool := false
  /-- A call of `rm` has not been answered. -/
  removing : Bool := false
  /-- The profile has been removed, or found missing. -/
  gone : Bool := false
  /-- The browser has been asked to launch. -/
  launched : Bool := false
  operationError : Option Failure := none
  /-- The attempt that runs. -/
  attempt : Option Nat := none
  /-- The threads that have set a timer. -/
  entered : Nat → Bool := fun _ => false
  /-- What `mkdtemp` has answered a thread. -/
  made : Nat → Option JsString := fun _ => none
  /-- What a thread has found with `lstat` since it was given a new directory, since its attempt began
  and since that saw the close fulfilled. -/
  found : Nat → List (JsString × FileStat) := fun _ => []
  /-- The settled attempts. -/
  results : Nat → Option (Except Failure Unit) := fun _ => none
  outcomes : Nat → Option Outcome := fun _ => none

/-- A table with a new entry. -/
def update {β : Type} (table : Nat → β) (i : Nat) (b : β) : Nat → β :=
  fun j => if j = i then b else table j

def removes (calls : List SystemCall) : Bool :=
  calls.any fun
    | .rm _ _ _ => true
    | _ => false

def closes (calls : List SystemCall) : Bool := calls.contains .close

def launches (calls : List SystemCall) : Bool :=
  calls.any fun
    | .launchPersistentContext _ _ => true
    | _ => false

def makes (calls : List SystemCall) : Bool :=
  calls.any fun
    | .mkdtemp _ => true
    | _ => false

/-- The path of a new directory. -/
def madeBy (calls : List SystemCall) : Except Failure (List SystemValue) → Option JsString
  | .ok [.path path] => if makes calls then some path else none
  | _ => none

/-- What is found with `lstat`. -/
def observed : List SystemCall → List SystemValue → List (JsString × FileStat)
  | .lstat path :: calls, .stat stat :: values => (path, stat) :: observed calls values
  | _ :: calls, _ :: values => observed calls values
  | _, _ => []

def foundBy (calls : List SystemCall) : Except Failure (List SystemValue) →
    List (JsString × FileStat)
  | .ok values => observed calls values
  | .error _ => []

/-- The error of the operation. -/
def operationFailure (calls : List SystemCall) :
    Except Failure (List SystemValue) → Option Failure
  | .error error => if calls.contains .operation then some error else none
  | .ok _ => none

namespace ProfileState

def recordCalled (s : ProfileState) (calls : List SystemCall) : ProfileState :=
  { s with
    removing := s.removing || removes calls
    closing := s.closing || closes calls
    launched := s.launched || launches calls }

def recordAnswered (s : ProfileState) (i : Nat) (calls : List SystemCall)
    (result : Except Failure (List SystemValue)) : ProfileState :=
  { s with
    removing := s.removing && !removes calls
    gone := s.gone || (removes calls && result.isOk)
    closing := s.closing && !closes calls
    fulfilled := s.fulfilled || (closes calls && result.isOk)
    operationError := (operationFailure calls result).or s.operationError
    made := update s.made i ((madeBy calls result).or (s.made i))
    found := update s.found i ((if makes calls then [] else s.found i) ++ foundBy calls result) }

def recordCloseSettled (s : ProfileState) : Except Failure Unit → ProfileState
  | .ok () => { s with closeState := .fulfilled, pending := none }
  | .error error => { s with closeState := .rejected, closeError := error, pending := none }

/-- A promise is settled once. -/
def recordCloseAwaited (s : ProfileState) (waiter : Nat) (result : Except Failure Unit) :
    ProfileState :=
  { s with
    awaited := update s.awaited waiter ((s.awaited waiter).or (some result))
    found := update s.found waiter (if result.isOk then [] else s.found waiter) }

def record (s : ProfileState) (event : ProfileEvent) : ProfileState :=
  match event.action with
  | .invoked => { s with invoker := some event.thread }
  | .called calls => s.recordCalled calls
  | .answered calls result => s.recordAnswered event.thread calls result
  | .captured capture => { s with captured := some capture }
  | .launchAttempted => { s with launchAttempted := true }
  | .closeBound => { s with closeContext := true }
  | .caught error => { s with primaryError := some error }
  | .created cleanup => { s with cleanup := some cleanup }
  | .queued => { s with runs := s.runs ++ [event.thread] }
  | .began => { s with attempt := some event.thread, found := update s.found event.thread [] }
  | .reason reason => { s with reason }
  | .closeStarted => { s with closeState := .pending, pending := some event.thread }
  | .closeSettled result => s.recordCloseSettled result
  | .timerSet =>
      { s with timers := s.timers ++ [event.thread], entered := update s.entered event.thread true }
  | .waiterAdded => { s with waiters := s.waiters ++ [event.thread] }
  | .timerFired waiter => { s with timers := s.timers.filter (· ≠ waiter) }
  | .timerCleared waiter => { s with timers := s.timers.filter (· ≠ waiter) }
  | .waiterDeleted waiter => { s with waiters := s.waiters.filter (· ≠ waiter) }
  | .closeAwaited waiter result => s.recordCloseAwaited waiter result
  | .removed => { s with removed := true, gone := true }
  | .settled result =>
      { s with attempt := none, finished := s.finished + 1,
               results := update s.results event.thread (some result) }
  | .ended outcome => { s with outcomes := update s.outcomes event.thread (some outcome) }

end ProfileState

inductive ProfileAwait where
  | calls (calls : List SystemCall)
  /-- A promise that is settled already. -/
  | tick
  /-- The attempts in front of that of a thread. -/
  | turn (thread : Nat)
  | timer (waiter : Nat)
  /-- The promise of `awaitClose`. -/
  | closeAwaited (waiter : Nat)
  deriving DecidableEq, Repr

inductive ProfileAnswer where
  | tick
  | settled (result : Except Failure (List SystemValue))

/-- Calls are answered with an error, or each with a value of its kind. -/
def answeredBy (calls : List SystemCall) : Except Failure (List SystemValue) → Bool
  | .ok values => calls.length = values.length && (calls.zip values).all fun (c, v) => c.answeredBy v
  | .error _ => true

def accepts (s : ProfileState) : ProfileAwait → ProfileAnswer → Bool
  | .calls calls, .settled result => answeredBy calls result
  | .tick, .tick => true
  | .turn thread, .tick => s.runs[s.finished]? = some thread
  | .timer waiter, .tick => s.timers.contains waiter
  | .closeAwaited waiter, .tick => (s.awaited waiter).isSome
  | _, _ => false

abbrev ProfileAsync := Async ProfileState ProfileEvent ProfileAwait ProfileAnswer Failure

end FirefoxProfile
