import TeslatlasSdk.Core.Errors
import TeslatlasSdk.Json.Heap
import TeslatlasSdk.Text.Utf8Encoder
import Mathlib.Data.Finset.Card
import Mathlib.Data.Fintype.Basic
import Mathlib.Data.List.Sort

/-!
# `snapshotJsonRequest`

A walk over the caller's objects copies a value and writes its JSON text side by side.  It looks at
descriptors only, and a value is accepted where nothing of it would be lost.
-/

open Text Core Json

namespace Http

variable {n : Nat} {α β : Type}

/-! ## Reading objects -/

/-- What can be done with an object. -/
inductive HeapRead (n : Nat) where
  | isArray (ref : Fin n)
  | getPrototypeOf (ref : Fin n)
  | ownKeys (ref : Fin n)
  | getOwnPropertyDescriptor (ref : Fin n) (key : PropertyKey)
  /-- `object[key]`, where a getter may be met. -/
  | get (ref : Fin n) (key : PropertyKey)
  deriving DecidableEq, Repr

def HeapRead.mayRunCallerCode : HeapRead n → Bool
  | .get _ _ => true
  | _ => false

/-- A computation that reads objects and may throw. -/
structure Copying (n : Nat) (α : Type) where
  reads : List (HeapRead n)
  result : Except TeslatlasError α

namespace Copying

instance : Monad (Copying n) where
  pure a := { reads := [], result := .ok a }
  bind m f :=
    match m.result with
    | .ok a => { reads := m.reads ++ (f a).reads, result := (f a).result }
    | .error e => { reads := m.reads, result := .error e }

/-- `throw new InvalidRequestBodyError()`. -/
def reject : Copying n α := { reads := [], result := .error .invalidRequestBody }

def read (read : HeapRead n) (answer : α) : Copying n α := { reads := [read], result := .ok answer }

end Copying

variable (heap : Heap n)

def isArray (ref : Fin n) : Copying n Bool := .read (.isArray ref) (heap.objects ref).isArray

def getPrototypeOf (ref : Fin n) : Copying n (Option (Fin n)) :=
  .read (.getPrototypeOf ref) (heap.objects ref).prototype

def ownKeys (ref : Fin n) : Copying n (List PropertyKey) :=
  .read (.ownKeys ref) (heap.objects ref).ownKeys

def getOwnPropertyDescriptor (ref : Fin n) (key : PropertyKey) :
    Copying n (Option (PropertyDescriptor n)) :=
  .read (.getOwnPropertyDescriptor ref key) ((heap.objects ref).descriptor? key)

/-! ## Copying -/

/-- `JsonRequestSnapshot`: a frozen value and its text. -/
structure JsonRequestSnapshot where
  value : Value
  body : JsString

/-- The index that `Number(key)` is, if it is below the length and `String` gives the key back. -/
def itemIndex (length : Nat) : PropertyKey → Option Nat
  | .string key =>
      if decimal (digitsValue key) = key ∧ digitsValue key < length then some (digitsValue key)
      else none
  | .symbol _ => none

/-- `children[index] = child`. -/
def assign (children : List (Option JsonRequestSnapshot)) (index : Nat)
    (child : JsonRequestSnapshot) : List (Option JsonRequestSnapshot) :=
  (children ++ List.replicate (index + 1 - children.length) none).set index (some child)

section Loops

variable (copy : HeapValue n → Copying n JsonRequestSnapshot) (ref : Fin n)

/-- The value of a property that may be copied. -/
def copyProperty (key : PropertyKey) : Copying n JsonRequestSnapshot := do
  match ← getOwnPropertyDescriptor heap ref key with
  | some (.data value true) => copy value
  | _ => .reject

def copyItems (length : Nat) (children : List (Option JsonRequestSnapshot)) :
    List PropertyKey → Copying n (List (Option JsonRequestSnapshot))
  | [] => pure children
  | key :: keys =>
      if key = lengthKey then copyItems length children keys
      else
        match itemIndex length key with
        | none => .reject
        | some index => do
            let child ← copyProperty heap copy ref key
            copyItems length (assign children index child) keys

def copyJsonArray : Copying n JsonRequestSnapshot := do
  if (← getPrototypeOf heap ref) ≠ some heap.arrayPrototype then .reject
  else
    match ← getOwnPropertyDescriptor heap ref lengthKey with
    | some (.data (.number x) _) =>
        match x.natural? with
        | none => .reject
        | some length =>
            let keys ← ownKeys heap ref
            if keys.length ≠ length + 1 then .reject
            else
              let children ← copyItems heap copy ref length [] keys
              return { value := .array (children.filterMap fun child => child.map (·.value))
                       body := 0x5B :: (joinComma (children.map fun child =>
                         child.elim [] (·.body)) ++ [0x5D]) }
    | _ => .reject

/-- `members` are the texts of the members so far, and `copied` is the copy so far. -/
def copyMembers (copied : List (JsString × Value)) (members : List JsString) :
    List PropertyKey → Copying n JsonRequestSnapshot
  | [] => pure { value := .object copied, body := 0x7B :: (joinComma members ++ [0x7D]) }
  | .symbol _ :: _ => .reject
  | .string key :: keys => do
      let child ← copyProperty heap copy ref (.string key)
      copyMembers (defineMember key child.value copied)
        (members ++ [stringify key ++ 0x3A :: child.body]) keys

def copyJsonObject : Copying n JsonRequestSnapshot := do
  let prototype ← getPrototypeOf heap ref
  if prototype ≠ some heap.objectPrototype ∧ prototype ≠ none then .reject
  else copyMembers heap copy ref [] [] (← ownKeys heap ref)

end Loops

def copyJsonValue (value : HeapValue n) (ancestors : Finset (Fin n)) :
    Copying n JsonRequestSnapshot :=
  match value with
  | .null => pure { value := .leaf .null, body := js "null" }
  | .string s => pure { value := .leaf (.string s), body := stringify s }
  | .boolean b =>
      pure { value := .leaf (.boolean b), body := if b then js "true" else js "false" }
  | .number (.double x _) =>
      if x.isFinite then pure { value := .leaf (.number x), body := numberToString x }
      else .reject
  | .object ref =>
      if _ : ref ∈ ancestors then .reject
      else do
        let copy := fun child => copyJsonValue child (insert ref ancestors)
        if ← isArray heap ref then copyJsonArray heap copy ref
        else copyJsonObject heap copy ref
  | _ => .reject
termination_by ancestorsᶜ.card
decreasing_by
  exact Finset.card_lt_card (Finset.compl_ssubset_compl.mpr (Finset.ssubset_insert ‹_›))

/-- `snapshotJsonRequest`. -/
def snapshotJsonRequest (value : HeapValue n) (maximumBytes : Option Nat) :
    Copying n JsonRequestSnapshot :=
  let copied := copyJsonValue heap value ∅
  match copied.result with
  | .error _ => { copied with result := .error .invalidRequestBody }
  | .ok snapshot =>
      if maximumBytes.any fun maximum => maximum < (utf8Encode snapshot.body).length then
        { copied with result := .error (.protocolValidation "request.body.size") }
      else copied

/-! ## What a copy has read -/

namespace Copying

/-- Nothing of the caller's has run. -/
def Quiet (m : Copying n α) : Prop := ∀ read ∈ m.reads, read.mayRunCallerCode = false

theorem quiet_pure (a : α) : (pure a : Copying n α).Quiet := by
  intro read h
  cases h

theorem quiet_reject : (reject : Copying n α).Quiet := by
  intro read h
  cases h

theorem quiet_read {r : HeapRead n} (h : r.mayRunCallerCode = false) (a : α) :
    (read r a).Quiet := by
  intro r' hr
  rw [List.mem_singleton.mp hr]
  exact h

theorem quiet_bind {m : Copying n α} {f : α → Copying n β} (hm : m.Quiet) (hf : ∀ a, (f a).Quiet) :
    (m >>= f).Quiet := by
  intro r hr
  simp only [bind] at hr
  split at hr
  · rcases List.mem_append.mp hr with hr | hr
    · exact hm r hr
    · exact hf _ r hr
  · exact hm r hr

theorem bind_eq_ok {m : Copying n α} {f : α → Copying n β} {b : β} :
    (m >>= f).result = .ok b ↔ ∃ a, m.result = .ok a ∧ (f a).result = .ok b := by
  simp only [bind]
  split
  · next a ha =>
    rw [ha]
    constructor
    · exact fun h => ⟨a, rfl, h⟩
    · rintro ⟨a', ha', h⟩
      rw [Except.ok.inj ha']
      exact h
  · next e he =>
    rw [he]
    constructor
    · intro h
      cases h
    · rintro ⟨a, ha, -⟩
      cases ha

end Copying

section Loops

variable {heap} {copy : HeapValue n → Copying n JsonRequestSnapshot} {ref : Fin n}

theorem quiet_copyProperty (hcopy : ∀ value, (copy value).Quiet) (key : PropertyKey) :
    (copyProperty heap copy ref key).Quiet := by
  refine Copying.quiet_bind (Copying.quiet_read rfl _) fun d => ?_
  split
  · exact hcopy _
  · exact Copying.quiet_reject

theorem quiet_copyItems (hcopy : ∀ value, (copy value).Quiet) (length : Nat)
    (children : List (Option JsonRequestSnapshot)) (keys : List PropertyKey) :
    (copyItems heap copy ref length children keys).Quiet := by
  induction keys generalizing children with
  | nil => exact Copying.quiet_pure _
  | cons key keys ih =>
    rw [copyItems]
    split
    · exact ih children
    split
    · exact Copying.quiet_reject
    · exact Copying.quiet_bind (quiet_copyProperty hcopy key) fun child => ih _

theorem quiet_copyJsonArray (hcopy : ∀ value, (copy value).Quiet) :
    (copyJsonArray heap copy ref).Quiet := by
  refine Copying.quiet_bind (Copying.quiet_read rfl _) fun prototype => ?_
  split
  · exact Copying.quiet_reject
  refine Copying.quiet_bind (Copying.quiet_read rfl _) fun d => ?_
  split
  · split
    · exact Copying.quiet_reject
    refine Copying.quiet_bind (Copying.quiet_read rfl _) fun keys => ?_
    split
    · exact Copying.quiet_reject
    · exact Copying.quiet_bind (quiet_copyItems hcopy _ _ _) fun children => Copying.quiet_pure _
  · exact Copying.quiet_reject

theorem quiet_copyMembers (hcopy : ∀ value, (copy value).Quiet) (copied : List (JsString × Value))
    (members : List JsString) (keys : List PropertyKey) :
    (copyMembers heap copy ref copied members keys).Quiet := by
  induction keys generalizing copied members with
  | nil => exact Copying.quiet_pure _
  | cons key keys ih =>
    cases key with
    | symbol identity => exact Copying.quiet_reject
    | string name =>
      exact Copying.quiet_bind (quiet_copyProperty hcopy _) fun child => ih _ _

theorem quiet_copyJsonObject (hcopy : ∀ value, (copy value).Quiet) :
    (copyJsonObject heap copy ref).Quiet := by
  refine Copying.quiet_bind (Copying.quiet_read rfl _) fun prototype => ?_
  split
  · exact Copying.quiet_reject
  · exact Copying.quiet_bind (Copying.quiet_read rfl _) fun keys => quiet_copyMembers hcopy _ _ _

end Loops

-- Only descriptors are looked at.
theorem quiet_copyJsonValue (value : HeapValue n) (ancestors : Finset (Fin n)) :
    (copyJsonValue heap value ancestors).Quiet := by
  fun_induction copyJsonValue heap value ancestors with
  | case1 => exact Copying.quiet_pure _
  | case2 => exact Copying.quiet_pure _
  | case3 => exact Copying.quiet_pure _
  | case4 => exact Copying.quiet_pure _
  | case5 => exact Copying.quiet_reject
  | case6 => exact Copying.quiet_reject
  | case7 ancestors ref hnew copy ih =>
    refine Copying.quiet_bind (Copying.quiet_read rfl _) fun array => ?_
    split
    · exact quiet_copyJsonArray ih
    · exact quiet_copyJsonObject ih
  | case8 => exact Copying.quiet_reject

end Http
