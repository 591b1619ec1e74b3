import TeslatlasSdk.Json.Write
import Mathlib.Data.Fintype.Card
import Mathlib.Logic.Relation

/-!
# Script values and the objects they refer to

A heap has objects without proxies.  What JSON carries without loss is said here of the graph of
objects that a value reaches.
-/

open Text

namespace Json

inductive PropertyKey where
  | string (key : JsString)
  | symbol (identity : Nat)
  deriving DecidableEq, Repr

/-- Whether `Reflect.ownKeys` may list a key in front of another: array indices come first in
ascending order, then the other strings, then the symbols. -/
def PropertyKey.mayPrecede : PropertyKey → PropertyKey → Bool
  | .string key, .string later =>
      match arrayIndex key, arrayIndex later with
      | some i, some j => i < j
      | none, some _ => false
      | _, none => true
  | .string _, .symbol _ => true
  | .symbol _, .string _ => false
  | .symbol _, .symbol _ => true

/-- Numbers of a script; doubles are in the form that rounding gives. -/
inductive ScriptNumber where
  | nan
  | double (value : Binary64) (normal : value.isNormal = true)
  deriving DecidableEq, Repr

/-- `Number.isInteger(x) && x >= 0`, with the integer. -/
def ScriptNumber.natural? : ScriptNumber → Option Nat
  | .double (.finite negative m e) _ =>
      if m % 2 ^ (-e).toNat = 0 ∧ (negative = false ∨ m = 0) then
        some (m * 2 ^ e.toNat / 2 ^ (-e).toNat)
      else none
  | _ => none

/-- `"length"`. -/
def lengthKey : PropertyKey := .string (js "length")

/-- Values, with references to `n` objects.  Functions are objects too, but not to `typeof`. -/
inductive HeapValue (n : Nat) where
  | undefined
  | null
  | boolean (value : Bool)
  | number (value : ScriptNumber)
  | string (value : JsString)
  | bigint (value : Int)
  | symbol (identity : Nat)
  | function (identity : Nat)
  | object (ref : Fin n)
  deriving DecidableEq, Repr

/-- A property descriptor, as far as it is looked at. -/
inductive PropertyDescriptor (n : Nat) where
  | data (value : HeapValue n) (enumerable : Bool)
  | accessor (getter : Nat) (enumerable : Bool)
  deriving DecidableEq, Repr

/-- An object with its own properties in the order of `Reflect.ownKeys`.  The length
of an array is not enumerable. -/
structure HeapObject (n : Nat) where
  isArray : Bool
  prototype : Option (Fin n)
  properties : List (PropertyKey × PropertyDescriptor n)
  distinct : (properties.map Prod.fst).Nodup
  ordered : (properties.map Prod.fst).Pairwise fun key later => key.mayPrecede later = true
  arrayLength : isArray = true → ∀ d, (lengthKey, d) ∈ properties →
    ∃ x, d = .data (.number x) false ∧ ∀ length, x.natural? = some length → length < 2 ^ 32

structure Heap (n : Nat) where
  objects : Fin n → HeapObject n
  objectPrototype : Fin n
  arrayPrototype : Fin n

variable {n : Nat}

/-- `Reflect.ownKeys`. -/
def HeapObject.ownKeys (obj : HeapObject n) : List PropertyKey := obj.properties.map Prod.fst

/-- `Object.getOwnPropertyDescriptor`. -/
def HeapObject.descriptor? (obj : HeapObject n) (key : PropertyKey) : Option (PropertyDescriptor n) :=
  (obj.properties.find? fun p => p.1 = key).map Prod.snd

/-- The value of an enumerable data property. -/
def HeapObject.dataAt (obj : HeapObject n) (key : PropertyKey) : Option (HeapValue n) :=
  match obj.descriptor? key with
  | some (.data value true) => some value
  | _ => none

theorem HeapObject.mem_of_descriptor? {obj : HeapObject n} {key : PropertyKey}
    {d : PropertyDescriptor n} (h : obj.descriptor? key = some d) : (key, d) ∈ obj.properties := by
  rw [HeapObject.descriptor?, Option.map_eq_some_iff] at h
  obtain ⟨p, hp, rfl⟩ := h
  have hkey := List.find?_some hp
  rw [decide_eq_true_eq] at hkey
  rw [← hkey]
  exact List.mem_of_find?_eq_some hp

theorem HeapObject.dataAt_eq_some {obj : HeapObject n} {key : PropertyKey} {value : HeapValue n} :
    obj.dataAt key = some value ↔ obj.descriptor? key = some (.data value true) := by
  rw [HeapObject.dataAt]
  constructor
  · intro h
    split at h
    · next hd => rw [hd, Option.some.inj h]
    · cases h
  · intro h
    rw [h]

theorem HeapObject.bounded {obj : HeapObject n} (harray : obj.isArray = true) {x : ScriptNumber}
    {enumerable : Bool} (h : obj.descriptor? lengthKey = some (.data (.number x) enumerable))
    {length : Nat} (hlength : x.natural? = some length) : length < 2 ^ 32 := by
  obtain ⟨y, hy, hbound⟩ := obj.arrayLength harray _ (HeapObject.mem_of_descriptor? h)
  simp only [PropertyDescriptor.data.injEq, HeapValue.number.injEq] at hy
  exact hbound length (hy.1 ▸ hlength)

theorem HeapObject.dataAt_lengthKey {obj : HeapObject n} (harray : obj.isArray = true) :
    obj.dataAt lengthKey = none := by
  rw [Option.eq_none_iff_forall_ne_some]
  intro value hvalue
  have hd := HeapObject.mem_of_descriptor? (HeapObject.dataAt_eq_some.mp hvalue)
  obtain ⟨x, hx, -⟩ := obj.arrayLength harray _ hd
  simp at hx

/-! ## What JSON carries without loss -/

/-- A dense array: its own properties are its length and the items, all of them plain data. -/
structure PlainArray (heap : Heap n) (obj : HeapObject n) : Prop where
  isArray : obj.isArray = true
  prototype : obj.prototype = some heap.arrayPrototype
  dense : ∃ x enumerable length, obj.descriptor? lengthKey = some (.data (.number x) enumerable) ∧
    x.natural? = some length ∧
    (∀ key, key ∈ obj.ownKeys ↔ key = lengthKey ∨ ∃ i < length, key = .string (decimal i)) ∧
    ∀ i < length, ∃ value, obj.dataAt (.string (decimal i)) = some value

/-- An object without a prototype or with the usual one, all of its properties plain data under
strings. -/
structure PlainObject (heap : Heap n) (obj : HeapObject n) : Prop where
  isArray : obj.isArray = false
  prototype : obj.prototype = some heap.objectPrototype ∨ obj.prototype = none
  properties : ∀ key ∈ obj.ownKeys, ∃ name value, key = .string name ∧ obj.dataAt key = some value

/-- Values that JSON has, and objects that are plain themselves. -/
def Plain (heap : Heap n) : HeapValue n → Prop
  | .null => True
  | .boolean _ => True
  | .string _ => True
  | .number (.double x _) => x.isFinite = true
  | .object ref => PlainArray heap (heap.objects ref) ∨ PlainObject heap (heap.objects ref)
  | _ => False

/-- The second value is that of a data property of the first. -/
def Holds (heap : Heap n) (first second : HeapValue n) : Prop :=
  ∃ ref key, first = .object ref ∧ (heap.objects ref).dataAt key = some second

/-- A value leads to another through properties. -/
def Reaches (heap : Heap n) : HeapValue n → HeapValue n → Prop :=
  Relation.ReflTransGen (Holds heap)

/-- All that a value leads to is plain, and nothing leads back to itself.  Objects may be shared. -/
def Lossless (heap : Heap n) (value : HeapValue n) : Prop :=
  (∀ w, Reaches heap value w → Plain heap w) ∧
    ∀ ref, Reaches heap value (.object ref) →
      ¬ ∃ w, Holds heap (.object ref) w ∧ Reaches heap w (.object ref)

/-- The JSON value is the heap's value with all that it holds. -/
inductive Represents (heap : Heap n) : HeapValue n → Value → Prop
  | null : Represents heap .null (.leaf .null)
  | boolean (b : Bool) : Represents heap (.boolean b) (.leaf (.boolean b))
  | string (s : JsString) : Represents heap (.string s) (.leaf (.string s))
  | number (x : Binary64) (normal : x.isNormal = true) (finite : x.isFinite = true) :
      Represents heap (.number (.double x normal)) (.leaf (.number x))
  | array (ref : Fin n) (values : List (HeapValue n)) (items : List Value)
      (isArray : (heap.objects ref).isArray = true)
      (data : ∀ i, (heap.objects ref).dataAt (.string (decimal i)) = values[i]?)
      (copied : List.Forall₂ (Represents heap) values items) :
      Represents heap (.object ref) (.array items)
  | object (ref : Fin n) (names : List JsString) (values : List (HeapValue n))
      (items : List Value) (isArray : (heap.objects ref).isArray = false)
      (keys : (heap.objects ref).ownKeys = names.map PropertyKey.string)
      (data : List.Forall₂ (fun name value =>
        (heap.objects ref).dataAt (.string name) = some value) names values)
      (copied : List.Forall₂ (Represents heap) values items) :
      Represents heap (.object ref) (.object (names.zip items))

end Json
