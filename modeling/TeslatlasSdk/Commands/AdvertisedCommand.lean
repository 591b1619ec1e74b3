import TeslatlasSdk.Http.LosslessSnapshot

/-!
# Advertised commands

`validateAdvertisedCommand` keeps a compiled validator for each schema object, with the text of the
schema that it was compiled from.  An object is known by its number from call to call; what it holds
may be another thing each time.
-/

open Text Core Json Http

namespace Commands

variable {n : Nat} {ν : Type}

/-- A compiled schema, over the values that it is asked about. -/
abbrev Validator (ν : Type) := ν → Except Thrown Bool

/-- `compile` of the schema compiler. -/
abbrev Compiler (ν : Type) := Value → Except Thrown (Validator ν)

structure CommandDescriptor (n : Nat) where
  name : JsString
  commandClass : JsString
  confirmationRequired : Bool
  parametersSchema : HeapValue n
  expectedStateSchema : HeapValue n

structure Capability (n : Nat) where
  id : JsString
  commands : Option (List (CommandDescriptor n))

/-- What is read of a request, over values. -/
structure CommandRequest (ν : Type) where
  command : JsString
  commandClass : JsString
  hasConfirmation : Bool
  parameters : ν
  expectedState : ν

structure CachedSchema (ν : Type) where
  body : JsString
  validate : Validator ν

/-- `schemaValidators` and `booleanValidators`. -/
structure SchemaCaches (ν : Type) where
  schemaValidators : Nat → Option (CachedSchema ν)
  booleanValidators : Bool → Option (CachedSchema ν)

namespace SchemaCaches

def empty : SchemaCaches ν := ⟨fun _ => none, fun _ => none⟩

def get (caches : SchemaCaches ν) : HeapValue n → Option (CachedSchema ν)
  | .boolean b => caches.booleanValidators b
  | .object ref => caches.schemaValidators ref
  | _ => none

def set (caches : SchemaCaches ν) (entry : CachedSchema ν) : HeapValue n → SchemaCaches ν
  | .boolean b =>
      { caches with booleanValidators := Function.update caches.booleanValidators b (some entry) }
  | .object ref =>
      { caches with schemaValidators := Function.update caches.schemaValidators ref (some entry) }
  | _ => caches

end SchemaCaches

/-- The schemas that are not asynchronous. -/
def asSynchronousSchema : Value → Option Value
  | .leaf (.boolean b) => some (.leaf (.boolean b))
  | .object members =>
      match lastMember (js "$async") members with
      | some (.leaf (.boolean true)) => none
      | _ => some (.object members)
  | _ => none

/-- `validate(value) === true`, where an exception is caught. -/
def accepts (validate : Validator ν) (value : ν) : Bool :=
  match validate value with
  | .ok verdict => verdict
  | .error _ => false

section

variable (compile : Compiler ν) (heap : Heap n)

def matchesJsonSchema (schema : HeapValue n) (value : ν) (caches : SchemaCaches ν) :
    Bool × SchemaCaches ν :=
  match (snapshotJsonRequest heap schema none).result with
  | .error _ => (false, caches)
  | .ok snapshot =>
      match asSynchronousSchema snapshot.value with
      | none => (false, caches)
      | some synchronousSchema =>
          match (caches.get schema).filter fun cached => cached.body = snapshot.body with
          | some cached => (accepts cached.validate value, caches)
          | none =>
              match compile synchronousSchema with
              | .error _ => (false, caches)
              | .ok validate =>
                  (accepts validate value, caches.set ⟨snapshot.body, validate⟩ schema)

/-- `requireCapability(descriptor, "commands.async")`, then the command's descriptor. -/
def findCommand (capabilities : List (Capability n)) (command : CommandRequest ν) :
    Except TeslatlasError (CommandDescriptor n) :=
  match capabilities.find? fun capability => capability.id = js "commands.async" with
  | none => .error .missingCapability
  | some capability =>
      match (capability.commands.getD []).find? fun d => d.name = command.command with
      | none => .error (.protocolValidation "command.descriptor")
      | some d =>
          if d.commandClass ≠ command.commandClass ∨
              (d.confirmationRequired = true ∧ command.hasConfirmation = false) then
            .error (.protocolValidation "command.descriptor")
          else .ok d

def validateAdvertisedCommand (capabilities : List (Capability n)) (command : CommandRequest ν)
    (caches : SchemaCaches ν) : Except TeslatlasError Unit × SchemaCaches ν :=
  match findCommand capabilities command with
  | .error e => (.error e, caches)
  | .ok d =>
      let (parametersMatch, caches) :=
        matchesJsonSchema compile heap d.parametersSchema command.parameters caches
      if parametersMatch = false then (.error (.protocolValidation "command.descriptor"), caches)
      else
        let (stateMatches, caches) :=
          matchesJsonSchema compile heap d.expectedStateSchema command.expectedState caches
        if stateMatches = false then (.error (.protocolValidation "command.descriptor"), caches)
        else (.ok (), caches)

/-! ## Without caches -/

/-- Compile what the schema holds now, and validate. -/
def matchesFreshly (schema : HeapValue n) (value : ν) : Bool :=
  match (snapshotJsonRequest heap schema none).result with
  | .error _ => false
  | .ok snapshot =>
      match asSynchronousSchema snapshot.value with
      | none => false
      | some synchronousSchema =>
          match compile synchronousSchema with
          | .error _ => false
          | .ok validate => accepts validate value

def validateFreshly (capabilities : List (Capability n)) (command : CommandRequest ν) :
    Except TeslatlasError Unit :=
  match findCommand capabilities command with
  | .error e => .error e
  | .ok d =>
      if matchesFreshly compile heap d.parametersSchema command.parameters = true ∧
          matchesFreshly compile heap d.expectedStateSchema command.expectedState = true then
        .ok ()
      else .error (.protocolValidation "command.descriptor")

end

/-! ## Sequences of calls -/

/-- A call, and the caller's objects as they are then. -/
structure ValidationCall (ν : Type) where
  objects : Nat
  heap : Heap objects
  capabilities : List (Capability objects)
  command : CommandRequest ν

def verdicts (compile : Compiler ν) (caches : SchemaCaches ν) :
    List (ValidationCall ν) → List (Except TeslatlasError Unit)
  | [] => []
  | call :: calls =>
      let (verdict, caches) :=
        validateAdvertisedCommand compile call.heap call.capabilities call.command caches
      verdict :: verdicts compile caches calls

/-! ## Entries -/

/-- The entry's validator is compiled from whatever schema its text is a snapshot of. -/
def CachedSchema.Valid (compile : Compiler ν) (entry : CachedSchema ν) : Prop :=
  ∀ snapshot : JsonRequestSnapshot, Written snapshot → snapshot.body = entry.body →
    ∀ schema, asSynchronousSchema snapshot.value = some schema → compile schema = .ok entry.validate

/-- All entries are valid, whatever they are kept for. -/
structure SchemaCaches.Valid (compile : Compiler ν) (caches : SchemaCaches ν) : Prop where
  schemaValidators : ∀ ref entry, caches.schemaValidators ref = some entry → entry.Valid compile
  booleanValidators : ∀ b entry, caches.booleanValidators b = some entry → entry.Valid compile

theorem SchemaCaches.Valid.get {compile : Compiler ν} {caches : SchemaCaches ν}
    (h : caches.Valid compile) {schema : HeapValue n} {entry : CachedSchema ν}
    (hentry : caches.get schema = some entry) : entry.Valid compile := by
  cases schema with
  | boolean b => exact h.booleanValidators b entry hentry
  | object ref => exact h.schemaValidators ref entry hentry
  | _ => cases hentry

theorem SchemaCaches.Valid.set {compile : Compiler ν} {caches : SchemaCaches ν}
    (h : caches.Valid compile) {entry : CachedSchema ν} (hentry : entry.Valid compile)
    (schema : HeapValue n) : (caches.set entry schema).Valid compile := by
  have hupdate : ∀ {κ : Type} [DecidableEq κ] (entries : κ → Option (CachedSchema ν)) (key : κ),
      (∀ k e, entries k = some e → e.Valid compile) →
        ∀ k e, Function.update entries key (some entry) k = some e → e.Valid compile := by
    intro κ _ entries key hentries k e he
    by_cases hk : k = key
    · subst hk
      rw [Function.update_self] at he
      exact Option.some.inj he ▸ hentry
    · rw [Function.update_of_ne hk] at he
      exact hentries k e he
  cases schema with
  | boolean b => exact ⟨h.schemaValidators, hupdate _ b h.booleanValidators⟩
  | object ref => exact ⟨hupdate _ ref.val h.schemaValidators, h.booleanValidators⟩
  | _ => exact h

theorem asSynchronousSchema_eq {value schema : Value} (h : asSynchronousSchema value = some schema) :
    schema = value := by
  unfold asSynchronousSchema at h
  split at h
  · exact (Option.some.inj h).symm
  · split at h
    · cases h
    · exact (Option.some.inj h).symm
  · cases h

/-- The compiler does not look at the signs of zeros. -/
def IgnoresZeroSigns (compile : Compiler ν) : Prop :=
  ∀ v w : Value, v.map unsignedScalar = w.map unsignedScalar → compile v = compile w

-- What is compiled from a snapshot serves for every snapshot with the same text.
theorem valid_of_compile {compile : Compiler ν} (hcompile : IgnoresZeroSigns compile)
    {snapshot : JsonRequestSnapshot} (hwritten : Written snapshot) {schema : Value}
    (hschema : asSynchronousSchema snapshot.value = some schema) {validate : Validator ν}
    (h : compile schema = .ok validate) :
    CachedSchema.Valid compile ⟨snapshot.body, validate⟩ := by
  intro other hother hbody otherSchema hotherSchema
  have hvalues : other.value.map unsignedScalar = snapshot.value.map unsignedScalar := by
    have hparse := hother.jsonParse
    rw [hbody, hwritten.jsonParse] at hparse
    exact (Option.some.inj hparse).symm
  rw [asSynchronousSchema_eq hotherSchema, hcompile _ _ hvalues, ← asSynchronousSchema_eq hschema, h]

/-! ## Calls -/

theorem written_of_snapshot {heap : Heap n} {schema : HeapValue n} {snapshot : JsonRequestSnapshot}
    (h : (snapshotJsonRequest heap schema none).result = .ok snapshot) : Written snapshot := by
  have hcopy : (copyJsonValue heap schema ∅).result = .ok snapshot := by
    unfold snapshotJsonRequest at h
    dsimp only at h
    split at h
    · cases h
    · next copied hcopied =>
      rw [Option.any_none, if_neg Bool.false_ne_true] at h
      exact h
  exact (copyJsonValue_ok schema ∅ snapshot hcopy).2.2

theorem SchemaCaches.Valid.empty {compile : Compiler ν} :
    SchemaCaches.Valid compile SchemaCaches.empty := by
  constructor
  · intro ref entry h
    cases h
  · intro b entry h
    cases h

variable {compile : Compiler ν} {caches : SchemaCaches ν}

theorem matchesJsonSchema_valid (hcompile : IgnoresZeroSigns compile) (h : caches.Valid compile)
    (heap : Heap n) (schema : HeapValue n) (value : ν) :
    (matchesJsonSchema compile heap schema value caches).1 =
        matchesFreshly compile heap schema value ∧
      (matchesJsonSchema compile heap schema value caches).2.Valid compile := by
  unfold matchesJsonSchema matchesFreshly
  cases hsnapshot : (snapshotJsonRequest heap schema none).result with
  | error e => exact ⟨rfl, h⟩
  | ok snapshot =>
    have hwritten := written_of_snapshot hsnapshot
    dsimp only
    cases hschema : asSynchronousSchema snapshot.value with
    | none => exact ⟨rfl, h⟩
    | some synchronousSchema =>
      dsimp only
      cases hcached : (caches.get schema).filter fun cached => cached.body = snapshot.body with
      | some cached =>
        rw [Option.filter_eq_some_iff] at hcached
        have hbody : snapshot.body = cached.body := (of_decide_eq_true hcached.2).symm
        have hfresh := h.get hcached.1 snapshot hwritten hbody synchronousSchema hschema
        rw [hfresh]
        exact ⟨rfl, h⟩
      | none =>
        cases hvalidate : compile synchronousSchema with
        | error e => exact ⟨rfl, h⟩
        | ok validate =>
          exact ⟨rfl, h.set (valid_of_compile hcompile hwritten hschema hvalidate) schema⟩

theorem validateAdvertisedCommand_valid (hcompile : IgnoresZeroSigns compile)
    (h : caches.Valid compile) (heap : Heap n) (capabilities : List (Capability n))
    (command : CommandRequest ν) :
    (validateAdvertisedCommand compile heap capabilities command caches).1 =
        validateFreshly compile heap capabilities command ∧
      (validateAdvertisedCommand compile heap capabilities command caches).2.Valid compile := by
  unfold validateAdvertisedCommand validateFreshly
  cases findCommand capabilities command with
  | error e => exact ⟨rfl, h⟩
  | ok d =>
    dsimp only
    obtain ⟨hparameters, hcaches⟩ :=
      matchesJsonSchema_valid hcompile h heap d.parametersSchema command.parameters
    rw [hparameters]
    cases hfresh : matchesFreshly compile heap d.parametersSchema command.parameters with
    | false =>
      rw [if_pos rfl, if_neg fun hboth => Bool.false_ne_true hboth.1]
      exact ⟨rfl, hcaches⟩
    | true =>
      rw [if_neg fun htrue => Bool.false_ne_true htrue.symm]
      obtain ⟨hstate, hcaches⟩ :=
        matchesJsonSchema_valid hcompile hcaches heap d.expectedStateSchema command.expectedState
      rw [hstate]
      cases matchesFreshly compile heap d.expectedStateSchema command.expectedState with
      | false =>
        rw [if_pos rfl, if_neg fun hboth => Bool.false_ne_true hboth.2]
        exact ⟨rfl, hcaches⟩
      | true => exact ⟨rfl, hcaches⟩

theorem verdicts_valid (hcompile : IgnoresZeroSigns compile) (calls : List (ValidationCall ν))
    (caches : SchemaCaches ν) (h : caches.Valid compile) :
    verdicts compile caches calls =
      calls.map fun call => validateFreshly compile call.heap call.capabilities call.command := by
  induction calls generalizing caches with
  | nil => rfl
  | cons call calls ih =>
    obtain ⟨hverdict, hcaches⟩ :=
      validateAdvertisedCommand_valid hcompile h call.heap call.capabilities call.command
    rw [List.map_cons, ← hverdict, ← ih _ hcaches]
    rfl

/-! ## The caches are not seen -/

theorem cache_invisible {ν : Type} (compile : Compiler ν) (hcompile : IgnoresZeroSigns compile)
    (calls : List (ValidationCall ν)) :
    verdicts compile .empty calls =
      calls.map fun call => validateFreshly compile call.heap call.capabilities call.command :=
  verdicts_valid hcompile calls .empty .empty

/-- Boolean schemas, the empty one and the one for truth values. -/
def compileSimple : Compiler (HeapValue 0) := fun schema =>
  match schema.map unsignedScalar with
  | .leaf (.boolean b) => .ok fun _ => .ok b
  | .object [] => .ok fun _ => .ok true
  | .object [(key, .leaf (.string type))] =>
      if key = js "type" ∧ type = js "boolean" then
        .ok fun value => .ok (value matches .boolean _)
      else .error (.other 0)
  | _ => .error (.other 0)

/-- One schema object with the given properties, and the two intrinsic prototypes. -/
def schemaHeap (type : Option JsString) : Heap 3 where
  objects ref :=
    match ref with
    | 2 =>
        { isArray := false
          prototype := some 0
          properties := type.toList.map fun type =>
            (.string (js "type"), .data (.string type) true)
          distinct := by cases type <;> simp
          ordered := by cases type <;> simp
          arrayLength := by simp }
    | _ =>
        { isArray := false
          prototype := none
          properties := []
          distinct := by simp
          ordered := by simp
          arrayLength := by simp }
  objectPrototype := 0
  arrayPrototype := 1

/-- The schema object is the schema for both values, and they are `null`. -/
def schemaCall (type : Option JsString) : ValidationCall (HeapValue 0) where
  objects := 3
  heap := schemaHeap type
  capabilities :=
    [{ id := js "commands.async"
       commands := some [{ name := js "flash"
                           commandClass := js "comfort"
                           confirmationRequired := false
                           parametersSchema := .object 2
                           expectedStateSchema := .object 2 }] }]
  command :=
    { command := js "flash"
      commandClass := js "comfort"
      hasConfirmation := false
      parameters := .null
      expectedState := .null }

-- The object is edited in place between the calls.
theorem cache_invisible_edited :
    verdicts compileSimple .empty [schemaCall none, schemaCall (some (js "boolean"))] =
      [.ok (), .error (.protocolValidation "command.descriptor")] := by
  have hcompile : IgnoresZeroSigns compileSimple := by
    intro v w h
    unfold compileSimple
    rw [h]
  rw [cache_invisible compileSimple hcompile]
  decide +kernel

end Commands
