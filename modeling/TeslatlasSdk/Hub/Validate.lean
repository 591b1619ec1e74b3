import TeslatlasSdk.Http.ExactInteger
import TeslatlasSdk.Http.NumericLexemes

/-!
# `decodeHubJson`

A hub document is parsed, its integer fields are compared with their spellings, the generated
validator judges it, and its keys are put in camel case.
-/

open Text Json Core Http

namespace Hub

/-! ## Integer fields -/

/-- `integerFields`. -/
def integerFields : List JsString :=
  [js "ascent", js "battery_level", js "center_display_state", js "charge_current_request",
    js "charge_current_request_max", js "charge_limit_soc", js "charger_phases", js "descent",
    js "download_perc", js "duration_min", js "end_date_ms", js "end_soc", js "expires_at_ms",
    js "expiresAtMs", js "id", js "install_perc", js "observed_at_ms", js "protocol_major",
    js "scheduled_charging_start_time", js "since", js "source_eid", js "source_vid", js "speed",
    js "speed_max", js "start_date_ms", js "start_soc", js "sun_roof_percent_open",
    js "suspend_after_idle_min", js "suspend_min", js "usable_battery_level"]

/-- `numericLexemes.get(parent)?.get(key)`. -/
def lexemeAt (lexemes : NumericLexemes) (path : Path) : Option JsString :=
  match lexemes.get path with
  | some (some (.leaf (.string token))) => some token
  | _ => none

def isInt64 (n : Int) : Bool := -9223372036854775808 ≤ n && n ≤ 9223372036854775807

/-- The condition of `rejectInexactIntegerFields` on a member of the value at a path. -/
def isInexactMember (lexemes : NumericLexemes) (path : Path) (member : JsString × Value) : Bool :=
  match member with
  | (key, .leaf (.number child)) =>
      key ∈ integerFields &&
        (!isExactJsonInteger child (lexemeAt lexemes (path ++ [key])) ||
          !(integer? child).any isInt64)
  | _ => false

theorem membersSize_entries {ν : Type} (t : JsonTree ν) :
    JsonTree.membersSize t.entries < t.size := by
  cases t with
  | leaf x => simp [JsonTree.entries, JsonTree.membersSize, JsonTree.size]
  | array items =>
    have h : ∀ i, JsonTree.membersSize (indexed i items) = JsonTree.itemsSize items := by
      induction items with
      | nil => exact fun _ => rfl
      | cons item items ih =>
        intro i
        rw [indexed, JsonTree.membersSize, ih, JsonTree.itemsSize]
    rw [JsonTree.entries, h, JsonTree.size]
    omega
  | object members =>
    rw [JsonTree.entries, JsonTree.size]
    omega

/-- The size of the values that are left to visit. -/
def pendingSize (pending : List (Path × Value)) : Nat := (pending.map fun p => p.2.size).sum

theorem pendingSize_append (first second : List (Path × Value)) :
    pendingSize (first ++ second) = pendingSize first + pendingSize second := by
  simp [pendingSize]

theorem pendingSize_reverse (pending : List (Path × Value)) :
    pendingSize pending.reverse = pendingSize pending := by
  simp [pendingSize]

theorem pendingSize_cons (first : Path × Value) (pending : List (Path × Value)) :
    pendingSize (first :: pending) = first.2.size + pendingSize pending := by
  simp [pendingSize]

theorem pendingSize_children (path : Path) (members : List (JsString × Value)) :
    pendingSize (members.map fun m => (path ++ [m.1], m.2)) = JsonTree.membersSize members := by
  induction members with
  | nil => rfl
  | cons m members ih =>
    obtain ⟨key, value⟩ := m
    rw [List.map_cons, pendingSize_cons, ih, JsonTree.membersSize]

/-- The loop of `rejectInexactIntegerFields`: `pending`, its last element first, with the paths of
the values. -/
def rejectLoop (lexemes : NumericLexemes) (validatorName : String)
    (pending : List (Path × Value)) : Except TeslatlasError Unit :=
  match pending with
  | [] => .ok ()
  | (path, current) :: pending =>
      if current.entries.any (isInexactMember lexemes path) then
        .error (.protocolValidation (validatorName ++ ".integer"))
      else
        rejectLoop lexemes validatorName
          ((current.entries.map fun m => (path ++ [m.1], m.2)).reverse ++ pending)
termination_by pendingSize pending
decreasing_by
  have h := membersSize_entries current
  rw [pendingSize_append, pendingSize_reverse, pendingSize_children, pendingSize_cons]
  show JsonTree.membersSize current.entries + pendingSize pending <
    current.size + pendingSize pending
  omega

def rejectInexactIntegerFields (value : Value) (lexemes : NumericLexemes)
    (validatorName : String) : Except TeslatlasError Unit :=
  rejectLoop lexemes validatorName [([], value)]

/-! ## Camel case -/

/-- `key.replace(/_([a-z])/gu, (_match, letter) => letter.toUpperCase())`. -/
def camelKey : JsString → JsString
  | [] => []
  | [u] => [u]
  | u :: v :: rest =>
      if u = 0x5F && 0x61 ≤ v && v ≤ 0x7A then (v - 0x20) :: camelKey rest
      else u :: camelKey (v :: rest)

mutual

/-- `camelize`. -/
def camelize : Value → Value
  | .leaf value => .leaf value
  | .array items => .array (camelizeItems items)
  | .object members => .object (camelizeMembers [] members)

def camelizeItems : List Value → List Value
  | [] => []
  | item :: items => camelize item :: camelizeItems items

/-- `Object.fromEntries` defines the members in turn. -/
def camelizeMembers (done : List (JsString × Value)) :
    List (JsString × Value) → List (JsString × Value)
  | [] => done
  | (key, value) :: members =>
      camelizeMembers (defineMember (camelKey key) (camelize value) done) members

end

/-- `decodeHubJson`, over the generated validator, which looks lexemes up as well. -/
def decodeHubJson (source : JsString) (validator : Value → NumericLexemes → Bool)
    (validatorName : String) : Except TeslatlasError Value :=
  match parseProtocolJson source validatorName with
  | .error error => .error error
  | .ok (wire, lexemes) =>
      match rejectInexactIntegerFields wire lexemes validatorName with
      | .error error => .error error
      | .ok () =>
          if validator wire lexemes then .ok (camelize wire)
          else .error (.protocolValidation validatorName)

/-! ## The walk reaches every member -/

-- A walk that passes has looked at every member under the pending values.
theorem rejectLoop_ok {lexemes : NumericLexemes} {validatorName : String}
    {pending : List (Path × Value)} (h : rejectLoop lexemes validatorName pending = .ok ())
    {path : Path} {value : Value} (hmem : (path, value) ∈ pending) {later : Path} {c : Value}
    (hc : value.get later = some c) {m : JsString × Value} (hm : m ∈ c.entries) :
    isInexactMember lexemes (path ++ later) m = false := by
  fun_induction rejectLoop lexemes validatorName pending generalizing path value later with
  | case1 => simp at hmem
  | case2 first current pending hany => simp at h
  | case3 first current pending hany ih =>
    rcases List.mem_cons.mp hmem with heq | hmem
    · obtain ⟨rfl, rfl⟩ := Prod.mk.inj heq
      cases later with
      | nil =>
        obtain rfl := Option.some.inj hc
        rw [List.append_nil]
        exact Bool.eq_false_of_not_eq_true
          (List.any_eq_false.mp (Bool.eq_false_of_not_eq_true hany) m hm)
      | cons key later =>
        rw [JsonTree.get, Option.bind_eq_some_iff] at hc
        obtain ⟨child, hchild, hc⟩ := hc
        have hentry := JsonTree.mem_of_lastMember hchild
        have hpending : (path ++ [key], child) ∈
            (value.entries.map fun m => (path ++ [m.1], m.2)).reverse ++ pending := by
          apply List.mem_append_left
          exact List.mem_reverse.mpr (List.mem_map.mpr ⟨(key, child), hentry, rfl⟩)
        have hlater := ih h hpending hc
        rwa [List.append_assoc, List.singleton_append] at hlater
    · exact ih h (List.mem_append_right _ hmem) hc

/-! ## Camel case keeps numbers in their places -/

theorem camelizeItems_eq (items : List Value) : camelizeItems items = items.map camelize := by
  induction items with
  | nil => rfl
  | cons item items ih => rw [camelizeItems, ih, List.map_cons]

theorem lastMember_camelizeMembers (key : JsString) (done members : List (JsString × Value)) :
    lastMember key (camelizeMembers done members) =
      (lastMember key (members.map fun m => (camelKey m.1, camelize m.2))).or
        (lastMember key done) := by
  induction members generalizing done with
  | nil => simp [camelizeMembers, lastMember]
  | cons m members ih =>
    obtain ⟨first, value⟩ := m
    rw [camelizeMembers, ih, List.map_cons, lastMember, JsonTree.lastMember_defineMember]
    cases lastMember key (members.map fun m => (camelKey m.1, camelize m.2)) with
    | some old => rfl
    | none =>
      simp only [Option.none_or]
      split <;> rfl

-- Where no two names have one camel-case form, a member is found under the form of its name.
theorem lastMember_camel {members : List (JsString × Value)}
    (hdistinct : ∀ m ∈ members, ∀ m' ∈ members, camelKey m.1 = camelKey m'.1 → m.1 = m'.1)
    {key : JsString} {value : Value} (h : lastMember key members = some value) :
    lastMember (camelKey key) (members.map fun m => (camelKey m.1, camelize m.2)) =
      some (camelize value) := by
  have hkey := JsonTree.mem_of_lastMember h
  suffices hmap : ∀ ms : List (JsString × Value), (∀ m ∈ ms, m ∈ members) →
      lastMember (camelKey key) (ms.map fun m => (camelKey m.1, camelize m.2)) =
        (lastMember key ms).map camelize by
    rw [hmap members fun m hm => hm, h]
    rfl
  intro ms hms
  induction ms with
  | nil => rfl
  | cons m ms ih =>
    obtain ⟨first, old⟩ := m
    rw [List.map_cons, lastMember, ih fun m hm => hms m (List.mem_cons_of_mem _ hm), lastMember]
    have hfirst := hms (first, old) List.mem_cons_self
    have hiff : camelKey key = camelKey first ↔ key = first :=
      ⟨hdistinct _ hkey _ hfirst, congrArg camelKey⟩
    cases lastMember key ms with
    | some v => rfl
    | none =>
      simp only [Option.map_none, Option.none_or, hiff]
      split <;> rfl

theorem camelKey_decimal (n : Nat) : camelKey (decimal n) = decimal n := by
  have hkeep : ∀ s : JsString, (∀ u ∈ s, u ≠ 0x5F) → camelKey s = s := by
    intro s
    fun_induction camelKey s with
    | case1 => exact fun _ => rfl
    | case2 u => exact fun _ => rfl
    | case3 u v rest hu ih =>
      intro h
      simp only [Bool.and_eq_true, decide_eq_true_eq] at hu
      exact absurd hu.1.1 (h u List.mem_cons_self)
    | case4 u v rest hu ih =>
      intro h
      rw [ih fun w hw => h w (List.mem_cons_of_mem u hw)]
  apply hkeep
  rintro u hu rfl
  exact absurd (isDigit_decimal n _ hu) (by decide)

theorem get_concat {value leaf : Value} {path : Path} {key : JsString}
    (h : value.get (path ++ [key]) = some leaf) :
    ∃ c, value.get path = some c ∧ c.child key = some leaf := by
  induction path generalizing value with
  | nil =>
    rw [List.nil_append, JsonTree.get, Option.bind_eq_some_iff] at h
    obtain ⟨c, hc, hleaf⟩ := h
    obtain rfl := Option.some.inj hleaf
    exact ⟨value, rfl, hc⟩
  | cons first path ih =>
    rw [List.cons_append, JsonTree.get, Option.bind_eq_some_iff] at h
    obtain ⟨d, hd, hlater⟩ := h
    obtain ⟨c, hc, hleaf⟩ := ih hlater
    refine ⟨c, ?_, hleaf⟩
    rw [JsonTree.get, hd]
    exact hc

/-- No object of the value has two member names with the same camel-case form. -/
def CamelDistinct (value : Value) : Prop :=
  ∀ path members, value.get path = some (.object members) →
    ∀ m ∈ members, ∀ m' ∈ members, camelKey m.1 = camelKey m'.1 → m.1 = m'.1

theorem CamelDistinct.child {value c : Value} (h : CamelDistinct value) {key : JsString}
    (hc : value.child key = some c) : CamelDistinct c := by
  intro path members hmembers
  refine h (key :: path) members ?_
  rw [JsonTree.get, hc]
  exact hmembers

theorem child_camelize {value c : Value} (h : CamelDistinct value) {key : JsString}
    (hc : value.child key = some c) : (camelize value).child (camelKey key) = some (camelize c) := by
  cases value with
  | leaf x => simp [JsonTree.child, JsonTree.entries, lastMember] at hc
  | array items =>
    rw [JsonTree.child, JsonTree.entries] at hc
    obtain ⟨j, -, rfl⟩ := (JsonTree.nodup_indexed 0 items).2 key
      (List.mem_map.mpr ⟨_, JsonTree.mem_of_lastMember hc, rfl⟩)
    rw [camelKey_decimal, camelize, JsonTree.child, JsonTree.entries, camelizeItems_eq,
      JsonTree.indexed_map, JsonTree.lastMember_map, hc]
    rfl
  | object members =>
    rw [JsonTree.child, JsonTree.entries] at hc
    rw [camelize, JsonTree.child, JsonTree.entries, lastMember_camelizeMembers,
      lastMember_camel (h [] members rfl) hc]
    rfl

-- What is at a path is found, in camel case, at the camel-case path.
theorem get_camelize {value c : Value} (h : CamelDistinct value) {path : Path}
    (hc : value.get path = some c) :
    (camelize value).get (path.map camelKey) = some (camelize c) := by
  induction path generalizing value with
  | nil =>
    obtain rfl := Option.some.inj hc
    rfl
  | cons key path ih =>
    rw [JsonTree.get, Option.bind_eq_some_iff] at hc
    obtain ⟨d, hd, hc⟩ := hc
    rw [List.map_cons, JsonTree.get, child_camelize h hd]
    exact ih (h.child hd) hc

/-! ## Integers are never rounded -/

/-- The token spells a 64-bit integer, and its number is that integer. -/
def SpellsInt64 (token : JsString) (n : Int) : Prop :=
  Denotes (decimalOfToken token) n ∧ -2 ^ 63 ≤ n ∧ n ≤ 2 ^ 63 - 1 ∧
    integer? (numberOfToken token) = some n

theorem spellsInt64_of_member {lexemes : NumericLexemes} {path : Path} {key token : JsString}
    (hkey : key ∈ integerFields) (hlexeme : lexemeAt lexemes (path ++ [key]) = some token)
    (h : isInexactMember lexemes path (key, .leaf (.number (numberOfToken token))) = false) :
    ∃ n, SpellsInt64 token n := by
  simp only [isInexactMember, hkey, decide_true, Bool.true_and, hlexeme, Bool.or_eq_false_iff,
    Bool.not_eq_false'] at h
  obtain ⟨hexact, hrange⟩ := h
  obtain ⟨n, hdenotes, hinteger⟩ := isExactJsonInteger_spec hexact
  rw [hinteger, Option.any_some, isInt64, Bool.and_eq_true, decide_eq_true_eq,
    decide_eq_true_eq] at hrange
  exact ⟨n, hdenotes, by omega, by omega, hinteger⟩

-- An accepted document spells a 64-bit integer in each integer field, and hands it over.
theorem decodeHubJson_ok {source : JsString} {validator : Value → NumericLexemes → Bool}
    {validatorName : String}
    (hvalidator : ∀ wire lexemes, validator wire lexemes = true → CamelDistinct wire) {value : Value}
    (h : decodeHubJson source validator validatorName = .ok value) :
    ∃ tree, parse source = some tree ∧ ∀ path key token, key ∈ integerFields →
      sourceToken tree (path ++ [key]) = some token → ∃ n, SpellsInt64 token n ∧
        value.get ((path ++ [key]).map camelKey) = some (.leaf (.number (numberOfToken token))) := by
  unfold decodeHubJson at h
  cases hparse : parse source with
  | none =>
    rw [parseProtocolJson_of_not_parse hparse] at h
    simp at h
  | some tree =>
    rw [parseProtocolJson_of_parse hparse] at h
    by_cases hfinite : ∀ v ∈ textVisits tree, v.2.1.isFinite = true
    · rw [if_pos hfinite] at h
      simp only at h
      cases hreject : rejectInexactIntegerFields (tree.settle.map Scalar.toPrimitive)
          (recorded (textVisits tree)) validatorName with
      | error error => simp [hreject] at h
      | ok u =>
        rw [hreject] at h
        simp only at h
        by_cases hvalid : validator (tree.settle.map Scalar.toPrimitive)
            (recorded (textVisits tree)) = true
        · rw [if_pos hvalid] at h
          obtain rfl := Except.ok.inj h
          refine ⟨tree, rfl, fun path key token hkey htoken => ?_⟩
          have hget : (tree.settle.map Scalar.toPrimitive).get (path ++ [key]) =
              some (.leaf (.number (numberOfToken token))) :=
            (get_number tree _ _).mpr ⟨token, htoken, rfl⟩
          have hlexeme : lexemeAt (recorded (textVisits tree)) (path ++ [key]) = some token := by
            rw [lexemeAt, get_recorded tree (by simp), htoken]
            rfl
          obtain ⟨c, hc, hchild⟩ := get_concat hget
          have hmember := rejectLoop_ok hreject List.mem_cons_self hc
            (JsonTree.mem_of_lastMember hchild)
          obtain ⟨n, hn⟩ := spellsInt64_of_member hkey hlexeme hmember
          exact ⟨n, hn, get_camelize (hvalidator _ _ hvalid) hget⟩
        · rw [if_neg hvalid] at h
          simp at h
    · rw [if_neg hfinite] at h
      simp at h

-- Integers are never rounded: an accepted document spells a 64-bit integer in every integer field at
-- any depth and the value has that integer; accepted documents with different integers have different
-- values; and a document that spells anything else in such a field is rejected.
theorem decodeHubJson_exact (validator : Value → NumericLexemes → Bool) (validatorName : String)
    (hvalidator : ∀ wire lexemes, validator wire lexemes = true → CamelDistinct wire) :
    (∀ source value, decodeHubJson source validator validatorName = .ok value →
      ∃ tree, parse source = some tree ∧ ∀ path key token, key ∈ integerFields →
        sourceToken tree (path ++ [key]) = some token →
        ∃ n x, Denotes (decimalOfToken token) n ∧ -2 ^ 63 ≤ n ∧ n ≤ 2 ^ 63 - 1 ∧
          value.get ((path ++ [key]).map camelKey) = some (.leaf (.number x)) ∧
          integer? x = some n) ∧
    (∀ source source' value value' tree tree' path key token token' n n',
      decodeHubJson source validator validatorName = .ok value →
      decodeHubJson source' validator validatorName = .ok value' →
      parse source = some tree → parse source' = some tree' → key ∈ integerFields →
      sourceToken tree (path ++ [key]) = some token →
      sourceToken tree' (path ++ [key]) = some token' →
      Denotes (decimalOfToken token) n → Denotes (decimalOfToken token') n' → n ≠ n' →
      value ≠ value') ∧
    ∀ source tree path key token, parse source = some tree → key ∈ integerFields →
      sourceToken tree (path ++ [key]) = some token → (¬ ∃ n, SpellsInt64 token n) →
      ∃ error, decodeHubJson source validator validatorName = .error error := by
  refine ⟨fun source value h => ?_, ?_, ?_⟩
  · obtain ⟨tree, hparse, hall⟩ := decodeHubJson_ok hvalidator h
    refine ⟨tree, hparse, fun path key token hkey htoken => ?_⟩
    obtain ⟨n, ⟨hdenotes, hlo, hhi, hinteger⟩, hget⟩ := hall path key token hkey htoken
    exact ⟨n, _, hdenotes, hlo, hhi, hget, hinteger⟩
  · rintro source source' value value' tree tree' path key token token' n n' h h' hparse hparse' hkey
      htoken htoken' hn hn' hne rfl
    obtain ⟨t, ht, hall⟩ := decodeHubJson_ok hvalidator h
    obtain ⟨t', ht', hall'⟩ := decodeHubJson_ok hvalidator h'
    obtain rfl := Option.some.inj (ht.symm.trans hparse)
    obtain rfl := Option.some.inj (ht'.symm.trans hparse')
    obtain ⟨m, ⟨hm, -, -, hinteger⟩, hget⟩ := hall path key token hkey htoken
    obtain ⟨m', ⟨hm', -, -, hinteger'⟩, hget'⟩ := hall' path key token' hkey htoken'
    rw [hget] at hget'
    simp only [Option.some.injEq, JsonTree.leaf.injEq, Primitive.number.injEq] at hget'
    rw [hget', hinteger', Option.some.injEq] at hinteger
    exact hne ((hn.unique hm).trans (hinteger.symm.trans (hm'.unique hn')))
  · intro source tree path key token hparse hkey htoken hnot
    cases h : decodeHubJson source validator validatorName with
    | error error => exact ⟨error, rfl⟩
    | ok value =>
      obtain ⟨t, ht, hall⟩ := decodeHubJson_ok hvalidator h
      obtain rfl := Option.some.inj (ht.symm.trans hparse)
      obtain ⟨n, hn, -⟩ := hall path key token hkey htoken
      exact absurd ⟨n, hn⟩ hnot

/-- A validator that admits an object with a drive, whose one member is an exact integer. -/
def hasDrive : Value → NumericLexemes → Bool
  | .object [(key, .object [(field, .leaf (.number x))])], lexemes =>
      key == js "drive" && field == js "start_soc" &&
        isExactJsonInteger x (lexemeAt lexemes [key, field])
  | _, _ => false

theorem camelDistinct_singleton {key : JsString} {value : Value} (h : CamelDistinct value) :
    CamelDistinct (.object [(key, value)]) := by
  intro path members hmembers
  cases path with
  | nil =>
    obtain rfl := JsonTree.object.inj (Option.some.inj hmembers)
    intro m hm m' hm' _
    rw [List.mem_singleton.mp hm, List.mem_singleton.mp hm']
  | cons k path =>
    rw [JsonTree.get, Option.bind_eq_some_iff] at hmembers
    obtain ⟨c, hc, hmembers⟩ := hmembers
    obtain ⟨-, rfl⟩ := Prod.mk.inj (List.mem_singleton.mp (JsonTree.mem_of_lastMember hc))
    exact h path members hmembers

theorem camelDistinct_leaf (x : Primitive) : CamelDistinct (.leaf x) := by
  intro path members hmembers
  cases path with
  | nil => simp [JsonTree.get] at hmembers
  | cons k path => simp [JsonTree.get, JsonTree.child, JsonTree.entries, lastMember] at hmembers

theorem camelDistinct_of_hasDrive {wire : Value} {lexemes : NumericLexemes}
    (h : hasDrive wire lexemes = true) : CamelDistinct wire := by
  unfold hasDrive at h
  split at h
  · exact camelDistinct_singleton (camelDistinct_singleton (camelDistinct_leaf _))
  · simp at h

theorem decodeHubJson_exact_drive :
    ∃ value, decodeHubJson (js "\x7b\x22drive\x22:\x7b\x22start_soc\x22:1.01e2\x7d\x7d") hasDrive
        "HubDrives" = .ok value ∧
      ∃ tree, parse (js "\x7b\x22drive\x22:\x7b\x22start_soc\x22:1.01e2\x7d\x7d") = some tree ∧
        ∀ path key token, key ∈ integerFields → sourceToken tree (path ++ [key]) = some token →
        ∃ n x, Denotes (decimalOfToken token) n ∧ -2 ^ 63 ≤ n ∧ n ≤ 2 ^ 63 - 1 ∧
          value.get ((path ++ [key]).map camelKey) = some (.leaf (.number x)) ∧
          integer? x = some n := by
  have hok : (decodeHubJson (js "\x7b\x22drive\x22:\x7b\x22start_soc\x22:1.01e2\x7d\x7d") hasDrive
      "HubDrives").isOk = true := by
    decide +kernel
  cases h : decodeHubJson (js "\x7b\x22drive\x22:\x7b\x22start_soc\x22:1.01e2\x7d\x7d") hasDrive
      "HubDrives" with
  | error error =>
    rw [h] at hok
    cases hok
  | ok value =>
    exact ⟨value, rfl,
      (decodeHubJson_exact hasDrive "HubDrives" fun _ _ => camelDistinct_of_hasDrive).1 _ _ h⟩

end Hub
