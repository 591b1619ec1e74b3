import TeslatlasSdk.Json.Compact

/-!
# `canonicalizeSortedJson`

Objects are rebuilt with their keys sorted, and the rebuilt value is written as JSON.  The text tells
values apart up to the order of members.  Its own order is that of the keys only where the language
does not enumerate array indices first.
-/

open Text Json

namespace Scripts

/-! ## The code -/

mutual

def assertCanonicalJsonValue (path : JsString) : Value → Except JsString Unit
  | .leaf (.number x) =>
      if x.isFinite then .ok ()
      else .error (js "semantic snapshot has non-finite number at " ++ path)
  | .leaf _ => .ok ()
  | .array items => assertCanonicalItems path 0 items
  | .object members => assertCanonicalMembers path members

def assertCanonicalItems (path : JsString) (index : Nat) : List Value → Except JsString Unit
  | [] => .ok ()
  | item :: items => do
      assertCanonicalJsonValue (path ++ 0x5B :: (decimal index ++ [0x5D])) item
      assertCanonicalItems path (index + 1) items

def assertCanonicalMembers (path : JsString) : List (JsString × Value) → Except JsString Unit
  | [] => .ok ()
  | (key, value) :: members => do
      assertCanonicalJsonValue (path ++ 0x2E :: key) value
      assertCanonicalMembers path members

end

mutual

/-- The value under a key does not depend on the key's place, so it is sorted where it stands. -/
def sortJsonValue : Value → Value
  | .leaf x => .leaf x
  | .array items => .array (sortJsonItems items)
  | .object members => .object (fromEntries (sortMembers (sortJsonMembers members)))

def sortJsonItems : List Value → List Value
  | [] => []
  | item :: items => sortJsonValue item :: sortJsonItems items

def sortJsonMembers : List (JsString × Value) → List (JsString × Value)
  | [] => []
  | (key, value) :: members => (key, sortJsonValue value) :: sortJsonMembers members

end

def canonicalizeSortedJson (value : Value) : Except JsString JsString := do
  assertCanonicalJsonValue (js "$") value
  return stringifyTree (sortJsonValue value)

/-! ## What a canonical text should be -/

/-- No object has a key twice, and numbers are finite. -/
abbrev IsJson (value : Value) : Prop := value.Everywhere List.Nodup Primitive.IsJson

/-- A value that JSON can express. -/
structure JsonValue where
  value : Value
  isJson : IsJson value

/-- Equality up to the order of members and the sign of zero. -/
inductive SameJson : Value → Value → Prop
  | leaf (x y : Primitive) (h : unsignedScalar x = unsignedScalar y) : SameJson (.leaf x) (.leaf y)
  | array (items others : List Value) (h : List.Forall₂ SameJson items others) :
      SameJson (.array items) (.array others)
  | object (members reordered others : List (JsString × Value)) (hperm : reordered.Perm others)
      (hkeys : members.map Prod.fst = reordered.map Prod.fst)
      (h : List.Forall₂ SameJson (members.map Prod.snd) (reordered.map Prod.snd)) :
      SameJson (.object members) (.object others)

/-- The members of every object in the text stand in the order of their keys. -/
def MembersAscend (text : JsString) : Prop :=
  ∃ tree, parse text = some tree ∧ tree.Everywhere (·.Pairwise (· < ·)) fun _ => True

/-- The text tells the value from the other exactly when they differ, and its members ascend. -/
def Canonical (value other : JsonValue) : Prop :=
  (canonicalizeSortedJson value.value = canonicalizeSortedJson other.value ↔
    SameJson value.value other.value) ∧
  ∃ text, canonicalizeSortedJson value.value = .ok text ∧ MembersAscend text

/-! ## Sorting -/

theorem sortJsonItems_eq (items : List Value) : sortJsonItems items = items.map sortJsonValue := by
  induction items with
  | nil => rfl
  | cons item items ih => rw [sortJsonItems, ih, List.map_cons]

theorem sortJsonMembers_eq (members : List (JsString × Value)) :
    sortJsonMembers members = members.map fun m => (m.1, sortJsonValue m.2) := by
  induction members with
  | nil => rfl
  | cons m members ih => rw [sortJsonMembers, ih, List.map_cons]

section Members

variable {members : List (JsString × Value)}

theorem nodup_sortJsonMembers (h : (members.map Prod.fst).Nodup) :
    ((sortJsonMembers members).map Prod.fst).Nodup := by
  rw [sortJsonMembers_eq, JsonTree.map_keys]
  exact h

-- The members of a sorted object are its members, sorted.
theorem mem_sorted (h : (members.map Prod.fst).Nodup) {m : JsString × Value} :
    m ∈ fromEntries (sortMembers (sortJsonMembers members)) ↔
      ∃ n ∈ members, (n.1, sortJsonValue n.2) = m := by
  rw [(fromEntries_sortMembers_perm (nodup_sortJsonMembers h)).mem_iff, sortJsonMembers_eq,
    List.mem_map]

end Members

theorem isJson_sortJsonValue {value : Value} (h : IsJson value) : IsJson (sortJsonValue value) := by
  induction value using JsonTree.induction_tree with
  | leaf x => exact h
  | array items ih =>
    rw [sortJsonValue, sortJsonItems_eq, IsJson, JsonTree.everywhere_array, List.forall_mem_map]
    exact fun item hitem => ih item hitem (JsonTree.everywhere_array.mp h item hitem)
  | object members ih =>
    obtain ⟨hkeys, hmembers⟩ := JsonTree.everywhere_object.mp h
    rw [sortJsonValue, IsJson, JsonTree.everywhere_object]
    constructor
    · have hperm := fromEntries_sortMembers_perm (nodup_sortJsonMembers hkeys)
      exact (hperm.map Prod.fst).nodup_iff.mpr (nodup_sortJsonMembers hkeys)
    · intro m hm
      obtain ⟨n, hn, rfl⟩ := (mem_sorted hkeys).mp hm
      exact ih n hn (hmembers n hn)

/-! ## The check -/

theorem assertCanonicalItems_ok {items : List Value}
    (h : ∀ item ∈ items, ∀ path, assertCanonicalJsonValue path item = .ok ()) (path : JsString)
    (index : Nat) : assertCanonicalItems path index items = .ok () := by
  induction items generalizing index with
  | nil => rfl
  | cons item items ih =>
    rw [assertCanonicalItems, h item List.mem_cons_self]
    exact ih (fun t ht => h t (List.mem_cons_of_mem item ht)) (index + 1)

theorem assertCanonicalMembers_ok {members : List (JsString × Value)}
    (h : ∀ m ∈ members, ∀ path, assertCanonicalJsonValue path m.2 = .ok ()) (path : JsString) :
    assertCanonicalMembers path members = .ok () := by
  induction members with
  | nil => rfl
  | cons m members ih =>
    rw [assertCanonicalMembers, h m List.mem_cons_self]
    exact ih fun n hn => h n (List.mem_cons_of_mem m hn)

theorem assertCanonicalJsonValue_ok {value : Value} (h : IsJson value) (path : JsString) :
    assertCanonicalJsonValue path value = .ok () := by
  induction value using JsonTree.induction_tree generalizing path with
  | leaf x =>
    cases x with
    | null | boolean | string => rfl
    | number x =>
      have hx : Primitive.IsJson (.number x) := JsonTree.everywhere_leaf.mp h
      rw [assertCanonicalJsonValue, if_pos hx.1]
  | array items ih =>
    rw [assertCanonicalJsonValue]
    exact assertCanonicalItems_ok (fun item hitem =>
      ih item hitem (JsonTree.everywhere_array.mp h item hitem)) path 0
  | object members ih =>
    rw [assertCanonicalJsonValue]
    exact assertCanonicalMembers_ok (fun m hm =>
      ih m hm ((JsonTree.everywhere_object.mp h).2 m hm)) path

theorem canonicalizeSortedJson_ok {value : Value} (h : IsJson value) :
    canonicalizeSortedJson value = .ok (stringifyTree (sortJsonValue value)) := by
  rw [canonicalizeSortedJson, assertCanonicalJsonValue_ok h]
  rfl

/-! ## What tells two texts apart -/

/-- The sorted value with zeros unsigned. -/
def sortedForm (value : Value) : Value := (sortJsonValue value).map unsignedScalar

theorem sortedForm_array (items : List Value) :
    sortedForm (.array items) = .array (items.map sortedForm) := by
  rw [sortedForm, sortJsonValue, JsonTree.map, JsonTree.mapItems_eq, sortJsonItems_eq, List.map_map]
  rfl

theorem sortedForm_object (members : List (JsString × Value)) :
    sortedForm (.object members) =
      .object (fromEntries (sortMembers (members.map fun m => (m.1, sortedForm m.2)))) := by
  have hmembers : (members.map fun m => (m.1, sortedForm m.2)) =
      (sortJsonMembers members).map fun m => (m.1, m.2.map unsignedScalar) := by
    rw [sortJsonMembers_eq, List.map_map]
    rfl
  rw [hmembers, sortMembers_map, fromEntries_map, sortedForm, sortJsonValue, JsonTree.map,
    JsonTree.mapMembers_eq]

theorem forall₂_iff_map {α β : Type} {R : α → α → Prop} {f : α → β} {xs ys : List α}
    (h : ∀ x ∈ xs, ∀ y ∈ ys, R x y ↔ f x = f y) :
    List.Forall₂ R xs ys ↔ xs.map f = ys.map f := by
  induction xs generalizing ys with
  | nil =>
    cases ys with
    | nil => simp
    | cons y ys => simp
  | cons x xs ih =>
    cases ys with
    | nil => simp
    | cons y ys =>
      have hrest : List.Forall₂ R xs ys ↔ xs.map f = ys.map f := ih fun x' hx y' hy =>
        h x' (List.mem_cons_of_mem x hx) y' (List.mem_cons_of_mem y hy)
      rw [List.forall₂_cons, List.map_cons, List.map_cons, List.cons.injEq, hrest,
        h x List.mem_cons_self y List.mem_cons_self]

-- The members' keys and values make up the members.
theorem members_eq_iff {α : Type} {members others : List (JsString × α)} :
    members = others ↔
      members.map Prod.fst = others.map Prod.fst ∧ members.map Prod.snd = others.map Prod.snd := by
  constructor
  · rintro rfl
    exact ⟨rfl, rfl⟩
  · rintro ⟨hkeys, hvalues⟩
    exact (List.zip_of_prod hkeys hvalues).trans (List.zip_of_prod rfl rfl).symm

theorem sameJson_object_iff {members others : List (JsString × Value)}
    (ih : ∀ m ∈ members, ∀ n ∈ others, SameJson m.2 n.2 ↔ sortedForm m.2 = sortedForm n.2) :
    SameJson (.object members) (.object others) ↔
      (members.map fun m => (m.1, sortedForm m.2)).Perm
        (others.map fun m => (m.1, sortedForm m.2)) := by
  have hvalues : ∀ reordered : List (JsString × Value), reordered.Perm others →
      (List.Forall₂ SameJson (members.map Prod.snd) (reordered.map Prod.snd) ↔
        (members.map fun m => (m.1, sortedForm m.2)).map Prod.snd =
          (reordered.map fun m => (m.1, sortedForm m.2)).map Prod.snd) := by
    intro reordered hperm
    rw [JsonTree.map_values, JsonTree.map_values]
    refine forall₂_iff_map ?_
    rw [List.forall_mem_map]
    intro m hm
    rw [List.forall_mem_map]
    exact fun n hn => ih m hm n (hperm.mem_iff.mp hn)
  constructor
  · rintro (_ | _ | ⟨_, reordered, _, hperm, hkeys, h⟩)
    have heq : (members.map fun m => (m.1, sortedForm m.2)) =
        reordered.map fun m => (m.1, sortedForm m.2) := by
      refine members_eq_iff.mpr ⟨?_, (hvalues reordered hperm).mp h⟩
      rw [JsonTree.map_keys, JsonTree.map_keys, hkeys]
    rw [heq]
    exact hperm.map _
  · intro h
    -- The members of the other object can be put in the order of this one's.
    have hothers : List.Forall₂ (fun (m : JsString × Value) n => m = (n.1, sortedForm n.2))
        (others.map fun m => (m.1, sortedForm m.2)) others :=
      List.forall₂_map_left_iff.mpr (List.forall₂_same.mpr fun n _ => rfl)
    obtain ⟨reordered, hforms, hperm⟩ := List.perm_comp_forall₂ h hothers
    have heq : List.Forall₂ (· = ·) (members.map fun m => (m.1, sortedForm m.2))
        (reordered.map fun m => (m.1, sortedForm m.2)) := List.forall₂_map_right_iff.mpr hforms
    rw [List.forall₂_eq_eq_eq, members_eq_iff] at heq
    obtain ⟨hkeys, hsame⟩ := heq
    rw [JsonTree.map_keys, JsonTree.map_keys] at hkeys
    exact .object members reordered others hperm hkeys ((hvalues reordered hperm).mpr hsame)

-- Values are equal up to order and signs of zeros when their sorted forms are equal.
theorem sameJson_iff {value other : Value} (h : IsJson value) (h' : IsJson other) :
    SameJson value other ↔ sortedForm value = sortedForm other := by
  induction value using JsonTree.induction_tree generalizing other with
  | leaf x =>
    cases other with
    | leaf y =>
      have hforms : sortedForm (.leaf x) = sortedForm (.leaf y) ↔
          unsignedScalar x = unsignedScalar y :=
        ⟨fun heq => JsonTree.leaf.inj heq, fun heq => congrArg JsonTree.leaf heq⟩
      rw [hforms]
      constructor
      · rintro (⟨_, _, heq⟩ | _ | _)
        exact heq
      · exact fun heq => .leaf x y heq
    | array others => exact iff_of_false nofun nofun
    | object others => exact iff_of_false nofun nofun
  | array items ih =>
    cases other with
    | leaf y => exact iff_of_false nofun nofun
    | object others => exact iff_of_false nofun nofun
    | array others =>
      have hitems : List.Forall₂ SameJson items others ↔
          items.map sortedForm = others.map sortedForm :=
        forall₂_iff_map fun item hitem other hother =>
          ih item hitem (JsonTree.everywhere_array.mp h item hitem)
            (JsonTree.everywhere_array.mp h' other hother)
      rw [sortedForm_array, sortedForm_array, JsonTree.array.injEq, ← hitems]
      constructor
      · rintro (_ | ⟨_, _, hsame⟩ | _)
        exact hsame
      · exact fun hsame => .array items others hsame
  | object members ih =>
    cases other with
    | leaf y => exact iff_of_false nofun nofun
    | array others => exact iff_of_false nofun nofun
    | object others =>
      obtain ⟨hkeys, hmembers⟩ := JsonTree.everywhere_object.mp h
      obtain ⟨hkeys', hothers⟩ := JsonTree.everywhere_object.mp h'
      have hnodup : ((members.map fun m => (m.1, sortedForm m.2)).map Prod.fst).Nodup := by
        rw [JsonTree.map_keys]
        exact hkeys
      have hnodup' : ((others.map fun m => (m.1, sortedForm m.2)).map Prod.fst).Nodup := by
        rw [JsonTree.map_keys]
        exact hkeys'
      rw [sameJson_object_iff fun m hm n hn => ih m hm (hmembers m hm) (hothers n hn),
        sortedForm_object, sortedForm_object, JsonTree.object.injEq]
      constructor
      · intro hperm
        rw [sortMembers_congr hnodup hperm]
      · intro heq
        exact (fromEntries_sortMembers_perm hnodup).symm.trans
          (heq ▸ fromEntries_sortMembers_perm hnodup')

/-! ## The text -/

-- The signs of zeros are not written.
theorem stringifyTree_unsigned (value : Value) :
    stringifyTree (value.map unsignedScalar) = stringifyTree value := by
  induction value using JsonTree.induction_tree with
  | leaf x => exact stringifyScalar_unsigned x
  | array items ih =>
    have hitems : items.map (stringifyTree ∘ JsonTree.map unsignedScalar) =
        items.map stringifyTree := List.map_congr_left ih
    rw [JsonTree.map, JsonTree.mapItems_eq, stringifyTree, stringifyItems_eq, List.map_map, hitems,
      ← stringifyItems_eq, ← stringifyTree]
  | object members ih =>
    have hmembers : ∀ m ∈ members,
        stringify m.1 ++ 0x3A :: stringifyTree (m.2.map unsignedScalar) =
          stringify m.1 ++ 0x3A :: stringifyTree m.2 := fun m hm => by rw [ih m hm]
    rw [JsonTree.map, JsonTree.mapMembers_eq, stringifyTree, stringifyMembers_eq, List.map_map]
    show 0x7B :: (joinComma (members.map fun m =>
      stringify m.1 ++ 0x3A :: stringifyTree (m.2.map unsignedScalar)) ++ [0x7D]) = _
    rw [List.map_congr_left hmembers, ← stringifyMembers_eq, ← stringifyTree]

theorem stringifyTree_eq_iff {value other : Value} (h : IsJson value) (h' : IsJson other) :
    stringifyTree value = stringifyTree other ↔
      value.map unsignedScalar = other.map unsignedScalar := by
  have hread : ∀ t : Value, IsJson t →
      (t.map Primitive.toScalar).map Scalar.toPrimitive = t.map unsignedScalar := by
    intro t ht
    rw [JsonTree.map_map]
    exact JsonTree.map_congr (ht.imp (fun _ hkeys => hkeys) fun _ hx => toPrimitive_toScalar hx)
  constructor
  · intro htext
    have hparse := parse_stringifyTree h
    rw [htext, parse_stringifyTree h', Option.some.injEq] at hparse
    rw [← hread value h, ← hread other h', hparse]
  · intro hvalue
    rw [← stringifyTree_unsigned value, hvalue, stringifyTree_unsigned]

/-! ## The order in the text -/

theorem ascends_iff {value : Value} (h : IsJson value) :
    (sortJsonValue value).Everywhere (·.Pairwise (· < ·)) (fun _ => True) ↔
      value.Everywhere InOrder fun _ => True := by
  induction value using JsonTree.induction_tree with
  | leaf x => rw [sortJsonValue, JsonTree.everywhere_leaf, JsonTree.everywhere_leaf]
  | array items ih =>
    rw [sortJsonValue, sortJsonItems_eq, JsonTree.everywhere_array, JsonTree.everywhere_array,
      List.forall_mem_map]
    exact forall₂_congr fun item hitem => ih item hitem (JsonTree.everywhere_array.mp h item hitem)
  | object members ih =>
    obtain ⟨hkeys, hmembers⟩ := JsonTree.everywhere_object.mp h
    have horder := fromEntries_sortMembers_pairwise (nodup_sortJsonMembers hkeys)
    have hinner : (∀ m ∈ fromEntries (sortMembers (sortJsonMembers members)),
          m.2.Everywhere (·.Pairwise (· < ·)) fun _ => True) ↔
        ∀ m ∈ members, m.2.Everywhere InOrder fun _ => True := by
      constructor
      · intro hsorted m hm
        exact (ih m hm (hmembers m hm)).mp (hsorted _ ((mem_sorted hkeys).mpr ⟨m, hm, rfl⟩))
      · intro hall m hm
        obtain ⟨n, hn, rfl⟩ := (mem_sorted hkeys).mp hm
        exact (ih n hn (hmembers n hn)).mpr (hall n hn)
    rw [sortJsonMembers_eq, JsonTree.map_keys, ← sortJsonMembers_eq] at horder
    rw [sortJsonValue, JsonTree.everywhere_object, JsonTree.everywhere_object, horder, hinner]

theorem membersAscend_iff {value : Value} (h : IsJson value) :
    MembersAscend (stringifyTree (sortJsonValue value)) ↔
      value.Everywhere InOrder fun _ => True := by
  have hparse := parse_stringifyTree (isJson_sortJsonValue h)
  have htree : MembersAscend (stringifyTree (sortJsonValue value)) ↔
      ((sortJsonValue value).map Primitive.toScalar).Everywhere (·.Pairwise (· < ·)) fun _ =>
        True := by
    rw [MembersAscend, hparse]
    exact ⟨fun ⟨_, htree, hall⟩ => Option.some.inj htree ▸ hall, fun hall => ⟨_, rfl, hall⟩⟩
  rw [htree, JsonTree.everywhere_map, ascends_iff h]

/-! ## Canonical texts -/

theorem canonicalizeSortedJson_tells (value other : JsonValue) :
    canonicalizeSortedJson value.value = canonicalizeSortedJson other.value ↔
      SameJson value.value other.value := by
  rw [canonicalizeSortedJson_ok value.isJson, canonicalizeSortedJson_ok other.isJson,
    Except.ok.injEq, stringifyTree_eq_iff (isJson_sortJsonValue value.isJson)
      (isJson_sortJsonValue other.isJson), sameJson_iff value.isJson other.isJson]
  rfl

-- A text is canonical exactly when no object has a key that is enumerated before a smaller one.
theorem canonicalizeSortedJson_iff (value other : JsonValue) :
    Canonical value other ↔ value.value.Everywhere InOrder fun _ => True := by
  have hok := canonicalizeSortedJson_ok value.isJson
  rw [← membersAscend_iff value.isJson]
  constructor
  · rintro ⟨-, text, htext, hascend⟩
    rw [hok, Except.ok.injEq] at htext
    rw [htext]
    exact hascend
  · intro hascend
    exact ⟨canonicalizeSortedJson_tells value other, _, hok, hascend⟩

/-- `{"9":null,"10":null}`, in whatever order the members came. -/
def nineAndTen : JsonValue where
  value := .object [(js "9", .leaf .null), (js "10", .leaf .null)]
  isJson := .object _ (by decide) fun m hm => by
    rcases List.mem_cons.mp hm with rfl | hm
    · exact .leaf _ trivial
    · rw [List.mem_singleton.mp hm]
      exact .leaf _ trivial

-- The greater key is an array index that comes first.
theorem not_canonical_nineAndTen : ¬ Canonical nineAndTen nineAndTen := by
  rintro ⟨-, text, htext, hascend⟩
  rw [canonicalizeSortedJson_ok nineAndTen.isJson, Except.ok.injEq] at htext
  rw [← htext, membersAscend_iff nineAndTen.isJson, nineAndTen, JsonTree.everywhere_object] at hascend
  have horder := hascend.1 (js "10") (by decide) (js "9") (by decide) (by decide)
  exact absurd horder (by decide +kernel)

end Scripts
