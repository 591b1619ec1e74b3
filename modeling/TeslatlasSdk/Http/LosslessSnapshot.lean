import TeslatlasSdk.Http.JsonRequestSnapshot
import TeslatlasSdk.Json.Compact
import Mathlib.Data.Set.List

/-!
# Snapshots lose nothing

What the loops over properties accept is put in terms of the object; then the walk is followed along
the objects it is inside of.
-/

open Text Core Json

namespace Http

variable {n : Nat} {heap : Heap n} {copy : HeapValue n → Copying n JsonRequestSnapshot} {ref : Fin n}

/-- A data property and its copy. -/
def Copies (heap : Heap n) (copy : HeapValue n → Copying n JsonRequestSnapshot) (ref : Fin n)
    (key : PropertyKey) (child : JsonRequestSnapshot) : Prop :=
  ∃ value, (heap.objects ref).dataAt key = some value ∧ (copy value).result = .ok child

theorem copyProperty_ok {key : PropertyKey} {child : JsonRequestSnapshot} :
    (copyProperty heap copy ref key).result = .ok child ↔ Copies heap copy ref key child := by
  have hdata : ∀ value, (heap.objects ref).dataAt key = some value ↔
      (heap.objects ref).descriptor? key = some (.data value true) := fun _ =>
    HeapObject.dataAt_eq_some
  rw [copyProperty, Copying.bind_eq_ok, Copies]
  simp only [hdata]
  constructor
  · rintro ⟨d, hd, h⟩
    obtain rfl := Except.ok.inj hd
    split at h
    · next value hvalue => exact ⟨value, hvalue, h⟩
    · cases h
  · rintro ⟨value, hvalue, h⟩
    refine ⟨_, rfl, ?_⟩
    simp only [hvalue]
    exact h

/-! ## Arrays -/

theorem lengthKey_ne_decimal (i : Nat) : lengthKey ≠ .string (decimal i) := by
  intro h
  have hl : (0x6C : CodeUnit) ∈ decimal i := by
    rw [← PropertyKey.string.inj h]
    decide
  exact absurd (isDigit_decimal i _ hl) (by decide)

theorem itemIndex_eq_some {length i : Nat} {key : PropertyKey} :
    itemIndex length key = some i ↔ key = .string (decimal i) ∧ i < length := by
  cases key with
  | symbol identity => simp [itemIndex]
  | string name =>
    simp only [itemIndex, PropertyKey.string.injEq]
    constructor
    · intro h
      split at h
      · next hname =>
        obtain rfl := Option.some.inj h
        exact ⟨hname.1.symm, hname.2⟩
      · cases h
    · rintro ⟨rfl, hi⟩
      rw [digitsValue_decimal, if_pos ⟨rfl, hi⟩]

/-- Copies of items under their indices. -/
def CopiesItems (heap : Heap n) (copy : HeapValue n → Copying n JsonRequestSnapshot) (ref : Fin n)
    (length : Nat) (items : List (Nat × JsonRequestSnapshot)) : Prop :=
  ∀ item ∈ items, item.1 < length ∧ Copies heap copy ref (.string (decimal item.1)) item.2

def assignAll (children : List (Option JsonRequestSnapshot))
    (items : List (Nat × JsonRequestSnapshot)) : List (Option JsonRequestSnapshot) :=
  items.foldl (fun children item => assign children item.1 item.2) children

theorem copyItems_ok {length : Nat} {children out : List (Option JsonRequestSnapshot)}
    {keys : List PropertyKey} :
    (copyItems heap copy ref length children keys).result = .ok out ↔
      ∃ items, keys.filter (· ≠ lengthKey) = items.map (fun item => .string (decimal item.1)) ∧
        CopiesItems heap copy ref length items ∧ out = assignAll children items := by
  induction keys generalizing children with
  | nil =>
    constructor
    · intro h
      refine ⟨[], rfl, ?_, (Except.ok.inj h).symm⟩
      intro item hitem
      cases hitem
    · rintro ⟨items, hkeys, -, rfl⟩
      rw [List.filter_nil, eq_comm, List.map_eq_nil_iff] at hkeys
      rw [hkeys]
      rfl
  | cons key keys ih =>
    rw [copyItems]
    by_cases hlength : key = lengthKey
    · rw [if_pos hlength, ih, List.filter_cons_of_neg (by simp [hlength])]
    · rw [if_neg hlength, List.filter_cons_of_pos (by simp [hlength])]
      constructor
      · intro h
        split at h
        · cases h
        · next index hindex =>
          obtain ⟨hkey, hlt⟩ := itemIndex_eq_some.mp hindex
          obtain ⟨child, hchild, h⟩ := Copying.bind_eq_ok.mp h
          obtain ⟨items, hkeys, hitems, rfl⟩ := ih.mp h
          refine ⟨(index, child) :: items, by rw [hkeys, List.map_cons, ← hkey], ?_, rfl⟩
          intro item hitem
          rcases List.mem_cons.mp hitem with rfl | hitem
          · exact ⟨hlt, hkey ▸ copyProperty_ok.mp hchild⟩
          · exact hitems item hitem
      · rintro ⟨items, hkeys, hitems, rfl⟩
        cases items with
        | nil => cases hkeys
        | cons item items =>
          rw [List.map_cons, List.cons.injEq] at hkeys
          obtain ⟨hkey, hkeys⟩ := hkeys
          obtain ⟨hlt, hcopies⟩ := hitems item List.mem_cons_self
          rw [itemIndex_eq_some.mpr ⟨hkey, hlt⟩]
          refine Copying.bind_eq_ok.mpr ⟨item.2, copyProperty_ok.mpr (hkey ▸ hcopies), ?_⟩
          exact ih.mpr ⟨items, hkeys, fun item' h => hitems item' (List.mem_cons_of_mem _ h), rfl⟩

-- Items in their order are put behind each other.
theorem assignAll_range (children : List (Option JsonRequestSnapshot))
    {items : List (Nat × JsonRequestSnapshot)}
    (hindices : items.map Prod.fst = List.range' children.length items.length) :
    assignAll children items = children ++ items.map fun item => some item.2 := by
  induction items generalizing children with
  | nil => simp [assignAll]
  | cons item items ih =>
    rw [List.map_cons, List.length_cons, List.range'_succ, List.cons.injEq] at hindices
    have hassign : assign children item.1 item.2 = children ++ [some item.2] := by
      have hone : item.1 + 1 - children.length = 1 := by omega
      rw [assign, hone, List.set_append_right _ _ (by omega), hindices.1, Nat.sub_self]
      rfl
    have hrest := ih (children ++ [some item.2]) (by simpa using hindices.2)
    show assignAll (assign children item.1 item.2) items = _
    rw [hassign, hrest, List.append_assoc]
    rfl

theorem arrayIndex_decimal {i : Nat} (h : i < 2 ^ 32 - 1) : arrayIndex (decimal i) = some i := by
  rw [arrayIndex, digitsValue_decimal, if_pos ⟨rfl, h⟩]

-- The items of an array are listed in ascending order.
theorem pairwise_indices {obj : HeapObject n} {length : Nat} (hlength : length < 2 ^ 32)
    {indices : List Nat} (hlt : ∀ i ∈ indices, i < length)
    (hkeys : obj.ownKeys.filter (· ≠ lengthKey) = indices.map fun i => .string (decimal i)) :
    indices.Pairwise (· < ·) := by
  have hpairwise := obj.ordered.filter (· ≠ lengthKey)
  change (obj.ownKeys.filter _).Pairwise _ at hpairwise
  rw [hkeys, List.pairwise_map] at hpairwise
  refine hpairwise.imp_of_mem fun {i j} hi hj h => ?_
  have hi' := hlt i hi
  have hj' := hlt j hj
  rw [PropertyKey.mayPrecede, arrayIndex_decimal (by omega), arrayIndex_decimal (by omega)] at h
  simpa using h

theorem mem_indices {indices : List Nat} (hsorted : indices.Pairwise (· < ·))
    (hlt : ∀ i ∈ indices, i < indices.length) {i : Nat} (hi : i < indices.length) : i ∈ indices := by
  have hnodup : indices.Nodup := hsorted.imp fun h => Nat.ne_of_lt h
  have hsubset : indices.toFinset ⊆ Finset.range indices.length := by
    intro j hj
    exact Finset.mem_range.mpr (hlt j (List.mem_toFinset.mp hj))
  have hcard : indices.toFinset = Finset.range indices.length := by
    apply Finset.eq_of_subset_of_card_le hsubset
    rw [Finset.card_range, List.toFinset_card_of_nodup hnodup]
  exact List.mem_toFinset.mp (hcard ▸ Finset.mem_range.mpr hi)

theorem eq_range {indices : List Nat} {length : Nat} (hsorted : indices.Pairwise (· < ·))
    (hmem : ∀ i, i ∈ indices ↔ i < length) : indices = List.range length := by
  apply hsorted.eq_of_mem_iff List.pairwise_lt_range
  intro i
  rw [hmem, List.mem_range]

theorem length_filter_ne {keys : List PropertyKey} (hnodup : keys.Nodup) {key : PropertyKey}
    (hmem : key ∈ keys) : (keys.filter (· ≠ key)).length + 1 = keys.length := by
  have herase : keys.erase key = keys.filter (· ≠ key) := by
    rw [hnodup.erase_eq_filter]
    apply List.filter_congr
    intro k _
    rw [Bool.eq_iff_iff, bne_iff_ne, decide_eq_true_eq]
  have hpos := List.length_pos_of_mem hmem
  rw [← herase, List.length_erase_of_mem hmem]
  omega

/-- The object is a dense array, and the copies are those of its items. -/
structure ArrayCopy (heap : Heap n) (copy : HeapValue n → Copying n JsonRequestSnapshot)
    (ref : Fin n) (snapshots : List JsonRequestSnapshot) : Prop where
  prototype : (heap.objects ref).prototype = some heap.arrayPrototype
  length : ∃ x enumerable,
    (heap.objects ref).descriptor? lengthKey = some (.data (.number x) enumerable) ∧
      x.natural? = some snapshots.length
  keys : ∀ key, key ∈ (heap.objects ref).ownKeys ↔
    key = lengthKey ∨ ∃ i < snapshots.length, key = .string (decimal i)
  copies : ∀ i child, snapshots[i]? = some child → Copies heap copy ref (.string (decimal i)) child

def arraySnapshot (snapshots : List JsonRequestSnapshot) : JsonRequestSnapshot :=
  { value := .array (snapshots.map (·.value))
    body := 0x5B :: (joinComma (snapshots.map (·.body)) ++ [0x5D]) }

theorem values_some (snapshots : List JsonRequestSnapshot) :
    (snapshots.map some).filterMap (fun child => child.map (·.value)) =
      snapshots.map (·.value) := by
  rw [List.filterMap_map]
  exact congrFun List.filterMap_eq_map snapshots

theorem bodies_some (snapshots : List JsonRequestSnapshot) :
    (snapshots.map some).map (fun child => child.elim [] (·.body)) = snapshots.map (·.body) := by
  rw [List.map_map]
  rfl

theorem mem_ownKeys_of_descriptor? {obj : HeapObject n} {key : PropertyKey}
    {d : PropertyDescriptor n} (h : obj.descriptor? key = some d) : key ∈ obj.ownKeys :=
  List.mem_map.mpr ⟨_, obj.mem_of_descriptor? h, rfl⟩

-- The indices of a list of items that takes all the keys but the length.
theorem indices_eq_range {obj : HeapObject n} {length : Nat}
    (hbound : length < 2 ^ 32) (hlengthKey : lengthKey ∈ obj.ownKeys)
    (hcount : obj.ownKeys.length = length + 1) {items : List (Nat × JsonRequestSnapshot)}
    (hkeys : obj.ownKeys.filter (· ≠ lengthKey) =
      items.map fun item => .string (decimal item.1))
    (hlt : ∀ item ∈ items, item.1 < length) :
    items.length = length ∧ items.map Prod.fst = List.range length := by
  have hcounted := length_filter_ne obj.distinct hlengthKey
  change (obj.ownKeys.filter _).length + 1 = obj.ownKeys.length at hcounted
  rw [hkeys, List.length_map, hcount] at hcounted
  have hindices : obj.ownKeys.filter (· ≠ lengthKey) =
      (items.map Prod.fst).map fun i => .string (decimal i) := by
    rw [hkeys, List.map_map]
    rfl
  have hlt' : ∀ i ∈ items.map Prod.fst, i < length := by
    intro i hi
    obtain ⟨item, hitem, rfl⟩ := List.mem_map.mp hi
    exact hlt item hitem
  have hsorted := pairwise_indices hbound hlt' hindices
  refine ⟨by omega, eq_range hsorted fun i => ⟨hlt' i, fun hi => ?_⟩⟩
  have hlength : (items.map Prod.fst).length = length := by
    rw [List.length_map]
    omega
  rw [← hlength] at hlt' hi
  exact mem_indices hsorted hlt' hi

theorem copyJsonArray_ok (harray : (heap.objects ref).isArray = true) {s : JsonRequestSnapshot} :
    (copyJsonArray heap copy ref).result = .ok s ↔
      ∃ snapshots, ArrayCopy heap copy ref snapshots ∧ s = arraySnapshot snapshots := by
  rw [copyJsonArray, Copying.bind_eq_ok]
  constructor
  · rintro ⟨prototype, hprototype, h⟩
    obtain rfl := Except.ok.inj hprototype
    split at h
    · cases h
    next hprototype =>
    obtain ⟨d, hd, h⟩ := Copying.bind_eq_ok.mp h
    have hd := Except.ok.inj hd
    split at h
    · next x enumerable _ =>
      split at h
      · cases h
      next length hlength =>
      obtain ⟨keys, hkeys, h⟩ := Copying.bind_eq_ok.mp h
      obtain rfl := Except.ok.inj hkeys
      split at h
      · cases h
      next hcount =>
      obtain ⟨children, hchildren, h⟩ := Copying.bind_eq_ok.mp h
      obtain rfl := Except.ok.inj h
      obtain ⟨items, hkeys, hitems, rfl⟩ := copyItems_ok.mp hchildren
      have hbound := HeapObject.bounded harray hd hlength
      obtain ⟨hitemsLength, hindices⟩ := indices_eq_range hbound (mem_ownKeys_of_descriptor? hd)
        (not_not.mp hcount) hkeys fun item h => (hitems item h).1
      have hrange : items.map Prod.fst = List.range' 0 items.length := by
        rw [hindices, hitemsLength, List.range_eq_range']
      refine ⟨items.map Prod.snd, ⟨not_not.mp hprototype, ⟨x, enumerable, hd, ?_⟩, ?_, ?_⟩, ?_⟩
      · rw [List.length_map, hitemsLength]
        exact hlength
      · intro key
        have hfilter : key ∈ (heap.objects ref).ownKeys.filter (· ≠ lengthKey) ↔
            ∃ i < length, key = .string (decimal i) := by
          have hmap : items.map (fun item => PropertyKey.string (decimal item.1)) =
              (List.range length).map fun i => .string (decimal i) := by
            rw [← hindices, List.map_map]
            rfl
          rw [hkeys, hmap, List.mem_map]
          simp only [List.mem_range, eq_comm]
        rw [List.length_map, hitemsLength, ← hfilter, List.mem_filter, decide_eq_true_eq]
        by_cases hkey : key = lengthKey
        · simp [hkey, mem_ownKeys_of_descriptor? hd]
        · simp [hkey]
      · intro i child hchild
        rw [List.getElem?_map, Option.map_eq_some_iff] at hchild
        obtain ⟨item, hitem, rfl⟩ := hchild
        have hi : item.1 = i := by
          have hget : (items.map Prod.fst)[i]? = some item.1 := by
            rw [List.getElem?_map, hitem]
            rfl
          rw [hindices, List.getElem?_range (by
            rw [← hitemsLength]
            exact (List.getElem?_eq_some_iff.mp hitem).1), Option.some.injEq] at hget
          exact hget.symm
        rw [← hi]
        exact (hitems item (List.mem_of_getElem? hitem)).2
      · have hsome : items.map (fun item => some item.2) = (items.map Prod.snd).map some := by
          rw [List.map_map]
          rfl
        rw [assignAll_range [] hrange, List.nil_append, hsome, values_some,
          bodies_some, arraySnapshot]
    · cases h
  · rintro ⟨snapshots, hcopy, rfl⟩
    obtain ⟨x, enumerable, hd, hlength⟩ := hcopy.length
    have hbound := HeapObject.bounded harray hd hlength
    have hlengthKey := mem_ownKeys_of_descriptor? hd
    have hdecimals : ∀ key ∈ (heap.objects ref).ownKeys.filter (· ≠ lengthKey),
        ∃ i, PropertyKey.string (decimal i) = key := by
      intro key hkey
      rw [List.mem_filter, decide_eq_true_eq, hcopy.keys] at hkey
      obtain ⟨i, -, rfl⟩ := hkey.1.resolve_left hkey.2
      exact ⟨i, rfl⟩
    obtain ⟨indices, hindices⟩ : (heap.objects ref).ownKeys.filter (· ≠ lengthKey) ∈
        Set.range (List.map fun i => PropertyKey.string (decimal i)) := by
      rw [Set.range_list_map]
      exact hdecimals
    have hmem : ∀ i, i ∈ indices ↔ i < snapshots.length := by
      intro i
      have hkey : PropertyKey.string (decimal i) ∈
            (heap.objects ref).ownKeys.filter (· ≠ lengthKey) ↔ i < snapshots.length := by
        rw [List.mem_filter, decide_eq_true_eq, hcopy.keys]
        constructor
        · rintro ⟨hlengthKey | ⟨j, hj, heq⟩, hne⟩
          · exact absurd hlengthKey hne
          · rw [decimal_injective (PropertyKey.string.inj heq)]
            exact hj
        · exact fun hi => ⟨.inr ⟨i, hi, rfl⟩, (lengthKey_ne_decimal i).symm⟩
      rw [← hkey, ← hindices, List.mem_map]
      constructor
      · exact fun hi => ⟨i, hi, rfl⟩
      · rintro ⟨j, hj, heq⟩
        rw [← decimal_injective (PropertyKey.string.inj heq)]
        exact hj
    have hrange : indices = List.range snapshots.length :=
      eq_range (pairwise_indices hbound (fun i hi => (hmem i).mp hi) hindices.symm) hmem
    have hcount : (heap.objects ref).ownKeys.length = snapshots.length + 1 := by
      have hcounted := length_filter_ne (heap.objects ref).distinct hlengthKey
      change ((heap.objects ref).ownKeys.filter _).length + 1 = _ at hcounted
      rw [← hindices, List.length_map, hrange, List.length_range] at hcounted
      exact hcounted.symm
    have hfst : ((List.range snapshots.length).zip snapshots).map Prod.fst =
        List.range snapshots.length := List.map_fst_zip (by simp)
    have hsnd : ((List.range snapshots.length).zip snapshots).map Prod.snd = snapshots :=
      List.map_snd_zip (by simp)
    have hitems : (copyItems heap copy ref snapshots.length [] (heap.objects ref).ownKeys).result =
        .ok (snapshots.map some) := by
      refine copyItems_ok.mpr ⟨(List.range snapshots.length).zip snapshots, ?_, ?_, ?_⟩
      · rw [← hindices, hrange, ← hfst, List.map_map, hfst]
        rfl
      · intro item hitem
        obtain ⟨i, hi⟩ := List.mem_iff_getElem?.mp hitem
        obtain ⟨hindex, hchild⟩ := List.getElem?_zip_eq_some.mp hi
        have hlt := List.mem_range.mp (List.mem_of_getElem? hindex)
        have hi' : item.1 = i := by
          obtain ⟨hle, hget⟩ := List.getElem?_eq_some_iff.mp hindex
          rw [List.getElem_range] at hget
          exact hget.symm
        exact ⟨hlt, hi' ▸ hcopy.copies i item.2 hchild⟩
      · have hzip : ((List.range snapshots.length).zip snapshots).length = snapshots.length := by
          simp
        have hindexed : ((List.range snapshots.length).zip snapshots).map Prod.fst =
            List.range' 0 ((List.range snapshots.length).zip snapshots).length := by
          rw [hfst, hzip, List.range_eq_range']
        rw [assignAll_range [] hindexed, List.nil_append]
        nth_rewrite 1 [← hsnd]
        rw [List.map_map]
        rfl
    refine ⟨_, rfl, ?_⟩
    rw [if_neg (not_not.mpr hcopy.prototype)]
    refine Copying.bind_eq_ok.mpr ⟨_, congrArg Except.ok hd, ?_⟩
    simp only [hlength]
    refine Copying.bind_eq_ok.mpr ⟨_, rfl, ?_⟩
    rw [if_neg (not_not.mpr hcount)]
    refine Copying.bind_eq_ok.mpr ⟨_, hitems, ?_⟩
    rw [values_some, bodies_some]
    rfl

/-! ## Objects -/

/-- `${JSON.stringify(key)}:${child.body}`. -/
def memberText (part : JsString × JsonRequestSnapshot) : JsString :=
  stringify part.1 ++ 0x3A :: part.2.body

/-- The members are defined in turn. -/
def defineAll (copied : List (JsString × Value)) (parts : List (JsString × JsonRequestSnapshot)) :
    List (JsString × Value) :=
  parts.foldl (fun copied part => defineMember part.1 part.2.value copied) copied

theorem copyMembers_ok {copied : List (JsString × Value)} {members : List JsString}
    {keys : List PropertyKey} {s : JsonRequestSnapshot} :
    (copyMembers heap copy ref copied members keys).result = .ok s ↔
      ∃ parts : List (JsString × JsonRequestSnapshot), keys = parts.map (fun part => .string part.1) ∧
        (∀ part ∈ parts, Copies heap copy ref (.string part.1) part.2) ∧
        s = { value := .object (defineAll copied parts)
              body := 0x7B :: (joinComma (members ++ parts.map memberText) ++ [0x7D]) } := by
  induction keys generalizing copied members with
  | nil =>
    constructor
    · intro h
      refine ⟨[], rfl, ?_, ?_⟩
      · intro part hpart
        cases hpart
      · rw [List.map_nil, List.append_nil]
        exact (Except.ok.inj h).symm
    · rintro ⟨parts, hkeys, -, rfl⟩
      rw [eq_comm, List.map_eq_nil_iff] at hkeys
      rw [hkeys, List.map_nil, List.append_nil]
      rfl
  | cons key keys ih =>
    constructor
    · intro h
      cases key with
      | symbol identity => cases h
      | string name =>
        obtain ⟨child, hchild, h⟩ := Copying.bind_eq_ok.mp h
        obtain ⟨parts, hkeys, hparts, rfl⟩ := ih.mp h
        refine ⟨(name, child) :: parts, by rw [hkeys, List.map_cons], ?_, ?_⟩
        · intro part hpart
          rcases List.mem_cons.mp hpart with rfl | hpart
          · exact copyProperty_ok.mp hchild
          · exact hparts part hpart
        · rw [List.append_assoc]
          rfl
    · rintro ⟨parts, hkeys, hparts, rfl⟩
      cases parts with
      | nil => cases hkeys
      | cons part parts =>
        rw [List.map_cons, List.cons.injEq] at hkeys
        obtain ⟨rfl, hkeys⟩ := hkeys
        refine Copying.bind_eq_ok.mpr ⟨part.2, copyProperty_ok.mpr (hparts part List.mem_cons_self), ?_⟩
        refine ih.mpr ⟨parts, hkeys, fun part' h => hparts part' (List.mem_cons_of_mem _ h), ?_⟩
        rw [List.append_assoc]
        rfl

theorem precedes_of_mayPrecede {first key : JsString}
    (h : PropertyKey.mayPrecede (.string first) (.string key) = true) :
    precedes key first = false := by
  rw [PropertyKey.mayPrecede] at h
  rw [precedes]
  cases hkey : arrayIndex key with
  | none => rfl
  | some i =>
    cases hfirst : arrayIndex first with
    | none => simp [hkey, hfirst] at h
    | some j =>
      simp only [hkey, hfirst, decide_eq_true_eq] at h
      simpa using Nat.le_of_lt h

theorem insertMember_last {key : JsString} (value : Value) {members : List (JsString × Value)}
    (h : ∀ m ∈ members, precedes key m.1 = false) :
    insertMember key value members = members ++ [(key, value)] := by
  induction members with
  | nil => rfl
  | cons m members ih =>
    rw [insertMember, h m List.mem_cons_self]
    simp only [Bool.false_eq_true, if_false, List.cons_append]
    rw [ih fun m' hm' => h m' (List.mem_cons_of_mem m hm')]

-- Members in the order of own keys stay in that order.
theorem defineAll_ordered {copied : List (JsString × Value)}
    {parts : List (JsString × JsonRequestSnapshot)}
    (hdistinct : (copied.map Prod.fst ++ parts.map Prod.fst).Nodup)
    (hordered : (copied.map Prod.fst ++ parts.map Prod.fst).Pairwise fun first key =>
      PropertyKey.mayPrecede (.string first) (.string key) = true) :
    defineAll copied parts = copied ++ parts.map fun part => (part.1, part.2.value) := by
  induction parts generalizing copied with
  | nil => simp [defineAll]
  | cons part parts ih =>
    rw [List.map_cons] at hdistinct hordered
    have hnew : part.1 ∉ copied.map Prod.fst := fun hmem =>
      (List.nodup_append.mp hdistinct).2.2 _ hmem _ List.mem_cons_self rfl
    have hlast : defineMember part.1 part.2.value copied = copied ++ [(part.1, part.2.value)] := by
      rw [defineMember, if_neg hnew]
      apply insertMember_last
      intro m hm
      apply precedes_of_mayPrecede
      exact (List.pairwise_append.mp hordered).2.2 m.1 (List.mem_map.mpr ⟨m, hm, rfl⟩) part.1
        List.mem_cons_self
    have hkeys : (copied ++ [(part.1, part.2.value)]).map Prod.fst ++ parts.map Prod.fst =
        copied.map Prod.fst ++ part.1 :: parts.map Prod.fst := by simp
    show defineAll (defineMember part.1 part.2.value copied) parts = _
    rw [hlast, ih (hkeys ▸ hdistinct) (hkeys ▸ hordered), List.append_assoc]
    rfl

/-- The object is plain, and the copies are those of its members. -/
structure ObjectCopy (heap : Heap n) (copy : HeapValue n → Copying n JsonRequestSnapshot)
    (ref : Fin n) (parts : List (JsString × JsonRequestSnapshot)) : Prop where
  prototype : (heap.objects ref).prototype = some heap.objectPrototype ∨
    (heap.objects ref).prototype = none
  keys : (heap.objects ref).ownKeys = parts.map fun part => .string part.1
  copies : ∀ part ∈ parts, Copies heap copy ref (.string part.1) part.2

def objectSnapshot (parts : List (JsString × JsonRequestSnapshot)) : JsonRequestSnapshot :=
  { value := .object (defineAll [] parts)
    body := 0x7B :: (joinComma (parts.map memberText) ++ [0x7D]) }

theorem copyJsonObject_ok {s : JsonRequestSnapshot} :
    (copyJsonObject heap copy ref).result = .ok s ↔
      ∃ parts, ObjectCopy heap copy ref parts ∧ s = objectSnapshot parts := by
  rw [copyJsonObject, Copying.bind_eq_ok]
  constructor
  · rintro ⟨prototype, hprototype, h⟩
    obtain rfl := Except.ok.inj hprototype
    split at h
    · cases h
    next hplain =>
    obtain ⟨keys, hkeys, h⟩ := Copying.bind_eq_ok.mp h
    obtain rfl := Except.ok.inj hkeys
    obtain ⟨parts, hkeys, hparts, rfl⟩ := copyMembers_ok.mp h
    refine ⟨parts, ⟨?_, hkeys, hparts⟩, rfl⟩
    by_contra hnot
    rw [not_or] at hnot
    exact hplain hnot
  · rintro ⟨parts, hcopy, rfl⟩
    refine ⟨_, rfl, ?_⟩
    have hplain : ¬ ((heap.objects ref).prototype ≠ some heap.objectPrototype ∧
        (heap.objects ref).prototype ≠ none) := by
      rintro ⟨hne, hnone⟩
      exact hcopy.prototype.elim hne hnone
    rw [if_neg hplain]
    refine Copying.bind_eq_ok.mpr ⟨_, rfl, ?_⟩
    exact copyMembers_ok.mpr ⟨parts, hcopy.keys, hcopy.copies, rfl⟩

/-! ## Along the ancestors -/

/-- What must hold of a value inside of the given objects. -/
structure Clean (heap : Heap n) (ancestors : Finset (Fin n)) (value : HeapValue n) : Prop where
  plain : ∀ w, Reaches heap value w → Plain heap w
  outside : ∀ r, Reaches heap value (.object r) → r ∉ ancestors
  acyclic : ∀ r, Reaches heap value (.object r) →
    ¬ ∃ w, Holds heap (.object r) w ∧ Reaches heap w (.object r)

theorem Clean.child {ancestors : Finset (Fin n)} (h : Clean heap ancestors (.object ref))
    {w : HeapValue n} (hw : Holds heap (.object ref) w) : Clean heap (insert ref ancestors) w where
  plain := fun w' hw' => h.plain w' (.head hw hw')
  outside := by
    intro r hr hmem
    rcases Finset.mem_insert.mp hmem with rfl | hmem
    · exact h.acyclic r .refl ⟨w, hw, hr⟩
    · exact h.outside r (.head hw hr) hmem
  acyclic := fun r hr => h.acyclic r (.head hw hr)

theorem Clean.object {ancestors : Finset (Fin n)} (hplain : Plain heap (.object ref))
    (hnew : ref ∉ ancestors)
    (hchildren : ∀ w, Holds heap (.object ref) w → Clean heap (insert ref ancestors) w) :
    Clean heap ancestors (.object ref) where
  plain := by
    intro w hw
    rcases hw.cases_head with rfl | ⟨child, hchild, hw⟩
    · exact hplain
    · exact (hchildren child hchild).plain w hw
  outside := by
    intro r hr
    rcases hr.cases_head with heq | ⟨child, hchild, hr⟩
    · rw [← HeapValue.object.inj heq]
      exact hnew
    · exact fun hmem => (hchildren child hchild).outside r hr (Finset.mem_insert_of_mem hmem)
  acyclic := by
    intro r hr
    rcases hr.cases_head with heq | ⟨child, hchild, hr⟩
    · rw [← HeapValue.object.inj heq]
      rintro ⟨w, hw, hback⟩
      exact (hchildren w hw).outside ref hback (Finset.mem_insert_self _ _)
    · exact (hchildren child hchild).acyclic r hr

-- A value without properties.
theorem Clean.scalar {ancestors : Finset (Fin n)} {value : HeapValue n} (hplain : Plain heap value)
    (hscalar : ∀ r, value ≠ .object r) : Clean heap ancestors value := by
  have hself : ∀ w, Reaches heap value w → w = value := by
    intro w hw
    rcases hw.cases_head with rfl | ⟨child, ⟨r, key, hr, -⟩, -⟩
    · rfl
    · exact absurd hr (hscalar r)
  exact ⟨fun w hw => hself w hw ▸ hplain, fun r hr => absurd (hself _ hr).symm (hscalar r),
    fun r hr => absurd (hself _ hr).symm (hscalar r)⟩

/-! ## The text is read as the value -/

/-- The text is that of a tree, and the value is the tree's but for the signs of zeros. -/
def Spells (text : JsString) (value : Value) (tree : JsonTree Scalar) : Prop :=
  Lexes text (treeTokens tree) ∧ tree.settle.map Scalar.toPrimitive = value.map unsignedScalar

def Written (s : JsonRequestSnapshot) : Prop := ∃ tree, Spells s.body s.value tree

theorem Written.jsonParse {s : JsonRequestSnapshot} (h : Written s) :
    jsonParse s.body = some (s.value.map unsignedScalar) := by
  obtain ⟨tree, hlexes, hvalue⟩ := h
  rw [Json.jsonParse, parse_of_lexes hlexes, ← hvalue]
  rfl

theorem exists_forall₂ {α β : Type} {R : α → β → Prop} {xs : List α} (h : ∀ x ∈ xs, ∃ y, R x y) :
    ∃ ys, List.Forall₂ R xs ys := by
  induction xs with
  | nil => exact ⟨[], .nil⟩
  | cons x xs ih =>
    obtain ⟨y, hy⟩ := h x List.mem_cons_self
    obtain ⟨ys, hys⟩ := ih fun x' hx' => h x' (List.mem_cons_of_mem x hx')
    exact ⟨y :: ys, .cons hy hys⟩

theorem itemTokens_eq (items : List (JsonTree Scalar)) : itemTokens items = items.map treeTokens := by
  induction items with
  | nil => rfl
  | cons item items ih => rw [itemTokens, ih, List.map_cons]

theorem written_arraySnapshot {snapshots : List JsonRequestSnapshot}
    (h : ∀ s ∈ snapshots, Written s) : Written (arraySnapshot snapshots) := by
  obtain ⟨trees, htrees⟩ := exists_forall₂ h
  refine ⟨.array trees, ?_, ?_⟩
  · have hlexes : List.Forall₂ Lexes (snapshots.map (·.body)) (trees.map treeTokens) := by
      rw [List.forall₂_map_left_iff, List.forall₂_map_right_iff]
      exact htrees.imp fun _ _ hst => hst.1
    rw [arraySnapshot, treeTokens, itemTokens_eq]
    exact Lexes.punctuation rfl rfl
      (Lexes.joined (EndsNumber.cons rfl _) (Lexes.punctuation rfl rfl Lexes.nil) hlexes)
  · rw [arraySnapshot, JsonTree.settle, JsonTree.map, JsonTree.map, JsonTree.settleItems_eq,
      JsonTree.mapItems_eq, JsonTree.mapItems_eq]
    congr 1
    clear h
    induction htrees with
    | nil => rfl
    | cons hst _ ih =>
      simp only [List.map_cons]
      rw [hst.2, ih]

theorem memberTokens_eq (members : List (JsString × JsonTree Scalar)) :
    memberTokens members =
      members.map fun m => .scalar (.string m.1) :: .colon :: treeTokens m.2 := by
  induction members with
  | nil => rfl
  | cons m members ih => rw [memberTokens, ih, List.map_cons]

/-- A part and the member that its text spells. -/
def SpellsMember (part : JsString × JsonRequestSnapshot) (m : JsString × JsonTree Scalar) : Prop :=
  part.1 = m.1 ∧ Spells part.2.body part.2.value m.2

-- Members are defined in the same way when a text is read.
theorem settleMembers_defineAll {parts : List (JsString × JsonRequestSnapshot)}
    {members : List (JsString × JsonTree Scalar)} (h : List.Forall₂ SpellsMember parts members)
    {done : List (JsString × JsonTree Scalar)} {copied : List (JsString × Value)}
    (hdone : JsonTree.mapMembers Scalar.toPrimitive done =
      JsonTree.mapMembers unsignedScalar copied) :
    JsonTree.mapMembers Scalar.toPrimitive (JsonTree.settleMembers done members) =
      JsonTree.mapMembers unsignedScalar (defineAll copied parts) := by
  induction h generalizing done copied with
  | nil => exact hdone
  | @cons part m parts members hpart _ ih =>
    obtain ⟨key, tree⟩ := m
    obtain ⟨hkey, -, hvalue⟩ := hpart
    rw [JsonTree.settleMembers]
    show _ = JsonTree.mapMembers unsignedScalar
      (defineAll (defineMember part.1 part.2.value copied) parts)
    apply ih
    rw [JsonTree.mapMembers_eq, JsonTree.mapMembers_eq] at hdone ⊢
    rw [JsonTree.defineMember_map, JsonTree.defineMember_map, hdone, hvalue, hkey]

theorem written_objectSnapshot {parts : List (JsString × JsonRequestSnapshot)}
    (h : ∀ part ∈ parts, Written part.2) : Written (objectSnapshot parts) := by
  have hmember : ∀ part ∈ parts, ∃ m, SpellsMember part m := by
    intro part hpart
    obtain ⟨tree, htree⟩ := h part hpart
    exact ⟨(part.1, tree), rfl, htree⟩
  obtain ⟨members, hmembers⟩ := exists_forall₂ hmember
  refine ⟨.object members, ?_, ?_⟩
  · have hlexes : List.Forall₂ Lexes (parts.map memberText)
        (members.map fun m => .scalar (.string m.1) :: .colon :: treeTokens m.2) := by
      rw [List.forall₂_map_left_iff, List.forall₂_map_right_iff]
      refine hmembers.imp fun part m hm => ?_
      rw [memberText, hm.1]
      exact (Lexes.string m.1).append (EndsNumber.cons rfl _) (Lexes.punctuation rfl rfl hm.2.1)
    rw [objectSnapshot, treeTokens, memberTokens_eq]
    exact Lexes.punctuation rfl rfl
      (Lexes.joined (EndsNumber.cons rfl _) (Lexes.punctuation rfl rfl Lexes.nil) hlexes)
  · have hempty : JsonTree.mapMembers Scalar.toPrimitive [] =
        JsonTree.mapMembers unsignedScalar [] := rfl
    rw [objectSnapshot, JsonTree.settle, JsonTree.map, JsonTree.map,
      settleMembers_defineAll hmembers hempty]

/-! ## The copy is the value -/

theorem ArrayCopy.represents {snapshots : List JsonRequestSnapshot}
    (harray : (heap.objects ref).isArray = true) (h : ArrayCopy heap copy ref snapshots)
    (hcopy : ∀ value child, (copy value).result = .ok child → Represents heap value child.value) :
    Represents heap (.object ref) (arraySnapshot snapshots).value := by
  have hcopies : ∀ i (hi : i < snapshots.length),
      Copies heap copy ref (.string (decimal i)) snapshots[i] := fun i hi =>
    h.copies i _ (List.getElem?_eq_getElem hi)
  refine .array ref ((List.range snapshots.length).map fun i =>
    ((heap.objects ref).dataAt (.string (decimal i))).getD .undefined) _ harray ?_ ?_
  · intro i
    rw [List.getElem?_map]
    by_cases hi : i < snapshots.length
    · obtain ⟨value, hvalue, -⟩ := hcopies i hi
      rw [List.getElem?_range hi, Option.map_some, hvalue]
      rfl
    · rw [List.getElem?_eq_none (by simpa using hi), Option.map_none,
        Option.eq_none_iff_forall_ne_some]
      intro value hvalue
      have hkey := mem_ownKeys_of_descriptor? (HeapObject.dataAt_eq_some.mp hvalue)
      rcases (h.keys _).mp hkey with hlength | ⟨j, hj, heq⟩
      · exact lengthKey_ne_decimal i hlength.symm
      · rw [decimal_injective (PropertyKey.string.inj heq)] at hi
        exact hi hj
  · rw [List.forall₂_iff_get]
    refine ⟨by simp, fun i hi hi' => ?_⟩
    have hlt : i < snapshots.length := by simpa using hi
    obtain ⟨value, hvalue, hchild⟩ := hcopies i hlt
    simp only [List.get_eq_getElem, List.getElem_map, List.getElem_range, hvalue, Option.getD_some]
    exact hcopy value _ hchild

theorem ObjectCopy.represents {parts : List (JsString × JsonRequestSnapshot)}
    (hplain : (heap.objects ref).isArray = false) (h : ObjectCopy heap copy ref parts)
    (hcopy : ∀ value child, (copy value).result = .ok child → Represents heap value child.value) :
    Represents heap (.object ref) (objectSnapshot parts).value := by
  have hdistinct : (parts.map fun part => PropertyKey.string part.1).Nodup :=
    h.keys ▸ (heap.objects ref).distinct
  have hordered := (heap.objects ref).ordered
  change (heap.objects ref).ownKeys.Pairwise _ at hordered
  rw [h.keys, List.pairwise_map] at hordered
  have hnames : (parts.map Prod.fst).Nodup := by
    refine List.Nodup.of_map PropertyKey.string ?_
    rw [List.map_map]
    exact hdistinct
  have hmembers : defineAll [] parts =
      (parts.map Prod.fst).zip (parts.map fun part => part.2.value) := by
    rw [defineAll_ordered (by simpa using hnames) (by simpa [List.pairwise_map] using hordered),
      List.nil_append, List.zip_map']
  rw [objectSnapshot, hmembers]
  refine .object ref _ (parts.map fun part =>
    ((heap.objects ref).dataAt (.string part.1)).getD .undefined) _ hplain ?_ ?_ ?_
  · rw [h.keys, List.map_map]
    rfl
  · rw [List.forall₂_map_left_iff, List.forall₂_map_right_iff, List.forall₂_same]
    intro part hpart
    obtain ⟨value, hvalue, -⟩ := h.copies part hpart
    rw [hvalue]
    rfl
  · rw [List.forall₂_map_left_iff, List.forall₂_map_right_iff, List.forall₂_same]
    intro part hpart
    obtain ⟨value, hvalue, hchild⟩ := h.copies part hpart
    rw [hvalue]
    exact hcopy value _ hchild

theorem ArrayCopy.plain {snapshots : List JsonRequestSnapshot}
    (harray : (heap.objects ref).isArray = true) (h : ArrayCopy heap copy ref snapshots) :
    PlainArray heap (heap.objects ref) := by
  obtain ⟨x, enumerable, hd, hlength⟩ := h.length
  refine ⟨harray, h.prototype, x, enumerable, snapshots.length, hd, hlength, h.keys, ?_⟩
  intro i hi
  obtain ⟨value, hvalue, -⟩ := h.copies i _ (List.getElem?_eq_getElem hi)
  exact ⟨value, hvalue⟩

theorem ObjectCopy.plain {parts : List (JsString × JsonRequestSnapshot)}
    (hplain : (heap.objects ref).isArray = false) (h : ObjectCopy heap copy ref parts) :
    PlainObject heap (heap.objects ref) := by
  refine ⟨hplain, h.prototype, fun key hkey => ?_⟩
  rw [h.keys] at hkey
  obtain ⟨part, hpart, rfl⟩ := List.mem_map.mp hkey
  obtain ⟨value, hvalue, -⟩ := h.copies part hpart
  exact ⟨part.1, value, rfl, hvalue⟩

/-- Every data property has been copied. -/
def CopiesAll (heap : Heap n) (copy : HeapValue n → Copying n JsonRequestSnapshot)
    (ref : Fin n) : Prop :=
  ∀ w, Holds heap (.object ref) w → ∃ child, (copy w).result = .ok child

theorem copiesAll_of_dataAt (h : ∀ key value, (heap.objects ref).dataAt key = some value →
    ∃ child, Copies heap copy ref key child) : CopiesAll heap copy ref := by
  rintro w ⟨r, key, hr, hw⟩
  obtain rfl := HeapValue.object.inj hr
  obtain ⟨child, value, hvalue, hchild⟩ := h key w hw
  rw [hw, Option.some.injEq] at hvalue
  exact ⟨child, hvalue ▸ hchild⟩

theorem mem_ownKeys_of_dataAt {obj : HeapObject n} {key : PropertyKey} {value : HeapValue n}
    (h : obj.dataAt key = some value) : key ∈ obj.ownKeys :=
  mem_ownKeys_of_descriptor? (HeapObject.dataAt_eq_some.mp h)

theorem ObjectCopy.copiesAll {parts : List (JsString × JsonRequestSnapshot)}
    (h : ObjectCopy heap copy ref parts) : CopiesAll heap copy ref := by
  refine copiesAll_of_dataAt fun key value hvalue => ?_
  have hkey := mem_ownKeys_of_dataAt hvalue
  rw [h.keys] at hkey
  obtain ⟨part, hpart, rfl⟩ := List.mem_map.mp hkey
  exact ⟨part.2, h.copies part hpart⟩

theorem ArrayCopy.copiesAll {snapshots : List JsonRequestSnapshot}
    (harray : (heap.objects ref).isArray = true) (h : ArrayCopy heap copy ref snapshots) :
    CopiesAll heap copy ref := by
  refine copiesAll_of_dataAt fun key value hvalue => ?_
  rcases (h.keys key).mp (mem_ownKeys_of_dataAt hvalue) with rfl | ⟨i, hi, rfl⟩
  · rw [HeapObject.dataAt_lengthKey harray] at hvalue
    cases hvalue
  · exact ⟨_, h.copies i _ (List.getElem?_eq_getElem hi)⟩

/-! ## The walk -/

-- A value that is copied is clean, the copy is the value, and the text spells the copy.
theorem copyJsonValue_ok (value : HeapValue n) (ancestors : Finset (Fin n)) :
    ∀ s, (copyJsonValue heap value ancestors).result = .ok s →
      Clean heap ancestors value ∧ Represents heap value s.value ∧ Written s := by
  fun_induction copyJsonValue heap value ancestors with
  | case1 ancestors =>
    intro s h
    obtain rfl := Except.ok.inj h
    exact ⟨Clean.scalar trivial (by simp), .null, .leaf .null, Lexes.null, rfl⟩
  | case2 ancestors text =>
    intro s h
    obtain rfl := Except.ok.inj h
    exact ⟨Clean.scalar trivial (by simp), .string text, .leaf (.string text), Lexes.string text, rfl⟩
  | case3 ancestors b =>
    intro s h
    obtain rfl := Except.ok.inj h
    exact ⟨Clean.scalar trivial (by simp), .boolean b, .leaf (.boolean b), Lexes.boolean b, rfl⟩
  | case4 ancestors x hnormal hfinite =>
    intro s h
    obtain rfl := Except.ok.inj h
    refine ⟨Clean.scalar hfinite (by simp), .number x hnormal hfinite,
      .leaf (.number (numberToString x)), Lexes.number hfinite hnormal, ?_⟩
    show JsonTree.leaf (Primitive.number (numberOfToken (numberToString x))) = _
    rw [(numberToString_spec hfinite hnormal).1]
    rfl
  | case5 =>
    intro s h
    cases h
  | case6 =>
    intro s h
    cases h
  | case7 ancestors ref hnew copy ih =>
    intro s h
    have hrepresents : ∀ value child, (copy value).result = .ok child →
        Represents heap value child.value := fun value child hchild => (ih value child hchild).2.1
    have hclean : CopiesAll heap copy ref → ∀ w, Holds heap (.object ref) w →
        Clean heap (insert ref ancestors) w := by
      intro hall w hw
      obtain ⟨child, hchild⟩ := hall w hw
      exact (ih w child hchild).1
    obtain ⟨array, harray, h⟩ := Copying.bind_eq_ok.mp h
    obtain rfl := Except.ok.inj harray
    by_cases harray : (heap.objects ref).isArray = true
    · rw [if_pos harray] at h
      obtain ⟨snapshots, hcopy, rfl⟩ := (copyJsonArray_ok harray).mp h
      refine ⟨Clean.object (.inl (hcopy.plain harray)) hnew (hclean (hcopy.copiesAll harray)),
        hcopy.represents harray hrepresents, written_arraySnapshot fun child hchild => ?_⟩
      obtain ⟨i, hi⟩ := List.mem_iff_getElem?.mp hchild
      obtain ⟨value, -, hvalue⟩ := hcopy.copies i child hi
      exact (ih value _ hvalue).2.2
    · rw [if_neg harray] at h
      have hplain := Bool.eq_false_of_not_eq_true harray
      obtain ⟨parts, hcopy, rfl⟩ := copyJsonObject_ok.mp h
      refine ⟨Clean.object (.inr (hcopy.plain hplain)) hnew (hclean hcopy.copiesAll),
        hcopy.represents hplain hrepresents, written_objectSnapshot fun part hpart => ?_⟩
      obtain ⟨value, -, hvalue⟩ := hcopy.copies part hpart
      exact (ih value _ hvalue).2.2
  | case8 =>
    intro s h
    cases h

theorem arrayCopy_of_plain (h : PlainArray heap (heap.objects ref))
    (hall : ∀ w, Holds heap (.object ref) w → ∃ child, (copy w).result = .ok child) :
    ∃ snapshots, ArrayCopy heap copy ref snapshots := by
  obtain ⟨x, enumerable, length, hd, hlength, hkeys, hdata⟩ := h.dense
  have hcopies : ∀ i ∈ List.range length, ∃ child, Copies heap copy ref (.string (decimal i)) child := by
    intro i hi
    obtain ⟨value, hvalue⟩ := hdata i (List.mem_range.mp hi)
    obtain ⟨child, hchild⟩ := hall value ⟨ref, _, rfl, hvalue⟩
    exact ⟨child, value, hvalue, hchild⟩
  obtain ⟨snapshots, hsnapshots⟩ := exists_forall₂ hcopies
  have hcount : snapshots.length = length := by
    rw [← hsnapshots.length_eq, List.length_range]
  refine ⟨snapshots, h.prototype, ⟨x, enumerable, hd, hcount.symm ▸ hlength⟩, hcount.symm ▸ hkeys, ?_⟩
  intro i child hchild
  obtain ⟨hi, rfl⟩ := List.getElem?_eq_some_iff.mp hchild
  have hget := (List.forall₂_iff_get.mp hsnapshots).2 i (by simpa [hcount] using hi) hi
  simpa using hget

theorem objectCopy_of_plain (h : PlainObject heap (heap.objects ref))
    (hall : ∀ w, Holds heap (.object ref) w → ∃ child, (copy w).result = .ok child) :
    ∃ parts, ObjectCopy heap copy ref parts := by
  have hparts : ∀ key ∈ (heap.objects ref).ownKeys, ∃ part : JsString × JsonRequestSnapshot,
      key = .string part.1 ∧ Copies heap copy ref (.string part.1) part.2 := by
    intro key hkey
    obtain ⟨name, value, rfl, hvalue⟩ := h.properties key hkey
    obtain ⟨child, hchild⟩ := hall value ⟨ref, _, rfl, hvalue⟩
    exact ⟨(name, child), rfl, value, hvalue, hchild⟩
  obtain ⟨parts, hparts⟩ := exists_forall₂ hparts
  refine ⟨parts, h.prototype, ?_, ?_⟩
  · generalize (heap.objects ref).ownKeys = keys at hparts
    induction hparts with
    | nil => rfl
    | cons hpart _ ih => rw [List.map_cons, ← ih, ← hpart.1]
  · generalize (heap.objects ref).ownKeys = keys at hparts
    induction hparts with
    | nil =>
      intro part hpart
      cases hpart
    | cons hpart _ ih =>
      intro part' hmem
      rcases List.mem_cons.mp hmem with rfl | hmem
      · exact hpart.2
      · exact ih part' hmem

-- A clean value is copied.
theorem copyJsonValue_of_clean {value : HeapValue n} {ancestors : Finset (Fin n)}
    (h : Clean heap ancestors value) : ∃ s, (copyJsonValue heap value ancestors).result = .ok s := by
  fun_induction copyJsonValue heap value ancestors with
  | case1 ancestors => exact ⟨_, rfl⟩
  | case2 ancestors text => exact ⟨_, rfl⟩
  | case3 ancestors b => exact ⟨_, rfl⟩
  | case4 ancestors x hnormal hfinite => exact ⟨_, rfl⟩
  | case5 ancestors x hnormal hfinite => exact absurd (h.plain _ .refl) hfinite
  | case6 ancestors ref hmem => exact absurd hmem (h.outside ref .refl)
  | case7 ancestors ref hnew copy ih =>
    have hall : ∀ w, Holds heap (.object ref) w → ∃ child, (copy w).result = .ok child :=
      fun w hw => ih w (h.child hw)
    rcases h.plain _ .refl with harray | hobject
    · obtain ⟨snapshots, hcopy⟩ := arrayCopy_of_plain harray hall
      refine ⟨arraySnapshot snapshots, Copying.bind_eq_ok.mpr ⟨_, rfl, ?_⟩⟩
      rw [if_pos harray.isArray]
      exact (copyJsonArray_ok harray.isArray).mpr ⟨snapshots, hcopy, rfl⟩
    · obtain ⟨parts, hcopy⟩ := objectCopy_of_plain hobject hall
      refine ⟨objectSnapshot parts, Copying.bind_eq_ok.mpr ⟨_, rfl, ?_⟩⟩
      rw [if_neg (by rw [hobject.isArray]; simp)]
      exact copyJsonObject_ok.mpr ⟨parts, hcopy, rfl⟩
  | case8 value ancestors hnull hstring hboolean hnumber hobject =>
    have hplain := h.plain _ .refl
    cases value with
    | null => exact absurd rfl hnull
    | string text => exact absurd rfl (hstring text)
    | boolean b => exact absurd rfl (hboolean b)
    | number x =>
      cases x with
      | nan => exact absurd hplain id
      | double x hnormal => exact absurd rfl (hnumber x hnormal)
    | object ref => exact absurd rfl (hobject ref)
    | undefined | bigint | symbol | function => exact absurd hplain id

theorem clean_empty_iff {value : HeapValue n} : Clean heap ∅ value ↔ Lossless heap value := by
  constructor
  · exact fun h => ⟨h.plain, h.acyclic⟩
  · exact fun h => ⟨h.1, fun r _ => Finset.notMem_empty r, h.2⟩

end Http
