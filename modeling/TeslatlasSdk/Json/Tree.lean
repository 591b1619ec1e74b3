import TeslatlasSdk.Text.Digits

/-!
# JSON trees

Trees of arrays and objects over scalars of any kind, so that a syntax tree, a value and any
relabelling of either share their shape.  `settle` resolves duplicate members: the last one counts,
and the members stand in the order in which a script enumerates own properties.
-/

open Text

namespace Json

inductive JsonTree (ν : Type) where
  | leaf (value : ν)
  | array (items : List (JsonTree ν))
  | object (members : List (JsString × JsonTree ν))

/-- Where a tree sits under a root: the keys on the way, array indices written in decimal. -/
abbrev Path := List JsString

/-- The array index that a key denotes, if it is one. -/
def arrayIndex (key : JsString) : Option Nat :=
  if decimal (digitsValue key) = key ∧ digitsValue key < 2 ^ 32 - 1 then some (digitsValue key)
  else none

/-- Whether a key is enumerated before another that was there first. -/
def precedes (key first : JsString) : Bool :=
  match arrayIndex key, arrayIndex first with
  | some i, some j => i < j
  | some _, none => true
  | none, _ => false

/-- A new member goes in front of the first one it precedes. -/
def insertMember {α : Type} (key : JsString) (value : α) :
    List (JsString × α) → List (JsString × α)
  | [] => [(key, value)]
  | m :: members =>
      if precedes key m.1 then (key, value) :: m :: members else m :: insertMember key value members

/-- Define a member: an old one keeps its place, a new one goes where it is enumerated. -/
def defineMember {α : Type} (key : JsString) (value : α) (members : List (JsString × α)) :
    List (JsString × α) :=
  if key ∈ members.map Prod.fst then members.map fun m => if m.1 = key then (key, value) else m
  else insertMember key value members

/-- The last member with a key. -/
def lastMember {α : Type} (key : JsString) : List (JsString × α) → Option α
  | [] => none
  | (first, value) :: members =>
      (lastMember key members).or (if key = first then some value else none)

/-- Array items under their keys, counted from `i`. -/
def indexed {α : Type} (i : Nat) : List α → List (JsString × α)
  | [] => []
  | item :: items => (decimal i, item) :: indexed (i + 1) items

namespace JsonTree

variable {ν μ : Type}

/-! Recursion over trees goes through the lists of items and members. -/

mutual

def map (f : ν → μ) : JsonTree ν → JsonTree μ
  | .leaf value => .leaf (f value)
  | .array items => .array (mapItems f items)
  | .object members => .object (mapMembers f members)

def mapItems (f : ν → μ) : List (JsonTree ν) → List (JsonTree μ)
  | [] => []
  | item :: items => map f item :: mapItems f items

def mapMembers (f : ν → μ) : List (JsString × JsonTree ν) → List (JsString × JsonTree μ)
  | [] => []
  | (key, value) :: members => (key, map f value) :: mapMembers f members

end

mutual

/-- Resolve duplicate members all over a tree. -/
def settle : JsonTree ν → JsonTree ν
  | .leaf value => .leaf value
  | .array items => .array (settleItems items)
  | .object members => .object (settleMembers [] members)

def settleItems : List (JsonTree ν) → List (JsonTree ν)
  | [] => []
  | item :: items => settle item :: settleItems items

def settleMembers (done : List (JsString × JsonTree ν)) :
    List (JsString × JsonTree ν) → List (JsString × JsonTree ν)
  | [] => done
  | (key, value) :: members => settleMembers (defineMember key (settle value) done) members

end

/-- The children of a tree under their keys. -/
def entries : JsonTree ν → List (JsString × JsonTree ν)
  | .leaf _ => []
  | .array items => indexed 0 items
  | .object members => members

/-- `tree[key]` for an own property; of duplicate members the last. -/
def child (t : JsonTree ν) (key : JsString) : Option (JsonTree ν) := lastMember key t.entries

/-- The tree at a path. -/
def get (t : JsonTree ν) : Path → Option (JsonTree ν)
  | [] => some t
  | key :: path => (t.child key).bind fun c => c.get path

mutual

/-- The scalars of a tree with their paths, in enumeration order. -/
def leaves : JsonTree ν → List (Path × ν)
  | .leaf value => [([], value)]
  | .array items => itemLeaves 0 items
  | .object members => memberLeaves members

def itemLeaves (i : Nat) : List (JsonTree ν) → List (Path × ν)
  | [] => []
  | item :: items => (leaves item).map (fun l => (decimal i :: l.1, l.2)) ++ itemLeaves (i + 1) items

def memberLeaves : List (JsString × JsonTree ν) → List (Path × ν)
  | [] => []
  | (key, value) :: members => (leaves value).map (fun l => (key :: l.1, l.2)) ++ memberLeaves members

end

mutual

/-- The number of nodes of a tree. -/
def size : JsonTree ν → Nat
  | .leaf _ => 1
  | .array items => 1 + itemsSize items
  | .object members => 1 + membersSize members

def itemsSize : List (JsonTree ν) → Nat
  | [] => 0
  | item :: items => size item + itemsSize items

def membersSize : List (JsString × JsonTree ν) → Nat
  | [] => 0
  | (_, value) :: members => size value + membersSize members

end

/-! ## Lists of items and members -/

theorem map_keys {α β : Type} (f : α → β) (members : List (JsString × α)) :
    (members.map fun m => (m.1, f m.2)).map Prod.fst = members.map Prod.fst := by
  rw [List.map_map]
  rfl

theorem map_values {α β : Type} (f : α → β) (members : List (JsString × α)) :
    (members.map fun m => (m.1, f m.2)).map Prod.snd = (members.map Prod.snd).map f := by
  rw [List.map_map, List.map_map]
  rfl

theorem mapItems_eq (f : ν → μ) (items : List (JsonTree ν)) : mapItems f items = items.map (map f) := by
  induction items with
  | nil => rfl
  | cons item items ih => rw [mapItems, ih, List.map_cons]

theorem mapMembers_eq (f : ν → μ) (members : List (JsString × JsonTree ν)) :
    mapMembers f members = members.map fun m => (m.1, map f m.2) := by
  induction members with
  | nil => rfl
  | cons m members ih => rw [mapMembers, ih, List.map_cons]

theorem settleItems_eq (items : List (JsonTree ν)) : settleItems items = items.map settle := by
  induction items with
  | nil => rfl
  | cons item items ih => rw [settleItems, ih, List.map_cons]

theorem indexed_map {α β : Type} (f : α → β) (i : Nat) (items : List α) :
    indexed i (items.map f) = (indexed i items).map fun m => (m.1, f m.2) := by
  induction items generalizing i with
  | nil => rfl
  | cons item items ih => rw [List.map_cons, indexed, ih, indexed, List.map_cons]

theorem entries_map (f : ν → μ) (t : JsonTree ν) :
    (t.map f).entries = t.entries.map fun m => (m.1, m.2.map f) := by
  cases t with
  | leaf value => rfl
  | array items => rw [map, entries, mapItems_eq, indexed_map, entries]
  | object members => rw [map, entries, mapMembers_eq, entries]

theorem size_lt_of_mem_entries {t : JsonTree ν} {m : JsString × JsonTree ν} (h : m ∈ t.entries) :
    m.2.size < t.size := by
  cases t with
  | leaf value => simp [entries] at h
  | array items =>
    have hle : ∀ i, m ∈ indexed i items → m.2.size ≤ itemsSize items := by
      clear h
      induction items with
      | nil => simp [indexed]
      | cons item items ih =>
        intro i hm
        rw [itemsSize]
        rcases List.mem_cons.mp hm with rfl | hm
        · exact Nat.le_add_right _ _
        · exact Nat.le_trans (ih (i + 1) hm) (Nat.le_add_left _ _)
    have := hle 0 h
    rw [size]
    omega
  | object members =>
    have hle : m ∈ members → m.2.size ≤ membersSize members := by
      clear h
      induction members with
      | nil => simp
      | cons first members ih =>
        intro hm
        obtain ⟨key, value⟩ := first
        rw [membersSize]
        rcases List.mem_cons.mp hm with rfl | hm
        · exact Nat.le_add_right _ _
        · exact Nat.le_trans (ih hm) (Nat.le_add_left _ _)
    have := hle h
    rw [size]
    omega

-- To prove something of every tree, prove it of a tree whose children have it.
theorem induction_entries {motive : JsonTree ν → Prop}
    (step : ∀ t, (∀ m ∈ t.entries, motive m.2) → motive t) (t : JsonTree ν) : motive t := by
  induction hn : t.size using Nat.strongRecOn generalizing t with
  | ind n ih =>
    apply step
    intro m hm
    exact ih m.2.size (hn ▸ size_lt_of_mem_entries hm) m.2 rfl

theorem mem_indexed {α : Type} {item : α} {items : List α} (h : item ∈ items) (i : Nat) :
    ∃ key, (key, item) ∈ indexed i items := by
  induction items generalizing i with
  | nil => cases h
  | cons first items ih =>
    rw [indexed]
    rcases List.mem_cons.mp h with rfl | h
    · exact ⟨decimal i, List.mem_cons_self⟩
    · obtain ⟨key, hkey⟩ := ih h (i + 1)
      exact ⟨key, List.mem_cons_of_mem _ hkey⟩

@[elab_as_elim]
theorem induction_tree {motive : JsonTree ν → Prop} (leaf : ∀ x, motive (.leaf x))
    (array : ∀ items, (∀ item ∈ items, motive item) → motive (.array items))
    (object : ∀ members, (∀ m ∈ members, motive m.2) → motive (.object members))
    (t : JsonTree ν) : motive t := by
  refine induction_entries (fun t ih => ?_) t
  cases t with
  | leaf x => exact leaf x
  | array items =>
    refine array items fun item hitem => ?_
    obtain ⟨key, hkey⟩ := mem_indexed hitem 0
    exact ih (key, item) hkey
  | object members => exact object members ih

/-! ## Members by key -/

theorem lastMember_map {α β : Type} (f : α → β) (key : JsString) (members : List (JsString × α)) :
    lastMember key (members.map fun m => (m.1, f m.2)) = (lastMember key members).map f := by
  induction members with
  | nil => rfl
  | cons m members ih =>
    rw [List.map_cons, lastMember, ih, lastMember]
    cases lastMember key members with
    | some value => rfl
    | none =>
      simp only [Option.map_none, Option.none_or]
      split <;> rfl

theorem mem_of_lastMember {α : Type} {key : JsString} {members : List (JsString × α)} {value : α}
    (h : lastMember key members = some value) : (key, value) ∈ members := by
  induction members with
  | nil => simp [lastMember] at h
  | cons m members ih =>
    obtain ⟨first, old⟩ := m
    rw [lastMember] at h
    cases hl : lastMember key members with
    | some v =>
      rw [hl] at h
      simp only [Option.some_or, Option.some.injEq] at h
      exact List.mem_cons_of_mem _ (ih (hl.trans (congrArg some h)))
    | none =>
      rw [hl, Option.none_or] at h
      split at h
      · next hk =>
        simp only [Option.some.injEq] at h
        rw [hk, h]
        exact List.mem_cons_self
      · simp at h

theorem lastMember_eq_none {α : Type} {key : JsString} {members : List (JsString × α)} :
    lastMember key members = none ↔ key ∉ members.map Prod.fst := by
  induction members with
  | nil => simp [lastMember]
  | cons m members ih =>
    obtain ⟨first, old⟩ := m
    rw [lastMember, Option.or_eq_none_iff, ih]
    simp only [List.map_cons, List.mem_cons, not_or]
    constructor
    · rintro ⟨h, hf⟩
      exact ⟨fun hk => by simp [hk] at hf, h⟩
    · rintro ⟨hf, h⟩
      exact ⟨h, if_neg hf⟩

-- Without duplicates, being a member and being the last one with the key are the same.
theorem lastMember_eq_some {α : Type} {key : JsString} {members : List (JsString × α)} {value : α}
    (h : (members.map Prod.fst).Nodup) :
    lastMember key members = some value ↔ (key, value) ∈ members := by
  refine ⟨mem_of_lastMember, fun hm => ?_⟩
  induction members with
  | nil => simp at hm
  | cons m members ih =>
    obtain ⟨first, old⟩ := m
    rw [List.map_cons, List.nodup_cons] at h
    rw [lastMember]
    rcases List.mem_cons.mp hm with heq | hm
    · simp only [Prod.mk.injEq] at heq
      obtain ⟨rfl, rfl⟩ := heq
      rw [lastMember_eq_none.mpr h.1, Option.none_or, if_pos rfl]
    · rw [ih h.2 hm, Option.some_or]

theorem lastMember_insertMember {α : Type} (key : JsString) (value : α)
    {members : List (JsString × α)} (h : key ∉ members.map Prod.fst) (k : JsString) :
    lastMember k (insertMember key value members) =
      if k = key then some value else lastMember k members := by
  induction members with
  | nil => simp [insertMember, lastMember]
  | cons m members ih =>
    rw [List.map_cons, List.mem_cons, not_or] at h
    rw [insertMember]
    split
    · rw [lastMember]
      by_cases hk : k = key
      · rw [if_pos hk, if_pos hk, hk, lastMember_eq_none.mpr, Option.none_or]
        rw [List.map_cons, List.mem_cons, not_or]
        exact h
      · rw [if_neg hk, if_neg hk, Option.or_none]
    · rw [lastMember, ih h.2, lastMember]
      by_cases hk : k = key
      · rw [if_pos hk, if_pos hk, Option.some_or]
      · rw [if_neg hk, if_neg hk]

theorem lastMember_replace {α : Type} (key : JsString) (value : α) (members : List (JsString × α))
    (k : JsString) :
    lastMember k (members.map fun m => if m.1 = key then (key, value) else m) =
      if k = key then (lastMember k members).map fun _ => value else lastMember k members := by
  induction members with
  | nil => simp [lastMember]
  | cons m members ih =>
    obtain ⟨first, old⟩ := m
    rw [List.map_cons, lastMember.eq_def]
    by_cases hf : first = key
    · rw [if_pos hf]
      simp only
      rw [ih, lastMember, hf]
      by_cases hk : k = key
      · simp only [if_pos hk]
        cases lastMember k members <;> rfl
      · simp only [if_neg hk]
    · rw [if_neg hf]
      simp only
      rw [ih, lastMember]
      by_cases hk : k = key
      · have hkf : ¬ k = first := fun h => hf (h.symm.trans hk)
        simp only [if_pos hk, if_neg hkf, Option.or_none]
      · simp only [if_neg hk]

-- A defined member is found; the others are as before.
theorem lastMember_defineMember {α : Type} (key : JsString) (value : α)
    (members : List (JsString × α)) (k : JsString) :
    lastMember k (defineMember key value members) =
      if k = key then some value else lastMember k members := by
  unfold defineMember
  split
  · next h =>
    rw [lastMember_replace]
    by_cases hk : k = key
    · rw [if_pos hk, if_pos hk]
      cases hl : lastMember k members with
      | some old => rfl
      | none => exact absurd (hk ▸ h) (lastMember_eq_none.mp hl)
    · rw [if_neg hk, if_neg hk]
  · next h => exact lastMember_insertMember key value h k

theorem keys_insertMember {α : Type} (key : JsString) (value : α) (members : List (JsString × α)) :
    ((insertMember key value members).map Prod.fst).Perm (key :: members.map Prod.fst) := by
  induction members with
  | nil => exact List.Perm.refl _
  | cons m members ih =>
    rw [insertMember]
    split
    · exact List.Perm.refl _
    · exact (List.Perm.cons m.1 ih).trans (List.Perm.swap key m.1 _)

-- Defining members makes no duplicates.
theorem nodup_defineMember {α : Type} (key : JsString) (value : α) {members : List (JsString × α)}
    (h : (members.map Prod.fst).Nodup) : ((defineMember key value members).map Prod.fst).Nodup := by
  unfold defineMember
  split
  · have hkeys : (members.map fun m => if m.1 = key then (key, value) else m).map Prod.fst =
        members.map Prod.fst := by
      rw [List.map_map]
      apply List.map_congr_left
      intro m _
      show (if m.1 = key then (key, value) else m).1 = m.1
      split
      · next hk => exact hk.symm
      · rfl
    rw [hkeys]
    exact h
  · next hk => exact (keys_insertMember key value members).nodup_iff.mpr (List.nodup_cons.mpr ⟨hk, h⟩)

/-! ## Relabelling -/

theorem child_map (f : ν → μ) (t : JsonTree ν) (key : JsString) :
    (t.map f).child key = (t.child key).map (map f) := by
  rw [child, entries_map, lastMember_map, child]

theorem get_map (f : ν → μ) (t : JsonTree ν) (path : Path) :
    (t.map f).get path = (t.get path).map (map f) := by
  induction path generalizing t with
  | nil => rfl
  | cons key path ih =>
    rw [get, child_map, get]
    cases t.child key with
    | none => rfl
    | some c => exact ih c

theorem insertMember_map {α β : Type} (f : α → β) (key : JsString) (value : α)
    (members : List (JsString × α)) :
    (insertMember key value members).map (fun m => (m.1, f m.2)) =
      insertMember key (f value) (members.map fun m => (m.1, f m.2)) := by
  induction members with
  | nil => rfl
  | cons m members ih =>
    rw [insertMember, List.map_cons, insertMember]
    split
    · rfl
    · rw [List.map_cons, ih]

theorem defineMember_map {α β : Type} (f : α → β) (key : JsString) (value : α)
    (members : List (JsString × α)) :
    (defineMember key value members).map (fun m => (m.1, f m.2)) =
      defineMember key (f value) (members.map fun m => (m.1, f m.2)) := by
  unfold defineMember
  rw [map_keys]
  split
  · rw [List.map_map, List.map_map]
    apply List.map_congr_left
    intro m _
    simp only [Function.comp]
    split <;> rfl
  · exact insertMember_map f key value members

mutual

-- Resolving duplicates does not look at the scalars.
theorem settle_map (f : ν → μ) : ∀ t : JsonTree ν, (t.map f).settle = t.settle.map f
  | .leaf _ => rfl
  | .array items => by rw [map, settle, settle, map, settleItems_map f items]
  | .object members => by
      rw [map, settle, settle, map, settleMembers_map f [] members]
      rfl

theorem settleItems_map (f : ν → μ) :
    ∀ items : List (JsonTree ν), settleItems (mapItems f items) = mapItems f (settleItems items)
  | [] => rfl
  | item :: items => by
      rw [mapItems, settleItems, settleItems, mapItems, settle_map f item, settleItems_map f items]

theorem settleMembers_map (f : ν → μ) :
    ∀ done members : List (JsString × JsonTree ν),
      mapMembers f (settleMembers done members) =
        settleMembers (mapMembers f done) (mapMembers f members)
  | _, [] => rfl
  | done, (key, value) :: members => by
      rw [settleMembers, mapMembers, settleMembers, settleMembers_map f _ members, settle_map f value,
        mapMembers_eq f (defineMember _ _ _), defineMember_map, ← mapMembers_eq]

end

/-! ## What settling does -/

theorem lastMember_settleMembers (key : JsString) (done members : List (JsString × JsonTree ν)) :
    lastMember key (settleMembers done members) =
      ((lastMember key members).map settle).or (lastMember key done) := by
  induction members generalizing done with
  | nil => simp [settleMembers, lastMember]
  | cons m members ih =>
    obtain ⟨first, value⟩ := m
    rw [settleMembers, ih, lastMember, lastMember_defineMember]
    cases lastMember key members with
    | some old => rfl
    | none =>
      simp only [Option.map_none, Option.none_or]
      split <;> rfl

theorem nodup_settleMembers {done : List (JsString × JsonTree ν)} (h : (done.map Prod.fst).Nodup)
    (members : List (JsString × JsonTree ν)) : ((settleMembers done members).map Prod.fst).Nodup := by
  induction members generalizing done with
  | nil => exact h
  | cons m members ih => exact ih (nodup_defineMember m.1 m.2.settle h)

-- Settled, a child is the last child with its key.
theorem child_settle (t : JsonTree ν) (key : JsString) :
    t.settle.child key = (t.child key).map settle := by
  cases t with
  | leaf value => rfl
  | array items =>
    rw [settle, child, entries, settleItems_eq, indexed_map, lastMember_map, child, entries]
  | object members =>
    rw [settle, child, entries, lastMember_settleMembers, child, entries]
    exact Option.or_none

theorem get_settle (t : JsonTree ν) (path : Path) : t.settle.get path = (t.get path).map settle := by
  induction path generalizing t with
  | nil => rfl
  | cons key path ih =>
    rw [get, child_settle, get]
    cases t.child key with
    | none => rfl
    | some c => exact ih c

theorem nodup_indexed {α : Type} (i : Nat) (items : List α) :
    ((indexed i items).map Prod.fst).Nodup ∧
      ∀ key ∈ (indexed i items).map Prod.fst, ∃ j, i ≤ j ∧ key = decimal j := by
  induction items generalizing i with
  | nil => simp [indexed]
  | cons item items ih =>
    obtain ⟨hnodup, hkeys⟩ := ih (i + 1)
    rw [indexed, List.map_cons]
    refine ⟨List.nodup_cons.mpr ⟨fun hmem => ?_, hnodup⟩, fun key hkey => ?_⟩
    · obtain ⟨j, hj, heq⟩ := hkeys _ hmem
      have := decimal_injective heq
      omega
    · rcases List.mem_cons.mp hkey with rfl | hkey
      · exact ⟨i, Nat.le_refl i, rfl⟩
      · obtain ⟨j, hj, heq⟩ := hkeys key hkey
        exact ⟨j, by omega, heq⟩

theorem nodup_entries_settle (t : JsonTree ν) : (t.settle.entries.map Prod.fst).Nodup := by
  cases t with
  | leaf value => exact List.nodup_nil
  | array items => exact (nodup_indexed 0 _).1
  | object members => exact nodup_settleMembers (by simp) members

/-- No object of the tree has two members with the same key. -/
def Distinct (t : JsonTree ν) : Prop :=
  ∀ path c, t.get path = some c → (c.entries.map Prod.fst).Nodup

theorem distinct_settle (t : JsonTree ν) : t.settle.Distinct := by
  intro path c h
  rw [get_settle, Option.map_eq_some_iff] at h
  obtain ⟨c', -, rfl⟩ := h
  exact nodup_entries_settle c'

theorem Distinct.child {t c : JsonTree ν} (h : t.Distinct) {key : JsString} (hc : t.child key = some c) :
    c.Distinct := by
  intro path d hd
  refine h (key :: path) d ?_
  rw [get, hc]
  exact hd

/-! ## Scalars and their paths -/

theorem itemLeaves_eq (i : Nat) (items : List (JsonTree ν)) :
    itemLeaves i items =
      (indexed i items).flatMap fun m => (leaves m.2).map fun l => (m.1 :: l.1, l.2) := by
  induction items generalizing i with
  | nil => rfl
  | cons item items ih => rw [itemLeaves, ih, indexed, List.flatMap_cons]

theorem memberLeaves_eq (members : List (JsString × JsonTree ν)) :
    memberLeaves members =
      members.flatMap fun m => (leaves m.2).map fun l => (m.1 :: l.1, l.2) := by
  induction members with
  | nil => rfl
  | cons m members ih => rw [memberLeaves, ih, List.flatMap_cons]

-- Besides a scalar at the root, the scalars of a tree are those of its children.
theorem leaves_eq (t : JsonTree ν) :
    t.leaves = (match t with | .leaf value => [([], value)] | _ => []) ++
      t.entries.flatMap fun m => (leaves m.2).map fun l => (m.1 :: l.1, l.2) := by
  cases t with
  | leaf value => rfl
  | array items => rw [leaves, itemLeaves_eq]; rfl
  | object members => rw [leaves, memberLeaves_eq]; rfl

-- In a tree without duplicates, the scalars are what stands at the paths.
theorem mem_leaves_iff {t : JsonTree ν} (h : t.Distinct) (path : Path) (value : ν) :
    (path, value) ∈ t.leaves ↔ t.get path = some (.leaf value) := by
  induction t using induction_entries generalizing path with
  | step t ih =>
    rw [leaves_eq, List.mem_append]
    cases path with
    | nil => cases t <;> simp [get, eq_comm]
    | cons key path =>
      have hroot : (key :: path, value) ∉
          (match t with | .leaf value => [(([] : Path), value)] | _ => []) := by
        cases t <;> simp
      have hchild : ∀ c, t.child key = some c ↔ (key, c) ∈ t.entries := fun c =>
        lastMember_eq_some (h [] t rfl)
      rw [get, Option.bind_eq_some_iff]
      simp only [hroot, false_or, List.mem_flatMap, List.mem_map, Prod.mk.injEq, List.cons.injEq]
      constructor
      · rintro ⟨⟨k, c⟩, hm, l, hl, ⟨rfl, rfl⟩, rfl⟩
        have hc := (hchild c).mpr hm
        exact ⟨c, hc, (ih _ hm (h.child hc) l.1).mp hl⟩
      · rintro ⟨c, hc, hget⟩
        have hm := (hchild c).mp hc
        exact ⟨(key, c), hm, (path, value), (ih _ hm (h.child hc) path).mpr hget, ⟨rfl, rfl⟩, rfl⟩

end JsonTree

end Json
