import TeslatlasSdk.Json.Tree
import Mathlib.Data.List.Forall2
import Mathlib.Data.List.Sort

/-!
# The order of members

An object that is built from entries enumerates its array indices first, in numeric order, and its
other keys as they came.  Whether sorted entries stay sorted is a matter of their keys alone.
-/

open Text

namespace Json

variable {α β : Type}

/-- `Object.fromEntries`. -/
def fromEntries (entries : List (JsString × α)) : List (JsString × α) :=
  entries.foldl (fun members m => defineMember m.1 m.2 members) []

/-- `keys.sort()`: strings are compared by their units. -/
def sortKeys (keys : List JsString) : List JsString := keys.insertionSort (· ≤ ·)

/-- The entries of an object under its sorted keys. -/
def sortMembers (members : List (JsString × α)) : List (JsString × α) :=
  (sortKeys (members.map Prod.fst)).filterMap fun key =>
    (lastMember key members).map fun value => (key, value)

/-- No key is enumerated before a smaller one. -/
def InOrder (keys : List JsString) : Prop :=
  ∀ first ∈ keys, ∀ second ∈ keys, first < second → precedes second first = false

/-! ## Which key is enumerated first -/

theorem precedes_eq_true {key first : JsString} :
    precedes key first = true ↔
      ∃ i, arrayIndex key = some i ∧ ∀ j, arrayIndex first = some j → i < j := by
  unfold precedes
  cases arrayIndex key with
  | none => simp
  | some i =>
    cases arrayIndex first with
    | none => simp
    | some j => simp

theorem precedes_asymm {key first : JsString} (h : precedes key first = true) :
    precedes first key = false := by
  by_contra hback
  obtain ⟨i, hi, hless⟩ := precedes_eq_true.mp h
  obtain ⟨j, hj, hgreater⟩ := precedes_eq_true.mp ((Bool.not_eq_false _).mp hback)
  exact absurd (hless j hj) (Nat.not_lt.mpr (Nat.le_of_lt (hgreater i hi)))

theorem precedes_trans {first second third : JsString} (h : precedes first second = true)
    (h' : precedes second third = true) : precedes first third = true := by
  obtain ⟨i, hi, hless⟩ := precedes_eq_true.mp h
  obtain ⟨j, hj, hless'⟩ := precedes_eq_true.mp h'
  exact precedes_eq_true.mpr ⟨i, hi, fun k hk => Nat.lt_trans (hless j hj) (hless' k hk)⟩

/-- Members stand as a script enumerates them. -/
def Enumerated (members : List (JsString × α)) : Prop :=
  members.Pairwise fun m n => precedes n.1 m.1 = false

theorem mem_insertMember {key : JsString} {value : α} {members : List (JsString × α)}
    {m : JsString × α} : m ∈ insertMember key value members ↔ m = (key, value) ∨ m ∈ members := by
  induction members with
  | nil => rw [insertMember, List.mem_singleton]; simp
  | cons first members ih =>
    rw [insertMember]
    split
    · rw [List.mem_cons]
    · rw [List.mem_cons, ih, List.mem_cons, or_left_comm]

theorem insertMember_perm (key : JsString) (value : α) (members : List (JsString × α)) :
    (insertMember key value members).Perm ((key, value) :: members) := by
  induction members with
  | nil => exact List.Perm.refl _
  | cons m members ih =>
    rw [insertMember]
    split
    · exact List.Perm.refl _
    · exact (List.Perm.cons m ih).trans (List.Perm.swap (key, value) m members)

-- A new member stands behind those it does not precede, and before those it precedes.
theorem enumerated_insertMember {key : JsString} {value : α} {members : List (JsString × α)}
    (h : Enumerated members) : Enumerated (insertMember key value members) := by
  induction members with
  | nil => exact List.pairwise_singleton _ _
  | cons m members ih =>
    rw [Enumerated, List.pairwise_cons] at h
    rw [insertMember]
    split
    · next hprecedes =>
      refine List.pairwise_cons.mpr ⟨fun n hn => ?_, List.pairwise_cons.mpr h⟩
      rcases List.mem_cons.mp hn with rfl | hn
      · exact precedes_asymm hprecedes
      · by_contra hback
        have htrans := precedes_trans ((Bool.not_eq_false _).mp hback) hprecedes
        rw [h.1 n hn] at htrans
        cases htrans
    · next hprecedes =>
      refine List.pairwise_cons.mpr ⟨fun n hn => ?_, ih h.2⟩
      rcases mem_insertMember.mp hn with rfl | hn
      · exact (Bool.not_eq_true _).mp hprecedes
      · exact h.1 n hn

theorem insertMember_last {key : JsString} {value : α} {members : List (JsString × α)}
    (h : ∀ m ∈ members, precedes key m.1 = false) :
    insertMember key value members = members ++ [(key, value)] := by
  induction members with
  | nil => rfl
  | cons m members ih =>
    rw [insertMember, h m List.mem_cons_self, if_neg Bool.false_ne_true,
      ih fun n hn => h n (List.mem_cons_of_mem m hn), List.cons_append]

/-! ## Objects from entries -/

-- With distinct keys, every entry becomes a member, in the place where it is enumerated.
theorem foldl_defineMember (done : List (JsString × α)) {entries : List (JsString × α)}
    (hkeys : ((done ++ entries).map Prod.fst).Nodup) (hdone : Enumerated done) :
    (entries.foldl (fun members m => defineMember m.1 m.2 members) done).Perm (done ++ entries) ∧
      Enumerated (entries.foldl (fun members m => defineMember m.1 m.2 members) done) := by
  induction entries generalizing done with
  | nil => exact ⟨by rw [List.append_nil]; exact List.Perm.refl _, hdone⟩
  | cons m entries ih =>
    have hnew : m.1 ∉ done.map Prod.fst := by
      intro hmem
      rw [List.map_append, List.nodup_append, List.map_cons] at hkeys
      exact hkeys.2.2 m.1 hmem m.1 List.mem_cons_self rfl
    have hdefine : defineMember m.1 m.2 done = insertMember m.1 m.2 done := if_neg hnew
    have hperm : (insertMember m.1 m.2 done ++ entries).Perm (done ++ m :: entries) :=
      ((insertMember_perm m.1 m.2 done).append_right entries).trans List.perm_middle.symm
    obtain ⟨hall, henumerated⟩ := ih _ ((hperm.map Prod.fst).nodup_iff.mpr hkeys)
      (enumerated_insertMember hdone)
    rw [List.foldl_cons, hdefine]
    exact ⟨hall.trans hperm, henumerated⟩

theorem fromEntries_perm {entries : List (JsString × α)} (h : (entries.map Prod.fst).Nodup) :
    (fromEntries entries).Perm entries :=
  (foldl_defineMember [] h List.Pairwise.nil).1

theorem enumerated_fromEntries {entries : List (JsString × α)} (h : (entries.map Prod.fst).Nodup) :
    Enumerated (fromEntries entries) :=
  (foldl_defineMember [] h List.Pairwise.nil).2

-- Entries that come as they are enumerated are the members.
theorem fromEntries_enumerated {entries : List (JsString × α)} (h : (entries.map Prod.fst).Nodup)
    (henumerated : Enumerated entries) : fromEntries entries = entries := by
  induction entries using List.reverseRecOn with
  | nil => rfl
  | append_singleton entries m ih =>
    rw [List.map_append, List.nodup_append] at h
    rw [Enumerated, List.pairwise_append] at henumerated
    have hall : fromEntries entries = entries := ih h.1 henumerated.1
    have hnew : m.1 ∉ entries.map Prod.fst := fun hmem => h.2.2 m.1 hmem m.1 List.mem_cons_self rfl
    rw [fromEntries, List.foldl_append, ← fromEntries, hall]
    show defineMember m.1 m.2 entries = entries ++ [m]
    rw [defineMember, if_neg hnew]
    exact insertMember_last fun n hn => henumerated.2.2 n hn m List.mem_cons_self

theorem fromEntries_map (f : α → β) (entries : List (JsString × α)) :
    fromEntries (entries.map fun m => (m.1, f m.2)) =
      (fromEntries entries).map fun m => (m.1, f m.2) := by
  have hdone : ∀ done : List (JsString × α),
      (entries.map fun m => (m.1, f m.2)).foldl (fun members m => defineMember m.1 m.2 members)
          (done.map fun m => (m.1, f m.2)) =
        (entries.foldl (fun members m => defineMember m.1 m.2 members) done).map
          fun m => (m.1, f m.2) := by
    induction entries with
    | nil => exact fun done => rfl
    | cons m entries ih =>
      intro done
      rw [List.map_cons, List.foldl_cons, List.foldl_cons, ← ih, JsonTree.defineMember_map]
  exact hdone []

/-! ## Sorted keys -/

theorem sortKeys_perm (keys : List JsString) : (sortKeys keys).Perm keys :=
  List.perm_insertionSort _ keys

theorem sortKeys_pairwise {keys : List JsString} (h : keys.Nodup) :
    (sortKeys keys).Pairwise (· < ·) := by
  have hle : (sortKeys keys).Pairwise (· ≤ ·) := List.pairwise_insertionSort _ keys
  have hne : (sortKeys keys).Pairwise (· ≠ ·) := (sortKeys_perm keys).nodup_iff.mpr h
  refine (hle.and hne).imp fun hab => ?_
  by_contra hlt
  exact hab.2 (List.le_antisymm hab.1 (List.not_lt.mp hlt))

theorem sortMembers_map (f : α → β) (members : List (JsString × α)) :
    sortMembers (members.map fun m => (m.1, f m.2)) =
      (sortMembers members).map fun m => (m.1, f m.2) := by
  rw [sortMembers, JsonTree.map_keys, sortMembers, List.map_filterMap]
  congr 1
  funext key
  rw [JsonTree.lastMember_map, Option.map_map, Option.map_map]
  rfl

-- Every key is looked up and found.
theorem sortMembers_keys (members : List (JsString × α)) :
    (sortMembers members).map Prod.fst = sortKeys (members.map Prod.fst) := by
  have hfound : ∀ key ∈ sortKeys (members.map Prod.fst), ∃ value,
      lastMember key members = some value := by
    intro key hkey
    have hmem := (sortKeys_perm _).mem_iff.mp hkey
    cases hlast : lastMember key members with
    | some value => exact ⟨value, rfl⟩
    | none => exact absurd hmem (JsonTree.lastMember_eq_none.mp hlast)
  rw [sortMembers]
  generalize sortKeys (members.map Prod.fst) = keys at hfound
  induction keys with
  | nil => rfl
  | cons key keys ih =>
    obtain ⟨value, hvalue⟩ := hfound key List.mem_cons_self
    rw [List.filterMap_cons, hvalue]
    show key :: _ = key :: keys
    rw [ih fun k hk => hfound k (List.mem_cons_of_mem key hk)]

section Distinct

variable {members : List (JsString × α)} (h : (members.map Prod.fst).Nodup)

include h

theorem sortMembers_nodup : ((sortMembers members).map Prod.fst).Nodup := by
  rw [sortMembers_keys]
  exact (sortKeys_perm _).nodup_iff.mpr h

theorem sortMembers_pairwise : (sortMembers members).Pairwise fun m n => m.1 < n.1 := by
  have hkeys := sortKeys_pairwise h
  rw [← sortMembers_keys, List.pairwise_map] at hkeys
  exact hkeys

theorem sortMembers_perm : (sortMembers members).Perm members := by
  rw [List.perm_ext_iff_of_nodup (sortMembers_nodup h).of_map h.of_map]
  rintro ⟨key, value⟩
  rw [sortMembers, List.mem_filterMap]
  constructor
  · rintro ⟨k, -, hk⟩
    obtain ⟨v, hv, heq⟩ := Option.map_eq_some_iff.mp hk
    rw [← heq]
    exact JsonTree.mem_of_lastMember hv
  · intro hm
    refine ⟨key, (sortKeys_perm _).mem_iff.mpr (List.mem_map_of_mem hm), ?_⟩
    rw [(JsonTree.lastMember_eq_some h).mpr hm]
    rfl

theorem fromEntries_sortMembers_perm : (fromEntries (sortMembers members)).Perm members :=
  (fromEntries_perm (sortMembers_nodup h)).trans (sortMembers_perm h)

-- The members that come out are in order exactly when the enumeration leaves sorted keys alone.
theorem fromEntries_sortMembers_pairwise :
    ((fromEntries (sortMembers members)).map Prod.fst).Pairwise (· < ·) ↔
      InOrder (members.map Prod.fst) := by
  constructor
  · intro hsorted
    have henumerated : ((fromEntries (sortMembers members)).map Prod.fst).Pairwise
        fun a b => precedes b a = false := by
      rw [List.pairwise_map]
      exact enumerated_fromEntries (sortMembers_nodup h)
    have hforth : ((fromEntries (sortMembers members)).map Prod.fst).Pairwise
        fun a b => a < b → precedes b a = false := by
      refine henumerated.imp ?_
      intro a b hab _
      exact hab
    -- Of two keys the greater one does not stand first.
    have hback : ((fromEntries (sortMembers members)).map Prod.fst).Pairwise
        fun a b => b < a → precedes a b = false :=
      hsorted.imp fun hab hba => absurd hba (List.lt_asymm hab)
    have hmem : ∀ key, key ∈ members.map Prod.fst →
        key ∈ (fromEntries (sortMembers members)).map Prod.fst := fun key =>
      ((fromEntries_sortMembers_perm h).map Prod.fst).mem_iff.mpr
    intro first hfirst second hsecond
    exact List.Pairwise.forall_of_forall_of_flip (fun key _ hlt => absurd hlt (List.lt_irrefl key))
      hforth hback (hmem first hfirst) (hmem second hsecond)
  · intro horder
    have hmem : ∀ m ∈ sortMembers members, m.1 ∈ members.map Prod.fst := fun m hm =>
      List.mem_map_of_mem ((sortMembers_perm h).mem_iff.mp hm)
    have henumerated : Enumerated (sortMembers members) :=
      List.Pairwise.imp_of_mem (fun hm hn hlt => horder _ (hmem _ hm) _ (hmem _ hn) hlt)
        (sortMembers_pairwise h)
    rw [fromEntries_enumerated (sortMembers_nodup h) henumerated, sortMembers_keys]
    exact sortKeys_pairwise h

end Distinct

-- Sorted members depend on what the members are, not on their order.
theorem sortMembers_congr {members others : List (JsString × α)}
    (h : (members.map Prod.fst).Nodup) (hperm : members.Perm others) :
    sortMembers members = sortMembers others := by
  have h' : (others.map Prod.fst).Nodup := (hperm.map Prod.fst).nodup_iff.mp h
  refine @List.Perm.eq_of_pairwise _ (fun m n => m.1 < n.1) _ _ ?_ (sortMembers_pairwise h)
    (sortMembers_pairwise h') ((sortMembers_perm h).trans (hperm.trans (sortMembers_perm h').symm))
  intro m n _ _ hlt hgt
  exact absurd hgt (List.lt_asymm hlt)

/-! ## Properties of every part of a tree -/

/-- The keys of every object have a property, and every scalar has one. -/
inductive JsonTree.Everywhere {ν : Type} (keys : List JsString → Prop) (scalar : ν → Prop) :
    JsonTree ν → Prop
  | leaf (x : ν) (h : scalar x) : Everywhere keys scalar (.leaf x)
  | array (items : List (JsonTree ν)) (h : ∀ item ∈ items, Everywhere keys scalar item) :
      Everywhere keys scalar (.array items)
  | object (members : List (JsString × JsonTree ν)) (hkeys : keys (members.map Prod.fst))
      (h : ∀ m ∈ members, Everywhere keys scalar m.2) : Everywhere keys scalar (.object members)

namespace JsonTree

variable {ν μ : Type} {keys : List JsString → Prop} {scalar : ν → Prop}

theorem everywhere_leaf {x : ν} : (JsonTree.leaf x).Everywhere keys scalar ↔ scalar x :=
  ⟨fun h => by cases h with | leaf _ h => exact h, fun h => .leaf x h⟩

theorem everywhere_array {items : List (JsonTree ν)} :
    (JsonTree.array items).Everywhere keys scalar ↔
      ∀ item ∈ items, item.Everywhere keys scalar :=
  ⟨fun h => by cases h with | array _ h => exact h, fun h => .array items h⟩

theorem everywhere_object {members : List (JsString × JsonTree ν)} :
    (JsonTree.object members).Everywhere keys scalar ↔
      keys (members.map Prod.fst) ∧ ∀ m ∈ members, m.2.Everywhere keys scalar :=
  ⟨fun h => by cases h with | object _ hkeys h => exact ⟨hkeys, h⟩,
    fun h => .object members h.1 h.2⟩

theorem everywhere_map {f : ν → μ} {scalar : μ → Prop} (t : JsonTree ν) :
    (t.map f).Everywhere keys scalar ↔ t.Everywhere keys fun x => scalar (f x) := by
  induction t using induction_tree with
  | leaf x => rw [map, everywhere_leaf, everywhere_leaf]
  | array items ih =>
    rw [map, mapItems_eq, everywhere_array, everywhere_array, List.forall_mem_map]
    exact forall₂_congr ih
  | object members ih =>
    rw [map, mapMembers_eq, everywhere_object, everywhere_object, map_keys, List.forall_mem_map]
    exact and_congr_right fun _ => forall₂_congr ih

theorem map_map {ξ : Type} (f : ν → μ) (g : μ → ξ) (t : JsonTree ν) :
    (t.map f).map g = t.map fun x => g (f x) := by
  induction t using induction_tree with
  | leaf x => rfl
  | array items ih =>
    rw [map, map, map, mapItems_eq, mapItems_eq, mapItems_eq, List.map_map]
    exact congrArg JsonTree.array (List.map_congr_left ih)
  | object members ih =>
    rw [map, map, map, mapMembers_eq, mapMembers_eq, mapMembers_eq, List.map_map]
    refine congrArg JsonTree.object (List.map_congr_left fun m hm => ?_)
    exact Prod.ext rfl (ih m hm)

-- Relabellings that agree on the scalars of a tree agree on the tree.
theorem map_congr {f g : ν → μ} {t : JsonTree ν} (h : t.Everywhere keys fun x => f x = g x) :
    t.map f = t.map g := by
  induction t using induction_tree with
  | leaf x => rw [map, everywhere_leaf.mp h, map]
  | array items ih =>
    rw [map, map, mapItems_eq, mapItems_eq]
    exact congrArg JsonTree.array (List.map_congr_left fun item hitem =>
      ih item hitem (everywhere_array.mp h item hitem))
  | object members ih =>
    rw [map, map, mapMembers_eq, mapMembers_eq]
    refine congrArg JsonTree.object (List.map_congr_left fun m hm => ?_)
    rw [ih m hm ((everywhere_object.mp h).2 m hm)]

theorem Everywhere.imp {keys' : List JsString → Prop} {scalar' : ν → Prop} {t : JsonTree ν}
    (hkeys : ∀ ks, keys ks → keys' ks) (hscalar : ∀ x, scalar x → scalar' x)
    (h : t.Everywhere keys scalar) : t.Everywhere keys' scalar' := by
  induction t using induction_tree with
  | leaf x => exact .leaf x (hscalar x (everywhere_leaf.mp h))
  | array items ih =>
    exact .array items fun item hitem => ih item hitem (everywhere_array.mp h item hitem)
  | object members ih =>
    obtain ⟨hks, hmembers⟩ := everywhere_object.mp h
    exact .object members (hkeys _ hks) fun m hm => ih m hm (hmembers m hm)

end JsonTree

end Json
