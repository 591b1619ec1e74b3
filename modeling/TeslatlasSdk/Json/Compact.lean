import TeslatlasSdk.Json.Members
import TeslatlasSdk.Json.Write

/-!
# Compact JSON

`JSON.stringify(value)` writes the tokens of a value and nothing between them.
-/

open Text

namespace Json

/-! ## Writing -/

/-- `JSON.stringify` of a scalar: numbers that are not finite are written as `null`. -/
def stringifyScalar : Primitive → JsString
  | .null => js "null"
  | .boolean b => if b then js "true" else js "false"
  | .number x => if x.isFinite then numberToString x else js "null"
  | .string s => stringify s

mutual

/-- `JSON.stringify`. -/
def stringifyTree : Value → JsString
  | .leaf x => stringifyScalar x
  | .array items => 0x5B :: (joinComma (stringifyItems items) ++ [0x5D])
  | .object members => 0x7B :: (joinComma (stringifyMembers members) ++ [0x7D])

def stringifyItems : List Value → List JsString
  | [] => []
  | item :: items => stringifyTree item :: stringifyItems items

def stringifyMembers : List (JsString × Value) → List JsString
  | [] => []
  | (key, value) :: members =>
      (stringify key ++ 0x3A :: stringifyTree value) :: stringifyMembers members

end

theorem stringifyItems_eq (items : List Value) : stringifyItems items = items.map stringifyTree := by
  induction items with
  | nil => rfl
  | cons item items ih => rw [stringifyItems, ih, List.map_cons]

theorem stringifyMembers_eq (members : List (JsString × Value)) :
    stringifyMembers members =
      members.map fun m => stringify m.1 ++ 0x3A :: stringifyTree m.2 := by
  induction members with
  | nil => rfl
  | cons m members ih => rw [stringifyMembers, ih, List.map_cons]

/-- A scalar of a JSON value: its number, if it is one, is finite. -/
def Primitive.IsJson : Primitive → Prop
  | .number x => x.isFinite = true ∧ x.isNormal = true
  | _ => True

/-- The scalar that a primitive is written as. -/
def Primitive.toScalar : Primitive → Scalar
  | .null => .null
  | .boolean b => .boolean b
  | .number x => .number (numberToString x)
  | .string s => .string s

theorem lexes_stringifyScalar {x : Primitive} (h : x.IsJson) :
    Lexes (stringifyScalar x) [.scalar x.toScalar] := by
  cases x with
  | null => exact Lexes.null
  | boolean b => exact Lexes.boolean b
  | number x =>
    rw [stringifyScalar, if_pos h.1]
    exact Lexes.number h.1 h.2
  | string s => exact Lexes.string s

section Lists

variable {keys : List JsString → Prop}

theorem lexes_stringifyItems {items : List Value}
    (h : ∀ item ∈ items, Lexes (stringifyTree item) (treeTokens (item.map Primitive.toScalar))) :
    List.Forall₂ Lexes (stringifyItems items)
      (itemTokens (JsonTree.mapItems Primitive.toScalar items)) := by
  induction items with
  | nil => exact .nil
  | cons item items ih =>
    exact .cons (h item List.mem_cons_self) (ih fun t ht => h t (List.mem_cons_of_mem item ht))

theorem lexes_stringifyMembers {members : List (JsString × Value)}
    (h : ∀ m ∈ members, Lexes (stringifyTree m.2) (treeTokens (m.2.map Primitive.toScalar))) :
    List.Forall₂ Lexes (stringifyMembers members)
      (memberTokens (JsonTree.mapMembers Primitive.toScalar members)) := by
  induction members with
  | nil => exact .nil
  | cons m members ih =>
    obtain ⟨key, value⟩ := m
    refine .cons ?_ (ih fun m' hm => h m' (List.mem_cons_of_mem (key, value) hm))
    exact (Lexes.string key).append (EndsNumber.cons rfl _)
      (Lexes.punctuation rfl rfl (h (key, value) List.mem_cons_self))

-- The text of a value is cut into the value's tokens.
theorem lexes_stringifyTree {t : Value} (h : t.Everywhere keys Primitive.IsJson) :
    Lexes (stringifyTree t) (treeTokens (t.map Primitive.toScalar)) := by
  induction t using JsonTree.induction_tree with
  | leaf x => exact lexes_stringifyScalar (JsonTree.everywhere_leaf.mp h)
  | array items ih =>
    rw [stringifyTree, JsonTree.map, treeTokens]
    exact Lexes.punctuation rfl rfl (Lexes.joined (EndsNumber.cons rfl _)
      (Lexes.punctuation rfl rfl Lexes.nil)
      (lexes_stringifyItems fun item hitem =>
        ih item hitem (JsonTree.everywhere_array.mp h item hitem)))
  | object members ih =>
    rw [stringifyTree, JsonTree.map, treeTokens]
    exact Lexes.punctuation rfl rfl (Lexes.joined (EndsNumber.cons rfl _)
      (Lexes.punctuation rfl rfl Lexes.nil)
      (lexes_stringifyMembers fun m hm => ih m hm ((JsonTree.everywhere_object.mp h).2 m hm)))

-- The text of a value is parsed to the value's tree, its members where they were written.
theorem parse_stringifyTree {t : Value} (h : t.Everywhere keys Primitive.IsJson) :
    parse (stringifyTree t) = some (t.map Primitive.toScalar) :=
  parse_of_lexes (lexes_stringifyTree h)

end Lists

/-! ## Zeros -/

/-- The scalar with zero unsigned. -/
def unsignedScalar : Primitive → Primitive
  | .number x => .number x.unsignedZero
  | x => x

theorem toPrimitive_toScalar {x : Primitive} (h : x.IsJson) :
    x.toScalar.toPrimitive = unsignedScalar x := by
  cases x with
  | null | boolean | string => rfl
  | number x =>
    show Primitive.number (numberOfToken (numberToString x)) = _
    rw [(numberToString_spec h.1 h.2).1]
    rfl

theorem numberToString_unsignedZero (x : Binary64) :
    numberToString x.unsignedZero = numberToString x := by
  cases x with
  | infinite negative => rfl
  | finite negative m e =>
    rcases Nat.eq_zero_or_pos m with rfl | hm
    · rw [Binary64.unsignedZero, numberToString, if_pos rfl, numberToString, if_pos rfl]
    · have hne : (m != 0) = true := bne_iff_ne.mpr (by omega)
      rw [Binary64.unsignedZero, hne, Bool.and_true]

theorem stringifyScalar_unsigned (x : Primitive) :
    stringifyScalar (unsignedScalar x) = stringifyScalar x := by
  cases x with
  | null | boolean | string => rfl
  | number x =>
    rw [unsignedScalar, stringifyScalar, numberToString_unsignedZero, stringifyScalar]
    cases x with
    | infinite negative => rfl
    | finite negative m e => rfl

end Json
