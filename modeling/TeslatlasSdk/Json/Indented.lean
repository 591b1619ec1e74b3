import TeslatlasSdk.Json.Write
import TeslatlasSdk.Text.WellFormed

/-!
# Indented JSON

`JSON.stringify(value, null, 2)` writes the tokens of a value with line breaks between them.
-/

open Text

namespace Json

variable {ν : Type}

section Writer

variable (text : ν → JsString)

mutual

/-- A tree whose lines begin with the margin, which has the line break in it. -/
def indentTree (margin : JsString) : JsonTree ν → JsString
  | .leaf x => text x
  | .array items =>
      0x5B :: (joinComma (indentItems (margin ++ [0x20, 0x20]) items) ++
        ((if items.isEmpty then [] else margin) ++ [0x5D]))
  | .object members =>
      0x7B :: (joinComma (indentMembers (margin ++ [0x20, 0x20]) members) ++
        ((if members.isEmpty then [] else margin) ++ [0x7D]))

def indentItems (margin : JsString) : List (JsonTree ν) → List JsString
  | [] => []
  | item :: items => (margin ++ indentTree margin item) :: indentItems margin items

def indentMembers (margin : JsString) : List (JsString × JsonTree ν) → List JsString
  | [] => []
  | (key, value) :: members =>
      (margin ++ (stringify key ++ 0x3A :: 0x20 :: indentTree margin value)) ::
        indentMembers margin members

end

end Writer

variable {text : ν → JsString} {scalar : ν → Scalar}

/-! ## Tokens -/

/-- White space. -/
def IsMargin (margin : JsString) : Prop := ∀ u ∈ margin, isJsonWhiteSpace u = true

theorem IsMargin.indent {margin : JsString} (h : IsMargin margin) :
    IsMargin (margin ++ [0x20, 0x20]) := by
  intro u hu
  rcases List.mem_append.mp hu with hu | hu
  · exact h u hu
  · rcases List.mem_cons.mp hu with rfl | hu
    · rfl
    · rw [List.mem_singleton.mp hu]
      rfl

theorem Lexes.margin {margin s : JsString} {ts : List Token} (h : IsMargin margin)
    (hs : Lexes s ts) : Lexes (margin ++ s) ts := by
  induction margin with
  | nil => exact hs
  | cons u margin ih =>
    exact Lexes.whiteSpace (h u List.mem_cons_self) (ih fun v hv => h v (List.mem_cons_of_mem u hv))

theorem not_isNumberUnit_whiteSpace {u : CodeUnit} (h : isJsonWhiteSpace u = true) :
    isNumberUnit u = false := by
  simp only [isJsonWhiteSpace, Bool.or_eq_true, decide_eq_true_eq] at h
  rcases h with ((rfl | rfl) | rfl) | rfl <;> rfl

theorem EndsNumber.margin {margin s : JsString} (h : IsMargin margin) (hs : EndsNumber s) :
    EndsNumber (margin ++ s) := by
  cases margin with
  | nil => exact hs
  | cons u margin =>
    exact EndsNumber.cons (not_isNumberUnit_whiteSpace (h u List.mem_cons_self)) _

theorem IsMargin.close {margin : JsString} (h : IsMargin margin) (b : Bool) :
    IsMargin (if b then [] else margin) := by
  cases b with
  | true =>
    intro u hu
    cases hu
  | false => exact h

theorem lexes_indentItems {margin : JsString} (hmargin : IsMargin margin)
    {items : List (JsonTree ν)} (h : ∀ item ∈ items, ∀ margin, IsMargin margin →
      Lexes (indentTree text margin item) (treeTokens (item.map scalar))) :
    List.Forall₂ Lexes (indentItems text margin items)
      (itemTokens (JsonTree.mapItems scalar items)) := by
  induction items with
  | nil => exact .nil
  | cons item items ih =>
    exact .cons (Lexes.margin hmargin (h item List.mem_cons_self margin hmargin))
      (ih fun item' hitem => h item' (List.mem_cons_of_mem item hitem))

theorem lexes_indentMembers {margin : JsString} (hmargin : IsMargin margin)
    {members : List (JsString × JsonTree ν)} (h : ∀ m ∈ members, ∀ margin, IsMargin margin →
      Lexes (indentTree text margin m.2) (treeTokens (m.2.map scalar))) :
    List.Forall₂ Lexes (indentMembers text margin members)
      (memberTokens (JsonTree.mapMembers scalar members)) := by
  induction members with
  | nil => exact .nil
  | cons m members ih =>
    obtain ⟨key, value⟩ := m
    refine .cons (Lexes.margin hmargin ?_)
      (ih fun m' hm => h m' (List.mem_cons_of_mem (key, value) hm))
    exact (Lexes.string key).append (EndsNumber.cons rfl _) (Lexes.punctuation rfl rfl
      (Lexes.whiteSpace rfl (h (key, value) List.mem_cons_self margin hmargin)))

-- An indented tree is written with the tokens of the tree.
theorem lexes_indentTree (hscalar : ∀ x, Lexes (text x) [.scalar (scalar x)]) (t : JsonTree ν) :
    ∀ margin, IsMargin margin → Lexes (indentTree text margin t) (treeTokens (t.map scalar)) := by
  induction t using JsonTree.induction_tree with
  | leaf x => exact fun _ _ => hscalar x
  | array items ih =>
    intro margin hmargin
    rw [indentTree, JsonTree.map, treeTokens]
    exact Lexes.punctuation rfl rfl (Lexes.joined (EndsNumber.margin (hmargin.close _)
      (EndsNumber.cons rfl _)) (Lexes.margin (hmargin.close _) (Lexes.punctuation rfl rfl Lexes.nil))
      (lexes_indentItems hmargin.indent ih))
  | object members ih =>
    intro margin hmargin
    rw [indentTree, JsonTree.map, treeTokens]
    exact Lexes.punctuation rfl rfl (Lexes.joined (EndsNumber.margin (hmargin.close _)
      (EndsNumber.cons rfl _)) (Lexes.margin (hmargin.close _) (Lexes.punctuation rfl rfl Lexes.nil))
      (lexes_indentMembers hmargin.indent ih))

/-! ## No surrogate is cut from its partner -/

theorem isWellFormed_unicodeEscape (u : CodeUnit) : isWellFormed (unicodeEscape u) = true := by
  have hhex : ∀ n, n < 16 → (hexUnitOf n).toNat < 0xD800 := by decide
  have hu : u.toNat < 0x10000 := u.toNat_lt
  refine isWellFormed_of_lt fun v hv => ?_
  simp only [unicodeEscape, List.mem_cons, List.not_mem_nil, or_false] at hv
  rcases hv with rfl | rfl | rfl | rfl | rfl | rfl
  · decide
  · decide
  · exact hhex _ (by omega)
  · exact hhex _ (by omega)
  · exact hhex _ (by omega)
  · exact hhex _ (by omega)

theorem isWellFormed_quoteUnit (u : CodeUnit) : isWellFormed (quoteUnit u) = true := by
  unfold quoteUnit
  split
  · rfl
  split
  · rfl
  split
  · rfl
  split
  · rfl
  split
  · rfl
  split
  · next h =>
    rcases h with rfl | rfl
    · rfl
    · rfl
  split
  · exact isWellFormed_unicodeEscape u
  · next h =>
    simp only [not_or, Bool.not_eq_true] at h
    rw [isWellFormed_cons h.2.1 h.2.2, isWellFormed]

theorem isWellFormed_quoteUnits (s : JsString) : isWellFormed (quoteUnits s) = true := by
  fun_induction quoteUnits s with
  | case1 => rfl
  | case2 u => exact isWellFormed_quoteUnit u
  | case3 u v s hpair ih => rw [isWellFormed, if_pos hpair, ih]
  | case4 u v s hpair ih => exact isWellFormed_append (isWellFormed_quoteUnit u) ih

theorem isWellFormed_unit {u : CodeUnit} (h : u.toNat < 0xD800) {s : JsString}
    (hs : isWellFormed s = true) : isWellFormed (u :: s) = true :=
  isWellFormed_append (s := [u]) (isWellFormed_of_lt fun _ hv => List.mem_singleton.mp hv ▸ h) hs

theorem isWellFormed_stringify (s : JsString) : isWellFormed (stringify s) = true :=
  isWellFormed_unit (by decide) (isWellFormed_append (isWellFormed_quoteUnits s) rfl)

theorem isWellFormed_margin {margin : JsString} (h : IsMargin margin) :
    isWellFormed margin = true := by
  refine isWellFormed_of_lt fun u hu => ?_
  have hspace := h u hu
  simp only [isJsonWhiteSpace, Bool.or_eq_true, decide_eq_true_eq] at hspace
  rcases hspace with ((rfl | rfl) | rfl) | rfl <;> decide

theorem isWellFormed_joinComma {texts : List JsString}
    (h : ∀ text ∈ texts, isWellFormed text = true) : isWellFormed (joinComma texts) = true := by
  fun_induction joinComma texts with
  | case1 => rfl
  | case2 text => exact h text List.mem_cons_self
  | case3 text rest hrest ih =>
    exact isWellFormed_append (h text List.mem_cons_self) (isWellFormed_unit (by decide)
      (ih fun text' htext => h text' (List.mem_cons_of_mem text htext)))

theorem mem_indentItems {margin s : JsString} {items : List (JsonTree ν)}
    (h : s ∈ indentItems text margin items) :
    ∃ item ∈ items, s = margin ++ indentTree text margin item := by
  induction items with
  | nil => cases h
  | cons item items ih =>
    rcases List.mem_cons.mp h with rfl | h
    · exact ⟨item, List.mem_cons_self, rfl⟩
    · obtain ⟨item', hitem, hs⟩ := ih h
      exact ⟨item', List.mem_cons_of_mem item hitem, hs⟩

theorem mem_indentMembers {margin s : JsString} {members : List (JsString × JsonTree ν)}
    (h : s ∈ indentMembers text margin members) :
    ∃ m ∈ members,
      s = margin ++ (stringify m.1 ++ 0x3A :: 0x20 :: indentTree text margin m.2) := by
  induction members with
  | nil => cases h
  | cons m members ih =>
    obtain ⟨key, value⟩ := m
    rcases List.mem_cons.mp h with rfl | h
    · exact ⟨(key, value), List.mem_cons_self, rfl⟩
    · obtain ⟨m', hm, hs⟩ := ih h
      exact ⟨m', List.mem_cons_of_mem (key, value) hm, hs⟩

theorem isWellFormed_indentTree (htext : ∀ x, isWellFormed (text x) = true) (t : JsonTree ν) :
    ∀ margin, IsMargin margin → isWellFormed (indentTree text margin t) = true := by
  induction t using JsonTree.induction_tree with
  | leaf x => exact fun _ _ => htext x
  | array items ih =>
    intro margin hmargin
    refine isWellFormed_unit (by decide) (isWellFormed_append (isWellFormed_joinComma fun s hs => ?_)
      (isWellFormed_append (isWellFormed_margin (hmargin.close _)) rfl))
    obtain ⟨item, hitem, rfl⟩ := mem_indentItems hs
    exact isWellFormed_append (isWellFormed_margin hmargin.indent) (ih item hitem _ hmargin.indent)
  | object members ih =>
    intro margin hmargin
    refine isWellFormed_unit (by decide) (isWellFormed_append (isWellFormed_joinComma fun s hs => ?_)
      (isWellFormed_append (isWellFormed_margin (hmargin.close _)) rfl))
    obtain ⟨m, hm, rfl⟩ := mem_indentMembers hs
    exact isWellFormed_append (isWellFormed_margin hmargin.indent)
      (isWellFormed_append (isWellFormed_stringify m.1) (isWellFormed_unit (by decide)
        (isWellFormed_unit (by decide) (ih m hm _ hmargin.indent))))

end Json
