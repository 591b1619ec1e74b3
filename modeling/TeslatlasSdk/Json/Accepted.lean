import TeslatlasSdk.Json.Write

/-!
# What the reader of tokens accepts

The states of the reader are spelled by the tokens that lead to them, so that it accepts the tokens
of trees and nothing else.
-/

open Text

namespace Json

/-! ## Lists with commas -/

theorem commaTokens_cons (tokens : List Token) {lists : List (List Token)} (h : lists ≠ []) :
    commaTokens (tokens :: lists) = tokens ++ .comma :: commaTokens lists := by
  obtain ⟨next, lists, rfl⟩ := List.exists_cons_of_ne_nil h
  rfl

theorem commaTokens_append (lists : List (List Token)) (tokens : List Token) :
    commaTokens (lists ++ [tokens]) = lists.flatMap (· ++ [.comma]) ++ tokens := by
  induction lists with
  | nil => rfl
  | cons first lists ih =>
    cases lists with
    | nil => simp [commaTokens]
    | cons next lists =>
      have hcomma : commaTokens (first :: next :: lists ++ [tokens]) =
          first ++ .comma :: commaTokens (next :: lists ++ [tokens]) := rfl
      rw [hcomma, ih]
      simp

theorem itemTokens_append (items : List (JsonTree Scalar)) (item : JsonTree Scalar) :
    itemTokens (items ++ [item]) = itemTokens items ++ [treeTokens item] := by
  induction items with
  | nil => rfl
  | cons first items ih => rw [List.cons_append, itemTokens, itemTokens, ih, List.cons_append]

theorem memberTokens_append (members : List (JsString × JsonTree Scalar)) (key : JsString)
    (value : JsonTree Scalar) :
    memberTokens (members ++ [(key, value)]) =
      memberTokens members ++ [.scalar (.string key) :: .colon :: treeTokens value] := by
  induction members with
  | nil => rfl
  | cons first members ih => rw [List.cons_append, memberTokens, memberTokens, ih, List.cons_append]

theorem itemTokens_ne_nil {items : List (JsonTree Scalar)} (h : items ≠ []) :
    itemTokens items ≠ [] := by
  obtain ⟨item, items, rfl⟩ := List.exists_cons_of_ne_nil h
  exact List.cons_ne_nil _ _

theorem memberTokens_ne_nil {members : List (JsString × JsonTree Scalar)} (h : members ≠ []) :
    memberTokens members ≠ [] := by
  obtain ⟨m, members, rfl⟩ := List.exists_cons_of_ne_nil h
  exact List.cons_ne_nil _ _

theorem flatMap_comma {lists : List (List Token)} (h : lists ≠ []) :
    lists.flatMap (· ++ [.comma]) = commaTokens lists ++ [.comma] := by
  obtain ⟨front, last, rfl⟩ : ∃ front last, lists = front ++ [last] :=
    ⟨lists.dropLast, lists.getLast h, (List.dropLast_append_getLast h).symm⟩
  rw [commaTokens_append, List.flatMap_append, List.flatMap_singleton, List.append_assoc]

/-! ## Spelling states -/

def Frame.tokens : Frame → List Token
  | .array items => .openBracket :: (itemTokens items).flatMap (· ++ [.comma])
  | .member members key =>
      .openBrace :: (memberTokens members).flatMap (· ++ [.comma]) ++
        [.scalar (.string key), .colon]

/-- The tokens in front of the innermost value. -/
def stackTokens (stack : List Frame) : List Token := stack.reverse.flatMap Frame.tokens

theorem stackTokens_cons (frame : Frame) (stack : List Frame) :
    stackTokens (frame :: stack) = stackTokens stack ++ frame.tokens := by
  rw [stackTokens, List.reverse_cons, List.flatMap_append, stackTokens, List.flatMap_singleton]

namespace ParserState

/-- The tokens that lead to a state. -/
def tokens : ParserState → List Token
  | .value stack => stackTokens stack
  | .firstItem stack => stackTokens stack ++ [.openBracket]
  | .firstKey stack => stackTokens stack ++ [.openBrace]
  | .key members stack =>
      stackTokens stack ++ .openBrace :: (memberTokens members).flatMap (· ++ [.comma])
  | .colon members k stack =>
      stackTokens stack ++ (.openBrace :: (memberTokens members).flatMap (· ++ [.comma]) ++
        [.scalar (.string k)])
  | .afterItem items stack => stackTokens stack ++ .openBracket :: commaTokens (itemTokens items)
  | .afterMember members stack =>
      stackTokens stack ++ .openBrace :: commaTokens (memberTokens members)
  | .done tree => treeTokens tree

theorem tokens_complete (tree : JsonTree Scalar) (stack : List Frame) :
    (complete tree stack).tokens = stackTokens stack ++ treeTokens tree := by
  cases stack with
  | nil => rfl
  | cons frame stack =>
    rw [stackTokens_cons]
    cases frame with
    | array items =>
      rw [complete, tokens, itemTokens_append, commaTokens_append, Frame.tokens, List.append_assoc,
        List.cons_append]
    | member members k =>
      rw [complete, tokens, memberTokens_append, commaTokens_append, Frame.tokens,
        List.append_assoc, List.append_assoc, List.cons_append]
      rfl

theorem tokens_start {stack : List Frame} {token : Token} {next : ParserState}
    (h : start stack token = some next) : next.tokens = stackTokens stack ++ [token] := by
  cases token with
  | scalar x =>
    obtain rfl := Option.some.inj h
    rw [tokens_complete]
    rfl
  | openBracket =>
    obtain rfl := Option.some.inj h
    rfl
  | openBrace =>
    obtain rfl := Option.some.inj h
    rfl
  | _ => cases h

/-- After an item there is one, and after a member. -/
def HasRead : ParserState → Prop
  | .afterItem items _ => items ≠ []
  | .afterMember members _ => members ≠ []
  | _ => True

theorem hasRead_complete (tree : JsonTree Scalar) (stack : List Frame) :
    (complete tree stack).HasRead := by
  cases stack with
  | nil => trivial
  | cons frame stack =>
    cases frame with
    | array items => exact List.append_ne_nil_of_right_ne_nil _ (List.cons_ne_nil _ _)
    | member members k => exact List.append_ne_nil_of_right_ne_nil _ (List.cons_ne_nil _ _)

theorem hasRead_start {stack : List Frame} {token : Token} {next : ParserState}
    (h : start stack token = some next) : next.HasRead := by
  cases token with
  | scalar x =>
    obtain rfl := Option.some.inj h
    exact hasRead_complete _ _
  | openBracket =>
    obtain rfl := Option.some.inj h
    trivial
  | openBrace =>
    obtain rfl := Option.some.inj h
    trivial
  | _ => cases h

-- One token takes a state to one that it spells.
theorem tokens_step {state next : ParserState} {token : Token} (hread : state.HasRead)
    (h : state.step token = some next) :
    next.tokens = state.tokens ++ [token] ∧ next.HasRead := by
  unfold step at h
  split at h
  · exact ⟨tokens_start h, hasRead_start h⟩
  · obtain rfl := Option.some.inj h
    refine ⟨?_, hasRead_complete _ _⟩
    rw [tokens_complete, tokens, List.append_assoc]
    rfl
  · refine ⟨?_, hasRead_start h⟩
    rw [tokens_start h, stackTokens_cons]
    rfl
  · obtain rfl := Option.some.inj h
    refine ⟨?_, trivial⟩
    rw [tokens, tokens, stackTokens_cons, Frame.tokens, flatMap_comma (itemTokens_ne_nil hread),
      List.append_assoc, List.cons_append]
  · obtain rfl := Option.some.inj h
    refine ⟨?_, hasRead_complete _ _⟩
    rw [tokens_complete, tokens, treeTokens, List.append_assoc, List.cons_append]
  · obtain rfl := Option.some.inj h
    refine ⟨?_, hasRead_complete _ _⟩
    rw [tokens_complete, tokens, List.append_assoc]
    rfl
  · obtain rfl := Option.some.inj h
    refine ⟨?_, trivial⟩
    rw [tokens, tokens, List.append_assoc]
    rfl
  · obtain rfl := Option.some.inj h
    refine ⟨?_, trivial⟩
    rw [tokens, tokens, List.append_assoc, List.cons_append]
  · obtain rfl := Option.some.inj h
    refine ⟨?_, trivial⟩
    rw [tokens, tokens, stackTokens_cons, Frame.tokens, List.append_assoc, List.append_assoc,
      List.singleton_append]
  · obtain rfl := Option.some.inj h
    refine ⟨?_, trivial⟩
    rw [tokens, tokens, flatMap_comma (memberTokens_ne_nil hread), List.append_assoc,
      List.cons_append]
  · obtain rfl := Option.some.inj h
    refine ⟨?_, hasRead_complete _ _⟩
    rw [tokens_complete, tokens, treeTokens, List.append_assoc, List.cons_append]
  · cases h

theorem tokens_run {state last : ParserState} {ts : List Token} (hread : state.HasRead)
    (h : state.run ts = some last) : last.tokens = state.tokens ++ ts := by
  induction ts generalizing state with
  | nil =>
    obtain rfl := Option.some.inj h
    exact (List.append_nil _).symm
  | cons token ts ih =>
    rw [run, Option.bind_eq_some_iff] at h
    obtain ⟨next, hnext, hrun⟩ := h
    obtain ⟨htokens, hread'⟩ := tokens_step hread hnext
    rw [ih hread' hrun, htokens, List.append_assoc, List.singleton_append]

end ParserState

-- Only the tokens of a tree are read as the tree.
theorem parseTokens_eq_some {ts : List Token} {tree : JsonTree Scalar} :
    parseTokens ts = some tree ↔ ts = treeTokens tree := by
  constructor
  · intro h
    rw [parseTokens] at h
    split at h
    · next last hrun =>
      obtain rfl := Option.some.inj h
      have hread : (ParserState.value []).HasRead := trivial
      exact (ParserState.tokens_run hread hrun).symm
    · cases h
  · rintro rfl
    have hrun := ParserState.readsTree tree [] []
    rw [List.append_nil] at hrun
    rw [parseTokens, hrun]
    rfl

end Json
