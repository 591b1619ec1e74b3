import TeslatlasSdk.Json.NumberText
import TeslatlasSdk.Json.Quote

/-!
# What is written is read back

Rules for the texts that JSON writers put together: each piece is cut into its own tokens, and the
tokens of a tree are read as the tree.
-/

open Text

namespace Json

/-! ## Strings -/

theorem hexDigit_hexUnitOf : ∀ n, n < 16 → hexDigit (hexUnitOf n) = some n := by decide

theorem hexUnit_unicodeEscape (u : CodeUnit) :
    hexUnit (hexUnitOf (u.toNat / 0x1000)) (hexUnitOf (u.toNat / 0x100 % 0x10))
      (hexUnitOf (u.toNat / 0x10 % 0x10)) (hexUnitOf (u.toNat % 0x10)) = some u := by
  have hu : u.toNat < 0x10000 := u.toNat_lt
  rw [hexUnit, hexDigit_hexUnitOf _ (by omega), hexDigit_hexUnitOf _ (by omega),
    hexDigit_hexUnitOf _ (by omega), hexDigit_hexUnitOf _ (by omega)]
  have hsum : ((u.toNat / 0x1000 * 16 + u.toNat / 0x100 % 0x10) * 16 + u.toNat / 0x10 % 0x10) * 16 +
      u.toNat % 0x10 = u.toNat := by omega
  simp only [hsum, UInt16.ofNat_toNat]

theorem lexString_quoteUnit (u : CodeUnit) (s : JsString) :
    lexString (quoteUnit u ++ s) = (lexString s).map (prependUnit u) := by
  have hsimple : ∀ e, e ≠ 0x75 → simpleEscape e = some u →
      lexString ([backslash, e] ++ s) = (lexString s).map (prependUnit u) := fun e he hu =>
    lexString_simple he hu s
  unfold quoteUnit
  split
  · next h => exact hsimple 0x62 (by decide) (by rw [h]; rfl)
  split
  · next h => exact hsimple 0x74 (by decide) (by rw [h]; rfl)
  split
  · next h => exact hsimple 0x6E (by decide) (by rw [h]; rfl)
  split
  · next h => exact hsimple 0x66 (by decide) (by rw [h]; rfl)
  split
  · next h => exact hsimple 0x72 (by decide) (by rw [h]; rfl)
  split
  · next h =>
    rcases h with rfl | rfl
    · exact hsimple quote (by decide) rfl
    · exact hsimple backslash (by decide) rfl
  split
  · exact lexString_unicode (hexUnit_unicodeEscape u) s
  · next hquote hcontrol =>
    simp only [not_or] at hquote hcontrol
    exact lexString_plain hquote.1 hquote.2 hcontrol.1 s

theorem lexString_surrogate {u : CodeUnit} (h : isHighSurrogate u = true ∨ isLowSurrogate u = true)
    (s : JsString) : lexString (u :: s) = (lexString s).map (prependUnit u) := by
  have hlow : 0xD800 ≤ u.toNat := by
    simp only [isHighSurrogate, isLowSurrogate, Bool.and_eq_true, decide_eq_true_eq,
      UInt16.le_iff_toNat_le] at h
    rcases h with h | h
    · exact h.1
    · exact Nat.le_trans (by decide) h.1
  have hne : ∀ v : CodeUnit, v.toNat < 0xD800 → u ≠ v := by
    rintro v hv rfl
    omega
  have hcontrol : ¬ u < 0x20 := by
    rw [UInt16.lt_iff_toNat_lt]
    have h20 : (0x20 : CodeUnit).toNat = 0x20 := rfl
    omega
  exact lexString_plain (hne _ (by decide)) (hne _ (by decide)) hcontrol s

-- A string's literal is read as the string.
theorem lexString_quoteUnits (s later : JsString) :
    lexString (quoteUnits s ++ quote :: later) = some (s, later) := by
  fun_induction quoteUnits s with
  | case1 => exact lexString_quote later
  | case2 u =>
    rw [lexString_quoteUnit, lexString_quote]
    rfl
  | case3 u v s hpair ih =>
    rw [Bool.and_eq_true] at hpair
    rw [List.cons_append, List.cons_append, lexString_surrogate (.inl hpair.1),
      lexString_surrogate (.inr hpair.2), ih]
    rfl
  | case4 u v s _ ih =>
    rw [List.append_assoc, lexString_quoteUnit, ih]
    rfl

/-! ## Pieces of a text -/

theorem EndsNumber.append {first later : JsString} (hfirst : EndsNumber first)
    (hlater : EndsNumber later) : EndsNumber (first ++ later) := by
  intro u s h
  cases first with
  | nil => exact hlater u s h
  | cons v t =>
    rw [List.cons_append, List.cons.injEq] at h
    exact hfirst u t (by rw [h.1])

theorem EndsNumber.cons {u : CodeUnit} (h : isNumberUnit u = false) (s : JsString) :
    EndsNumber (u :: s) := by
  intro v t heq
  rw [List.cons.injEq] at heq
  rw [← heq.1]
  exact h

/-- The text is cut into the tokens, whatever comes behind that does not lengthen a number. -/
def Lexes (text : JsString) (tokens : List Token) : Prop :=
  ∀ later, EndsNumber later → lex (text ++ later) = (lex later).map (tokens ++ ·)

theorem map_append (first second : List Token) (tokens : Option (List Token)) :
    (tokens.map (second ++ ·)).map (first ++ ·) = tokens.map ((first ++ second) ++ ·) := by
  cases tokens with
  | none => rfl
  | some tokens => simp

theorem Lexes.append {first second : JsString} {ts us : List Token} (h : Lexes first ts)
    (hends : EndsNumber second) (h' : Lexes second us) : Lexes (first ++ second) (ts ++ us) := by
  intro later hlater
  rw [List.append_assoc, h _ (hends.append hlater), h' later hlater, map_append]

theorem Lexes.punctuation {u : CodeUnit} {token : Token} (hw : isJsonWhiteSpace u = false)
    (hp : punctuation u = some token) {text : JsString} {ts : List Token} (h : Lexes text ts) :
    Lexes (u :: text) (token :: ts) := by
  intro later hlater
  rw [List.cons_append, lex_punctuation hw hp, h later hlater]
  exact map_append [token] ts (lex later)

theorem Lexes.whiteSpace {u : CodeUnit} (hw : isJsonWhiteSpace u = true) {text : JsString}
    {ts : List Token} (h : Lexes text ts) : Lexes (u :: text) ts := by
  intro later hlater
  rw [List.cons_append, lex_whiteSpace hw, h later hlater]

theorem Lexes.nil : Lexes [] [] := by
  intro later hlater
  cases hlex : lex later with
  | none => rw [List.nil_append, hlex]; rfl
  | some tokens => rw [List.nil_append, hlex]; rfl

-- A literal is a token when what stands between its quotes is read as the string.
theorem Lexes.literal {units s : JsString}
    (h : ∀ later, lexString (units ++ quote :: later) = some (s, later)) :
    Lexes (quote :: units ++ [quote]) [.scalar (.string s)] := by
  intro later _
  have htext : quote :: units ++ [quote] ++ later = quote :: (units ++ quote :: later) := by simp
  have hscalar : matchScalar (quote :: (units ++ quote :: later)) = some (.string s, later) := by
    rw [matchScalar, if_pos rfl, h]
    rfl
  rw [htext, lex_scalar rfl rfl hscalar]
  rfl

theorem Lexes.string (s : JsString) : Lexes (stringify s) [.scalar (.string s)] :=
  Lexes.literal (lexString_quoteUnits s)

-- A text is a number token when the number that is matched in front of anything is the text.
theorem Lexes.numeral {text : JsString}
    (h : ∀ later, EndsNumber later → matchNumber (text ++ later) = some (text, later)) :
    Lexes text [.scalar (.number text)] := by
  intro later hlater
  have hmatch := h later hlater
  obtain ⟨happ, hne, hunits⟩ := matchNumber_spec hmatch
  obtain ⟨u, s, hs⟩ := List.exists_cons_of_ne_nil hne
  have hu := hunits u (by rw [hs]; exact List.mem_cons_self)
  have hplain : isJsonWhiteSpace u = false ∧ Json.punctuation u = none ∧ u ≠ quote := by
    have hall : ∀ v : CodeUnit, (isJsonWhiteSpace v = true ∨ (Json.punctuation v).isSome = true ∨
        v = quote) → isNumberUnit v = false := by
      intro v hv
      have hmem : v ∈ ([0x20, 0x09, 0x0A, 0x0D, 0x7B, 0x7D, 0x5B, 0x5D, 0x2C, 0x3A, 0x22] :
          List CodeUnit) := by
        rcases hv with hv | hv | hv
        · simp only [isJsonWhiteSpace, Bool.or_eq_true, decide_eq_true_eq] at hv
          rcases hv with ((rfl | rfl) | rfl) | rfl <;> decide
        · unfold Json.punctuation at hv
          simp only [List.mem_cons, List.not_mem_nil, or_false]
          grind
        · rw [hv]
          decide
      have hnone : ([0x20, 0x09, 0x0A, 0x0D, 0x7B, 0x7D, 0x5B, 0x5D, 0x2C, 0x3A, 0x22] :
          List CodeUnit).all (fun w => !isNumberUnit w) = true := rfl
      simpa using List.all_eq_true.mp hnone v hmem
    refine ⟨?_, ?_, ?_⟩
    · by_contra hw
      rw [hall u (.inl (by simpa using hw))] at hu
      cases hu
    · by_contra hp
      rw [hall u (.inr (.inl (Option.isSome_iff_ne_none.mpr hp)))] at hu
      cases hu
    · rintro rfl
      cases hu
  rw [hs, List.cons_append] at hmatch ⊢
  have hscalar : matchScalar (u :: (s ++ later)) = some (.number (u :: s), later) := by
    rw [matchScalar, if_neg hplain.2.2, hmatch]
  rw [lex_scalar hplain.1 hplain.2.1 hscalar]
  rfl

theorem Lexes.number {x : Binary64} (hfinite : x.isFinite = true) (hnormal : x.isNormal = true) :
    Lexes (numberToString x) [.scalar (.number (numberToString x))] :=
  Lexes.numeral (numberToString_spec hfinite hnormal).2

theorem Lexes.decimal (n : Nat) : Lexes (decimal n) [.scalar (.number (decimal n))] := by
  have hparts : TokenParts.WellFormed ⟨Text.decimal n, [], []⟩ := by
    refine ⟨?_, .inl rfl, .inl rfl⟩
    rcases Nat.eq_zero_or_pos n with rfl | hn
    · exact ⟨0x30, [], by rw [Text.decimal]; rfl, isDigit_decimal 0, .inr rfl⟩
    · obtain ⟨u, s, hs, hu⟩ := head_decimal hn
      exact ⟨u, s, hs, isDigit_decimal n, .inl hu⟩
  have htext : TokenParts.text ⟨Text.decimal n, [], []⟩ = Text.decimal n := by
    rw [TokenParts.text, List.append_nil, List.append_nil]
  refine Lexes.numeral fun later hlater => ?_
  have hmatch := hparts.matchNumber_eq hlater
  rw [htext] at hmatch
  exact hmatch

theorem Lexes.null : Lexes (js "null") [.scalar .null] := by
  intro later _
  have hscalar : matchScalar (js "null" ++ later) = some (.null, later) := rfl
  exact lex_scalar rfl rfl hscalar

theorem Lexes.boolean (b : Bool) :
    Lexes (if b then js "true" else js "false") [.scalar (.boolean b)] := by
  intro later _
  cases b with
  | true =>
    have hscalar : matchScalar (js "true" ++ later) = some (.boolean true, later) := rfl
    exact lex_scalar rfl rfl hscalar
  | false =>
    have hscalar : matchScalar (js "false" ++ later) = some (.boolean false, later) := rfl
    exact lex_scalar rfl rfl hscalar

/-- `texts.join(",")`. -/
def joinComma : List JsString → JsString
  | [] => []
  | [text] => text
  | text :: rest => text ++ 0x2C :: joinComma rest

/-! ## Trees -/

/-- Lists of tokens with commas between them. -/
def commaTokens : List (List Token) → List Token
  | [] => []
  | [ts] => ts
  | ts :: rest => ts ++ .comma :: commaTokens rest

-- Joined texts are cut into the tokens of each, with commas between them.
theorem Lexes.joined {texts : List JsString} {tokens : List (List Token)} {tail : JsString}
    {ts : List Token} (hends : EndsNumber tail) (htail : Lexes tail ts)
    (h : List.Forall₂ Lexes texts tokens) :
    Lexes (joinComma texts ++ tail) (commaTokens tokens ++ ts) := by
  induction h with
  | nil => exact htail
  | @cons text us texts tokens hfirst hrest ih =>
    cases hrest with
    | nil => exact hfirst.append hends htail
    | @cons next vs texts tokens hnext hrest =>
      have hcomma : EndsNumber (0x2C :: (joinComma (next :: texts) ++ tail)) :=
        EndsNumber.cons rfl _
      have htokens := hfirst.append hcomma (Lexes.punctuation rfl rfl ih)
      simpa only [joinComma, commaTokens, List.append_assoc, List.cons_append] using htokens

mutual

/-- The tokens that a tree is written with. -/
def treeTokens : JsonTree Scalar → List Token
  | .leaf x => [.scalar x]
  | .array items => .openBracket :: (commaTokens (itemTokens items) ++ [.closeBracket])
  | .object members => .openBrace :: (commaTokens (memberTokens members) ++ [.closeBrace])

def itemTokens : List (JsonTree Scalar) → List (List Token)
  | [] => []
  | item :: items => treeTokens item :: itemTokens items

def memberTokens : List (JsString × JsonTree Scalar) → List (List Token)
  | [] => []
  | (key, value) :: members =>
      (.scalar (.string key) :: .colon :: treeTokens value) :: memberTokens members

end

namespace ParserState

-- Where an array may end or go on, a tree's tokens are read as where an item must come.
theorem run_firstItem (stack : List Frame) (t : JsonTree Scalar) (rest : List Token) :
    (firstItem stack).run (treeTokens t ++ rest) =
      (value (.array [] :: stack)).run (treeTokens t ++ rest) := by
  cases t with
  | leaf x => rfl
  | array items => rfl
  | object members => rfl

/-- The tokens of the tree are read as the tree wherever a value must come. -/
def ReadsTree (t : JsonTree Scalar) : Prop :=
  ∀ stack rest, (value stack).run (treeTokens t ++ rest) = (complete t stack).run rest

theorem run_itemTokens (stack : List Frame) (rest : List Token) {done items : List (JsonTree Scalar)}
    {item : JsonTree Scalar} (hread : ∀ t ∈ item :: items, ReadsTree t) :
    (value (.array done :: stack)).run
        (commaTokens (itemTokens (item :: items)) ++ ([.closeBracket] ++ rest)) =
      (complete (.array (done ++ item :: items)) stack).run rest := by
  induction items generalizing done item with
  | nil =>
    rw [itemTokens, itemTokens, commaTokens, hread item List.mem_cons_self]
    rfl
  | cons next items ih =>
    have hcomma : commaTokens (itemTokens (item :: next :: items)) =
        treeTokens item ++ .comma :: commaTokens (itemTokens (next :: items)) := rfl
    rw [hcomma, List.append_assoc, hread item List.mem_cons_self]
    show (value (.array (done ++ [item]) :: stack)).run
      (commaTokens (itemTokens (next :: items)) ++ ([.closeBracket] ++ rest)) = _
    rw [ih fun t ht => hread t (List.mem_cons_of_mem item ht), List.append_assoc]
    rfl

theorem run_memberTokens (stack : List Frame) (rest : List Token)
    {done members : List (JsString × JsonTree Scalar)} {m : JsString × JsonTree Scalar}
    (hread : ∀ m' ∈ m :: members, ReadsTree m'.2) :
    (key done stack).run
        (commaTokens (memberTokens (m :: members)) ++ ([.closeBrace] ++ rest)) =
      (complete (.object (done ++ m :: members)) stack).run rest := by
  induction members generalizing done m with
  | nil =>
    show (value (.member done m.1 :: stack)).run (treeTokens m.2 ++ ([.closeBrace] ++ rest)) = _
    rw [hread m List.mem_cons_self]
    rfl
  | cons next members ih =>
    have hcomma : commaTokens (memberTokens (m :: next :: members)) =
        .scalar (.string m.1) :: .colon :: (treeTokens m.2 ++
          .comma :: commaTokens (memberTokens (next :: members))) := rfl
    rw [hcomma]
    show (value (.member done m.1 :: stack)).run ((treeTokens m.2 ++
      .comma :: commaTokens (memberTokens (next :: members))) ++ ([.closeBrace] ++ rest)) = _
    rw [List.append_assoc, hread m List.mem_cons_self]
    show (key (done ++ [m]) stack).run
      (commaTokens (memberTokens (next :: members)) ++ ([.closeBrace] ++ rest)) = _
    rw [ih fun m' hm' => hread m' (List.mem_cons_of_mem m hm'), List.append_assoc]
    rfl

theorem readsTree (t : JsonTree Scalar) : ReadsTree t := by
  induction t using JsonTree.induction_tree with
  | leaf x => exact fun stack rest => rfl
  | array items ih =>
    intro stack rest
    rw [treeTokens, List.cons_append, List.append_assoc]
    show (firstItem stack).run (commaTokens (itemTokens items) ++ ([.closeBracket] ++ rest)) = _
    cases items with
    | nil => rfl
    | cons item items =>
      have hfirst : (firstItem stack).run
            (commaTokens (itemTokens (item :: items)) ++ ([.closeBracket] ++ rest)) =
          (value (.array [] :: stack)).run
            (commaTokens (itemTokens (item :: items)) ++ ([.closeBracket] ++ rest)) := by
        cases items with
        | nil => exact run_firstItem stack item _
        | cons next items =>
          have hcomma : commaTokens (itemTokens (item :: next :: items)) =
              treeTokens item ++ .comma :: commaTokens (itemTokens (next :: items)) := rfl
          rw [hcomma, List.append_assoc]
          exact run_firstItem stack item _
      rw [hfirst, run_itemTokens stack rest ih, List.nil_append]
  | object members ih =>
    intro stack rest
    rw [treeTokens, List.cons_append, List.append_assoc]
    show (firstKey stack).run (commaTokens (memberTokens members) ++ ([.closeBrace] ++ rest)) = _
    cases members with
    | nil => rfl
    | cons m members =>
      have hfirst : (firstKey stack).run
            (commaTokens (memberTokens (m :: members)) ++ ([.closeBrace] ++ rest)) =
          (key [] stack).run
            (commaTokens (memberTokens (m :: members)) ++ ([.closeBrace] ++ rest)) := by
        cases members with
        | nil => rfl
        | cons next members => rfl
      rw [hfirst, run_memberTokens stack rest ih, List.nil_append]

end ParserState

-- A text that is cut into a tree's tokens is parsed to the tree.
theorem parse_of_lexes {text : JsString} {t : JsonTree Scalar} (h : Lexes text (treeTokens t)) :
    parse text = some t := by
  have hlex := h [] EndsNumber.nil
  rw [List.append_nil, lex] at hlex
  have hrun := ParserState.readsTree t [] []
  rw [List.append_nil] at hrun
  rw [parse, hlex]
  show parseTokens (treeTokens t ++ []) = some t
  rw [List.append_nil, parseTokens, hrun]
  rfl

end Json
