import TeslatlasSdk.Scripts.StrictJson

/-!
# Pieces of strict JSON

What the scanner takes off a text, told by the tokens that the text is cut into.
-/

open Text Json

namespace Scripts

/-! ## White space -/

theorem lex_whitespace (s : JsString) : lex (whitespace s) = lex s := by
  induction s with
  | nil => rfl
  | cons u s ih =>
    rw [whitespace, List.dropWhile_cons]
    split
    · next hw =>
      rw [lex_whiteSpace hw]
      exact ih
    · rfl

theorem whitespace_head {s rest : JsString} {u : CodeUnit} (h : whitespace s = u :: rest) :
    isJsonWhiteSpace u = false := by
  have hhead := List.head_dropWhile_not isJsonWhiteSpace (l := s) (by
    rw [whitespace] at h
    rw [h]
    exact List.cons_ne_nil _ _)
  simp only [whitespace] at h
  simp only [h, List.head_cons] at hhead
  exact hhead

/-! ## The first token -/

/-- What the first unit of a text tells about its first token. -/
inductive FirstToken (u : CodeUnit) (s : JsString) : Token → JsString → Prop where
  | punctuation {token : Token} (h : punctuation u = some token) : FirstToken u s token s
  | scalar {x : Scalar} {rest : JsString} (hp : punctuation u = none)
      (hx : matchScalar (u :: s) = some (x, rest)) : FirstToken u s (.scalar x) rest

theorem lex_eq_cons {s : JsString} {token : Token} {tokens : List Token}
    (h : lex s = some (token :: tokens)) :
    ∃ u t rest, whitespace s = u :: t ∧ FirstToken u t token rest ∧ lex rest = some tokens := by
  rw [← lex_whitespace] at h
  cases hs : whitespace s with
  | nil =>
    rw [hs, lex.eq_def] at h
    cases h
  | cons u t =>
    have hw := whitespace_head hs
    rw [hs] at h
    refine ⟨u, t, ?_⟩
    cases hp : punctuation u with
    | some first =>
      rw [lex_punctuation hw hp] at h
      obtain ⟨later, hlater, heq⟩ := Option.map_eq_some_iff.mp h
      obtain ⟨rfl, rfl⟩ := List.cons.inj heq
      exact ⟨t, rfl, .punctuation hp, hlater⟩
    | none =>
      cases hx : matchScalar (u :: t) with
      | none =>
        rw [lex.eq_def] at h
        simp only [hw, hp, Bool.false_eq_true, if_false] at h
        split at h
        · next hy =>
          rw [hx] at hy
          cases hy
        · cases h
      | some r =>
        obtain ⟨x, rest⟩ := r
        rw [lex_scalar hw hp hx] at h
        obtain ⟨later, hlater, heq⟩ := Option.map_eq_some_iff.mp h
        obtain ⟨rfl, rfl⟩ := List.cons.inj heq
        exact ⟨rest, rfl, .scalar hp hx, hlater⟩

theorem lex_eq_nil {s : JsString} (h : lex s = some []) : whitespace s = [] := by
  rw [← lex_whitespace] at h
  cases hs : whitespace s with
  | nil => rfl
  | cons u t =>
    have hw := whitespace_head hs
    rw [hs] at h
    rw [lex.eq_def] at h
    simp only [hw, Bool.false_eq_true, if_false] at h
    split at h
    · obtain ⟨later, -, heq⟩ := Option.map_eq_some_iff.mp h
      cases heq
    · split at h
      · obtain ⟨later, -, heq⟩ := Option.map_eq_some_iff.mp h
        cases heq
      · cases h

/-- The unit of a punctuation mark. -/
def tokenUnit : Token → CodeUnit
  | .openBrace => 0x7B
  | .closeBrace => closeBrace
  | .openBracket => 0x5B
  | .closeBracket => closeBracket
  | .comma => comma
  | .colon => colon
  | .scalar _ => 0

theorem punctuation_eq_some {u : CodeUnit} {token : Token} (h : punctuation u = some token) :
    u = tokenUnit token ∧ ∀ x, token ≠ .scalar x := by
  unfold punctuation at h
  split at h
  · next hu =>
    obtain rfl := Option.some.inj h
    exact ⟨hu, nofun⟩
  split at h
  · next hu =>
    obtain rfl := Option.some.inj h
    exact ⟨hu, nofun⟩
  split at h
  · next hu =>
    obtain rfl := Option.some.inj h
    exact ⟨hu, nofun⟩
  split at h
  · next hu =>
    obtain rfl := Option.some.inj h
    exact ⟨hu, nofun⟩
  split at h
  · next hu =>
    obtain rfl := Option.some.inj h
    exact ⟨hu, nofun⟩
  split at h
  · next hu =>
    obtain rfl := Option.some.inj h
    exact ⟨hu, nofun⟩
  · cases h

-- A mark starts a text if and only if its token is the first one.
theorem FirstToken.unit_iff {u : CodeUnit} {s rest : JsString} {token mark : Token}
    (h : FirstToken u s token rest) (hm : Json.punctuation (tokenUnit mark) = some mark) :
    u = tokenUnit mark ↔ token = mark := by
  cases h with
  | punctuation hp =>
    constructor
    · rintro rfl
      exact Option.some.inj (hp.symm.trans hm)
    · rintro rfl
      exact (punctuation_eq_some hp).1
  | @scalar x rest hp hx =>
    constructor
    · rintro rfl
      rw [hm] at hp
      cases hp
    · rintro rfl
      exact absurd rfl ((punctuation_eq_some hm).2 x)

theorem FirstToken.rest_eq {u : CodeUnit} {s rest : JsString} {token : Token}
    (h : FirstToken u s token rest) (ht : ∀ x, token ≠ .scalar x) : rest = s := by
  cases h with
  | punctuation hp => rfl
  | scalar hp hx => exact absurd rfl (ht _)

/-! ## Marks -/

theorem takeUnit_eq_some {u : CodeUnit} {s : JsString} {taken : Taken Unit s}
    (h : takeUnit u s = some taken) : whitespace s = u :: taken.rest := by
  unfold takeUnit at h
  split at h
  · cases h
  · next first rest hs =>
    split at h
    · next hu =>
      obtain rfl := Option.some.inj h
      exact hs.trans (congrArg (· :: rest) hu)
    · cases h

theorem takeUnit_of_eq {u : CodeUnit} {s rest : JsString} (h : whitespace s = u :: rest) :
    ∃ hlt, takeUnit u s = some ⟨(), rest, hlt⟩ := by
  have hlt : rest.length < s.length := by
    have hle := whitespace_length s
    rw [h, List.length_cons] at hle
    omega
  refine ⟨hlt, ?_⟩
  unfold takeUnit
  split
  · next hs =>
    rw [h] at hs
    cases hs
  · next first rest' hs =>
    obtain ⟨rfl, rfl⟩ := List.cons.inj (h.symm.trans hs)
    exact if_pos rfl

theorem takeUnit_of_ne {u : CodeUnit} {s : JsString}
    (h : ∀ first rest, whitespace s = first :: rest → first ≠ u) : takeUnit u s = none := by
  cases ht : takeUnit u s with
  | none => rfl
  | some taken => exact absurd rfl (h _ _ (takeUnit_eq_some ht))

-- The mark that comes first can be taken, and no other.
theorem takeUnit_mark (mark : Token) {s : JsString} {tokens : List Token}
    (hm : punctuation (tokenUnit mark) = some mark) (h : lex s = some (mark :: tokens)) :
    ∃ rest hlt, takeUnit (tokenUnit mark) s = some ⟨(), rest, hlt⟩ ∧ lex rest = some tokens := by
  obtain ⟨u, t, rest, hs, hfirst, hrest⟩ := lex_eq_cons h
  obtain rfl := (hfirst.unit_iff hm).mpr rfl
  obtain rfl := hfirst.rest_eq (punctuation_eq_some hm).2
  obtain ⟨hlt, htake⟩ := takeUnit_of_eq hs
  exact ⟨rest, hlt, htake, hrest⟩

theorem takeUnit_other (mark : Token) {s : JsString} {token : Token} {tokens : List Token}
    (hm : punctuation (tokenUnit mark) = some mark) (h : lex s = some (token :: tokens))
    (hne : token ≠ mark) : takeUnit (tokenUnit mark) s = none := by
  obtain ⟨u, t, rest, hs, hfirst, -⟩ := lex_eq_cons h
  apply takeUnit_of_ne
  intro first rest' hs'
  obtain ⟨rfl, -⟩ := List.cons.inj (hs.symm.trans hs')
  exact fun hu => hne ((hfirst.unit_iff hm).mp hu)

/-! ## Strings -/

theorem scanString_spec {n : Nat} {s : JsString} {taken : Taken JsString s}
    (h : scanString n s = .ok taken) :
    s = taken.value ++ taken.rest ∧
      ∀ later, stringEnd false (taken.value ++ later) = (taken.value, later) := by
  fun_induction scanString n s with
  | case1 => cases h
  | case2 s =>
    obtain rfl := Except.ok.inj h
    exact ⟨rfl, fun later => rfl⟩
  | case3 => cases h
  | case4 e s body rest hlt hs hne ih =>
    obtain rfl := Except.ok.inj h
    obtain ⟨hsplit, hend⟩ := ih hs
    refine ⟨congrArg (backslash :: e :: ·) hsplit, fun later => ?_⟩
    have hlater := stringEnd_escape e (body ++ later)
    rw [hend later] at hlater
    exact hlater
  | case5 => cases h
  | case6 => cases h
  | case7 u s hq hb hc body rest hlt hs ih =>
    obtain rfl := Except.ok.inj h
    obtain ⟨hsplit, hend⟩ := ih hs
    refine ⟨congrArg (u :: ·) hsplit, fun later => ?_⟩
    have hlater := stringEnd_plain hq hb (body ++ later)
    rw [hend later] at hlater
    exact hlater
  | case8 => cases h

theorem scanString_quote (n : Nat) (s : JsString) :
    ∃ taken, scanString n (quote :: s) = .ok taken := by
  rw [scanString.eq_def]
  exact ⟨_, rfl⟩

theorem scanString_plain {n : Nat} {u : CodeUnit} {s : JsString} (hq : u ≠ quote)
    (hb : u ≠ backslash) (hc : ¬ u < 0x20) (h : ∃ taken, scanString n s = .ok taken) :
    ∃ taken, scanString n (u :: s) = .ok taken := by
  obtain ⟨taken, htaken⟩ := h
  rw [scanString.eq_def]
  simp only [if_neg hq, if_neg hb, if_neg hc, htaken]
  exact ⟨_, rfl⟩

theorem scanString_escape {n : Nat} (e : CodeUnit) {s : JsString}
    (h : ∃ taken, scanString n s = .ok taken) :
    ∃ taken, scanString n (backslash :: e :: s) = .ok taken := by
  obtain ⟨taken, htaken⟩ := h
  rw [scanString.eq_def]
  simp only [if_neg (show backslash ≠ quote by decide), if_true, htaken]
  exact ⟨_, rfl⟩

theorem hexDigit_not_control {u : CodeUnit} (h : (hexDigit u).isSome) : ¬ u < 0x20 := by
  intro hu
  have hn : u.toNat < 0x20 := hu
  have hnone : ∀ m < 0x20, hexDigit (UInt16.ofNat m) = none := by decide
  have hu' := hnone u.toNat hn
  rw [UInt16.ofNat_toNat] at hu'
  rw [hu'] at h
  cases h

theorem hexUnit_isSome {a b c d v : CodeUnit} (h : hexUnit a b c d = some v) :
    (hexDigit a).isSome ∧ (hexDigit b).isSome ∧ (hexDigit c).isSome ∧ (hexDigit d).isSome := by
  unfold hexUnit at h
  split at h
  · next ha hb hc hd => simp [ha, hb, hc, hd]
  · cases h

-- A literal that can be read can be scanned.
theorem scanString_of_lexString (n : Nat) {s : JsString} {r : JsString × JsString}
    (h : lexString s = some r) : ∃ taken, scanString n s = .ok taken := by
  fun_induction lexString s generalizing r with
  | case1 => cases h
  | case2 s => exact scanString_quote n s
  | case3 => cases h
  | case4 a b c d s v hv _ ih =>
    obtain ⟨r', hr', -⟩ := Option.map_eq_some_iff.mp h
    obtain ⟨ha, hb, hc, hd⟩ := hexUnit_isSome hv
    have hdigit : ∀ {u : CodeUnit} {t : JsString}, (hexDigit u).isSome →
        (∃ taken, scanString n t = .ok taken) → ∃ taken, scanString n (u :: t) = .ok taken :=
      fun hu => scanString_plain (hexDigit_plain hu).1 (hexDigit_plain hu).2
        (hexDigit_not_control hu)
    exact scanString_escape 0x75 (hdigit ha (hdigit hb (hdigit hc (hdigit hd (ih hr')))))
  | case5 => cases h
  | case6 => cases h
  | case7 e s he v hv _ ih =>
    obtain ⟨r', hr', -⟩ := Option.map_eq_some_iff.mp h
    exact scanString_escape e (ih hr')
  | case8 => cases h
  | case9 => cases h
  | case10 u s hq hb hc ih =>
    obtain ⟨r', hr', -⟩ := Option.map_eq_some_iff.mp h
    exact scanString_plain hq hb hc (ih hr')

-- The text of a literal is the JSON text of its string.
theorem jsonParse_literal {body value : JsString} (h : lexString body = some (value, [])) :
    jsonParse (quote :: body) = some (.leaf (.string value)) := by
  have hscalar : matchScalar (quote :: body) = some (.string value, []) := by
    rw [matchScalar, if_pos rfl, h]
    rfl
  have hlex : lex (quote :: body) = some [.scalar (.string value)] := by
    rw [lex_scalar rfl rfl hscalar, lex.eq_def]
    rfl
  rw [jsonParse, parse, hlex]
  rfl

theorem lexString_of_jsonParse {body : JsString} {v : Value}
    (h : jsonParse (quote :: body) = some v) : ∃ r, lexString body = some r := by
  cases hbody : lexString body with
  | some r => exact ⟨r, rfl⟩
  | none =>
    have hscalar : matchScalar (quote :: body) = none := by
      rw [matchScalar, if_pos rfl, hbody]
      rfl
    have hlex : lex (quote :: body) = none := by
      rw [lex.eq_def]
      simp only [show isJsonWhiteSpace quote = false by decide,
        show punctuation quote = none by decide, Bool.false_eq_true, if_false]
      split
      · next x rest hx =>
        rw [hscalar] at hx
        cases hx
      · rfl
    rw [jsonParse, parse, hlex] at h
    cases h

theorem string_eq_ok {n : Nat} {s : JsString} {taken : Taken JsString s}
    (h : string n s = .ok taken) :
    ∃ t, s = quote :: t ∧ lexString t = some (taken.value, taken.rest) := by
  unfold string at h
  split at h
  · cases h
  · next u t =>
    split at h
    · next hu =>
      subst hu
      split at h
      · next body rest hlt hscan =>
        split at h
        · next value hvalue =>
          obtain rfl := Except.ok.inj h
          obtain ⟨hsplit, hend⟩ := scanString_spec hscan
          simp only at hsplit hend
          obtain ⟨⟨read, later⟩, hread⟩ := lexString_of_jsonParse hvalue
          obtain ⟨body', hbody', -, hlater⟩ := lexString_spec hread
          have hnil := hend []
          rw [List.append_nil, hbody'] at hnil
          obtain ⟨rfl, rfl⟩ := Prod.mk.inj hnil
          have hwhole := hlater []
          rw [List.append_nil] at hwhole
          rw [jsonParse_literal hwhole] at hvalue
          obtain rfl : read = value := by
            simpa using hvalue
          exact ⟨t, rfl, hsplit ▸ hlater rest⟩
        · cases h
      · cases h
    · cases h

theorem string_of_lexString (n : Nat) {t value rest : JsString}
    (h : lexString t = some (value, rest)) :
    ∃ hlt, string n (quote :: t) = .ok ⟨value, rest, hlt⟩ := by
  obtain ⟨body, hbody, hsplit, hlater⟩ := lexString_spec h
  obtain ⟨⟨scanned, rest', hlt⟩, hscan⟩ := scanString_of_lexString n h
  obtain ⟨hsplit', hend⟩ := scanString_spec hscan
  simp only at hsplit' hend
  have heq := hend rest'
  rw [← hsplit', hbody] at heq
  obtain ⟨rfl, rfl⟩ := Prod.mk.inj heq
  have hwhole := hlater []
  rw [List.append_nil] at hwhole
  refine ⟨Nat.lt_succ_of_lt hlt, ?_⟩
  rw [string, if_pos rfl, hscan]
  simp only [jsonParse_literal hwhole]

/-! ## Literals and numbers -/

theorem matchLiteral_head {u : CodeUnit} {s : JsString} {r : Scalar × JsString}
    (h : matchLiteral (u :: s) = some r) : u = 0x6E ∨ u = 0x74 ∨ u = 0x66 := by
  obtain ⟨name, heq, -, hname⟩ := matchLiteral_spec h
  obtain ⟨rfl, -⟩ | ⟨rfl, -⟩ | ⟨rfl, -⟩ := hname
  · exact .inl (List.cons.inj heq).1
  · exact .inr (.inl (List.cons.inj heq).1)
  · exact .inr (.inr (List.cons.inj heq).1)

-- A literal is not a number, so that the order in which they are tried is of no matter.
theorem matchToken_eq {u : CodeUnit} (hq : u ≠ quote) (s : JsString) :
    matchToken (u :: s) = matchScalar (u :: s) := by
  rw [matchToken, matchScalar, if_neg hq]
  cases hl : matchLiteral (u :: s) with
  | none =>
    cases matchNumber (u :: s) with
    | none => rfl
    | some r => rfl
  | some r =>
    have hn : matchNumber (u :: s) = none := by
      obtain rfl | rfl | rfl := matchLiteral_head hl
      · exact matchNumber_eq_none (by decide) (by decide) s
      · exact matchNumber_eq_none (by decide) (by decide) s
      · exact matchNumber_eq_none (by decide) (by decide) s
    rw [hn]

theorem matchScalar_string {u : CodeUnit} {s value rest : JsString}
    (h : matchScalar (u :: s) = some (.string value, rest)) :
    u = quote ∧ lexString s = some (value, rest) := by
  rw [matchScalar] at h
  split at h
  · next hq =>
    obtain ⟨r, hr, heq⟩ := Option.map_eq_some_iff.mp h
    obtain ⟨hvalue, hrest⟩ := Prod.mk.inj heq
    obtain rfl : r.1 = value := Scalar.string.inj hvalue
    exact ⟨hq, hrest ▸ hr⟩
  split at h
  · cases h
  · obtain ⟨name, -, -, hname⟩ := matchLiteral_spec h
    obtain ⟨-, hx⟩ | ⟨-, hx⟩ | ⟨-, hx⟩ := hname
    · cases hx
    · cases hx
    · cases hx

theorem token_eq_ok {n : Nat} {s : JsString} {taken : Taken Value s}
    (h : token n s = .ok taken) :
    ∃ x, matchToken s = some (x, taken.rest) ∧ taken.value = .leaf x.toPrimitive := by
  unfold token at h
  split at h
  · next x rest hx =>
    obtain rfl := Except.ok.inj h
    exact ⟨x, hx, rfl⟩
  · cases h

theorem token_of_eq (n : Nat) {s rest : JsString} {x : Scalar}
    (h : matchToken s = some (x, rest)) :
    ∃ hlt, token n s = .ok ⟨.leaf x.toPrimitive, rest, hlt⟩ := by
  refine ⟨matchToken_length h, ?_⟩
  unfold token
  split
  · next y rest' hy =>
    obtain ⟨rfl, rfl⟩ := Prod.mk.inj (Option.some.inj (h.symm.trans hy))
    rfl
  · next hy =>
    rw [h] at hy
    cases hy

end Scripts
