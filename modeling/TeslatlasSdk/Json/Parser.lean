import TeslatlasSdk.Json.Number
import TeslatlasSdk.Json.Tree

/-!
# JSON texts

`lex` cuts a text into tokens, taking the longest number where there is one, and `parseTokens` reads
the tokens with a stack of open arrays and objects.  Number tokens and duplicate members are kept in
the syntax tree; `jsonParse` is the value that a script gets.
-/

open Text

namespace Json

inductive Scalar where
  | null
  | boolean (value : Bool)
  | number (token : JsString)
  | string (value : JsString)
  deriving DecidableEq, Repr

inductive Token where
  | openBrace
  | closeBrace
  | openBracket
  | closeBracket
  | comma
  | colon
  | scalar (scalar : Scalar)
  deriving DecidableEq, Repr

/-- The scalars of a value in a script. -/
inductive Primitive where
  | null
  | boolean (value : Bool)
  | number (value : Binary64)
  | string (value : JsString)
  deriving DecidableEq, Repr

abbrev Value := JsonTree Primitive

/-! ## Tokens -/

def quote : CodeUnit := 0x22

def backslash : CodeUnit := 0x5C

def isJsonWhiteSpace (u : CodeUnit) : Bool := u = 0x20 || u = 0x09 || u = 0x0A || u = 0x0D

def punctuation (u : CodeUnit) : Option Token :=
  if u = 0x7B then some .openBrace
  else if u = 0x7D then some .closeBrace
  else if u = 0x5B then some .openBracket
  else if u = 0x5D then some .closeBracket
  else if u = 0x2C then some .comma
  else if u = 0x3A then some .colon
  else none

/-- The unit that a one-letter escape stands for. -/
def simpleEscape (u : CodeUnit) : Option CodeUnit :=
  if u = quote ∨ u = backslash ∨ u = 0x2F then some u
  else if u = 0x62 then some 0x08
  else if u = 0x66 then some 0x0C
  else if u = 0x6E then some 0x0A
  else if u = 0x72 then some 0x0D
  else if u = 0x74 then some 0x09
  else none

def hexDigit (u : CodeUnit) : Option Nat :=
  if isDigit u then some (u.toNat - 0x30)
  else if 0x61 ≤ u ∧ u ≤ 0x66 then some (u.toNat - 0x57)
  else if 0x41 ≤ u ∧ u ≤ 0x46 then some (u.toNat - 0x37)
  else none

def hexUnit (a b c d : CodeUnit) : Option CodeUnit :=
  match hexDigit a, hexDigit b, hexDigit c, hexDigit d with
  | some a, some b, some c, some d => some (UInt16.ofNat (((a * 16 + b) * 16 + c) * 16 + d))
  | _, _, _, _ => none

/-- Put a unit in front of a string that has been read. -/
def prependUnit (u : CodeUnit) (r : JsString × JsString) : JsString × JsString := (u :: r.1, r.2)

/-- The string that a literal spells, from behind its opening quote, and the rest of the text. -/
def lexString : JsString → Option (JsString × JsString)
  | [] => none
  | u :: s =>
      if u = quote then some ([], s)
      else if u = backslash then
        match s with
        | [] => none
        | e :: s =>
            if e = 0x75 then
              match s with
              | a :: b :: c :: d :: s =>
                  match hexUnit a b c d with
                  | some v => (lexString s).map (prependUnit v)
                  | none => none
              | _ => none
            else
              match simpleEscape e with
              | some v => (lexString s).map (prependUnit v)
              | none => none
      else if u < 0x20 then none
      else (lexString s).map (prependUnit u)

/-- A literal name at the front of a text, and the rest. -/
def matchLiteral (s : JsString) : Option (Scalar × JsString) :=
  if js "null" <+: s then some (.null, s.drop 4)
  else if js "true" <+: s then some (.boolean true, s.drop 4)
  else if js "false" <+: s then some (.boolean false, s.drop 5)
  else none

/-- The scalar at the front of a text, and the rest. -/
def matchScalar : JsString → Option (Scalar × JsString)
  | [] => none
  | u :: s =>
      if u = quote then (lexString s).map fun r => (.string r.1, r.2)
      else
        match matchNumber (u :: s) with
        | some (token, rest) => some (.number token, rest)
        | none => matchLiteral (u :: s)

/-! ## Where a string literal ends

A quote ends the literal unless an odd run of backslashes stands in front of it.  `odd` tells whether
the run read so far is odd.
-/

/-- The literal up to and including its closing quote, and the rest of the text. -/
def stringEnd (odd : Bool) : JsString → JsString × JsString
  | [] => ([], [])
  | u :: s =>
      if u = quote ∧ odd = false then ([u], s)
      else prependUnit u (stringEnd (u = backslash && !odd) s)

theorem hexDigit_plain {u : CodeUnit} (h : (hexDigit u).isSome) : u ≠ quote ∧ u ≠ backslash := by
  constructor
  · rintro rfl
    exact absurd h (by decide)
  · rintro rfl
    exact absurd h (by decide)

theorem stringEnd_plain {u : CodeUnit} (hq : u ≠ quote) (hb : u ≠ backslash) (s : JsString) :
    stringEnd false (u :: s) = prependUnit u (stringEnd false s) := by
  rw [stringEnd, if_neg (by simp [hq])]
  simp [hb]

-- After an escape, a string goes on as if nothing had happened.
theorem stringEnd_escape (e : CodeUnit) (s : JsString) :
    stringEnd false (backslash :: e :: s) =
      prependUnit backslash (prependUnit e (stringEnd false s)) := by
  rw [stringEnd, if_neg (by decide)]
  simp [stringEnd]

theorem matchScalar_literal {u : CodeUnit} {s : JsString} (hq : u ≠ quote)
    (hn : matchNumber (u :: s) = none) : matchScalar (u :: s) = matchLiteral (u :: s) := by
  rw [matchScalar, if_neg hq, hn]

/-- What must be shown of a literal that has been read. -/
def ReadsString (s value rest : JsString) : Prop :=
  ∃ body, stringEnd false s = (body, rest) ∧ s = body ++ rest ∧
    ∀ later, lexString (body ++ later) = some (value, later)

theorem lexString_quote (s : JsString) : lexString (quote :: s) = some ([], s) := by
  unfold lexString
  rfl

theorem lexString_plain {u : CodeUnit} (hq : u ≠ quote) (hb : u ≠ backslash) (hc : ¬ u < 0x20)
    (s : JsString) : lexString (u :: s) = (lexString s).map (prependUnit u) := by
  rw [lexString.eq_def]
  simp only [if_neg hq, if_neg hb, if_neg hc]

theorem lexString_simple {e v : CodeUnit} (hu : e ≠ 0x75) (hv : simpleEscape e = some v)
    (s : JsString) : lexString (backslash :: e :: s) = (lexString s).map (prependUnit v) := by
  rw [lexString.eq_def]
  simp only [if_neg (show backslash ≠ quote by decide), if_pos, if_neg hu, hv]

theorem lexString_unicode {a b c d v : CodeUnit} (hv : hexUnit a b c d = some v) (s : JsString) :
    lexString (backslash :: 0x75 :: a :: b :: c :: d :: s) =
      (lexString s).map (prependUnit v) := by
  rw [lexString.eq_def]
  simp only [if_neg (show backslash ≠ quote by decide), if_pos, hv]

-- One more unit of a string, spelled by `front`.
theorem ReadsString.extend (front : JsString) {s rest : JsString} {u : CodeUnit} {value : JsString}
    (hend : stringEnd false (front ++ s) = (front ++ (stringEnd false s).1, (stringEnd false s).2))
    (hread : ∀ t, lexString (front ++ t) = (lexString t).map (prependUnit u))
    (ih : ∀ {value rest : JsString}, lexString s = some (value, rest) → ReadsString s value rest)
    (h : (lexString s).map (prependUnit u) = some (value, rest)) :
    ReadsString (front ++ s) value rest := by
  obtain ⟨⟨tail, rest'⟩, hs, heq⟩ := Option.map_eq_some_iff.mp h
  simp only [prependUnit, Prod.mk.injEq] at heq
  obtain ⟨rfl, rfl⟩ := heq
  obtain ⟨body, hbody, happ, hlater⟩ := ih hs
  refine ⟨front ++ body, ?_, ?_, ?_⟩
  · rw [hend, hbody]
  · rw [List.append_assoc, ← happ]
  · intro later
    rw [List.append_assoc, hread, hlater]
    rfl

-- A literal that has been read ends where `stringEnd` says, and reads the same before any text.
theorem lexString_spec {s value rest : JsString} (h : lexString s = some (value, rest)) :
    ReadsString s value rest := by
  fun_induction lexString s generalizing value rest with
  | case1 => simp at h
  | case2 s =>
    simp only [Option.some.injEq, Prod.mk.injEq] at h
    obtain ⟨rfl, rfl⟩ := h
    exact ⟨[quote], rfl, rfl, fun later => lexString_quote later⟩
  | case3 => simp at h
  | case4 a b c d s v hv _ ih =>
    have ⟨ha, hb, hc, hd⟩ : (hexDigit a).isSome ∧ (hexDigit b).isSome ∧ (hexDigit c).isSome ∧
        (hexDigit d).isSome := by
      unfold hexUnit at hv
      split at hv
      · next h₁ h₂ h₃ h₄ => simp [h₁, h₂, h₃, h₄]
      · simp at hv
    refine ReadsString.extend [backslash, 0x75, a, b, c, d] ?_
      (fun t => lexString_unicode hv t) ih h
    simp only [List.cons_append, List.nil_append]
    rw [stringEnd_escape, stringEnd_plain (hexDigit_plain ha).1 (hexDigit_plain ha).2,
      stringEnd_plain (hexDigit_plain hb).1 (hexDigit_plain hb).2,
      stringEnd_plain (hexDigit_plain hc).1 (hexDigit_plain hc).2,
      stringEnd_plain (hexDigit_plain hd).1 (hexDigit_plain hd).2]
    rfl
  | case5 => simp at h
  | case6 => simp at h
  | case7 e s he v hv _ ih =>
    refine ReadsString.extend [backslash, e] ?_ (fun t => lexString_simple he hv t) ih h
    simp only [List.cons_append, List.nil_append]
    rw [stringEnd_escape]
    rfl
  | case8 => simp at h
  | case9 => simp at h
  | case10 u s hq hb hc ih =>
    refine ReadsString.extend [u] ?_ (fun t => lexString_plain hq hb hc t) ih h
    simp only [List.cons_append, List.nil_append]
    rw [stringEnd_plain hq hb]
    rfl

/-! ## Cutting a text into tokens -/

theorem matchLiteral_spec {s rest : JsString} {x : Scalar} (h : matchLiteral s = some (x, rest)) :
    ∃ name, s = name ++ rest ∧ name ≠ [] ∧
      (name = js "null" ∧ x = .null ∨ name = js "true" ∧ x = .boolean true ∨
        name = js "false" ∧ x = .boolean false) := by
  unfold matchLiteral at h
  split at h
  · next hp =>
    obtain ⟨later, rfl⟩ := hp
    simp only [Option.some.injEq, Prod.mk.injEq] at h
    obtain ⟨rfl, rfl⟩ := h
    exact ⟨js "null", rfl, by decide, .inl ⟨rfl, rfl⟩⟩
  split at h
  · next hp =>
    obtain ⟨later, rfl⟩ := hp
    simp only [Option.some.injEq, Prod.mk.injEq] at h
    obtain ⟨rfl, rfl⟩ := h
    exact ⟨js "true", rfl, by decide, .inr (.inl ⟨rfl, rfl⟩)⟩
  split at h
  · next hp =>
    obtain ⟨later, rfl⟩ := hp
    simp only [Option.some.injEq, Prod.mk.injEq] at h
    obtain ⟨rfl, rfl⟩ := h
    exact ⟨js "false", rfl, by decide, .inr (.inr ⟨rfl, rfl⟩)⟩
  · simp at h

-- A scalar takes at least one unit off the text.
theorem matchScalar_length {s rest : JsString} {x : Scalar} (h : matchScalar s = some (x, rest)) :
    rest.length < s.length := by
  have hsplit : ∀ front : JsString, front ≠ [] → s = front ++ rest → rest.length < s.length := by
    intro front hf heq
    rw [heq, List.length_append]
    have := List.length_pos_iff.mpr hf
    omega
  unfold matchScalar at h
  split at h
  · simp at h
  · next u s =>
    split at h
    · obtain ⟨⟨value, rest'⟩, hs, heq⟩ := Option.map_eq_some_iff.mp h
      simp only [Prod.mk.injEq] at heq
      obtain ⟨-, rfl⟩ := heq
      obtain ⟨body, -, happ, -⟩ := lexString_spec hs
      exact hsplit (u :: body) (by simp) (by rw [happ]; rfl)
    split at h
    · next token rest' hm =>
      simp only [Option.some.injEq, Prod.mk.injEq] at h
      obtain ⟨-, rfl⟩ := h
      obtain ⟨happ, hne, -⟩ := matchNumber_spec hm
      exact hsplit token hne happ.symm
    · obtain ⟨name, happ, hne, -⟩ := matchLiteral_spec h
      exact hsplit name hne happ

/-- The tokens of a text, white space left out. -/
def lex (s : JsString) : Option (List Token) :=
  match s with
  | [] => some []
  | u :: rest =>
      if isJsonWhiteSpace u then lex rest
      else
        match punctuation u with
        | some token => (lex rest).map (token :: ·)
        | none =>
            match h : matchScalar (u :: rest) with
            | some (x, rest') =>
                have := matchScalar_length h
                (lex rest').map (.scalar x :: ·)
            | none => none
termination_by s.length
decreasing_by
  all_goals
    simp only [List.length_cons] at *
    omega

theorem lex_whiteSpace {u : CodeUnit} (hw : isJsonWhiteSpace u = true) (s : JsString) :
    lex (u :: s) = lex s := by
  rw [lex.eq_def]
  simp only [if_pos hw]

theorem lex_punctuation {u : CodeUnit} {token : Token} (hw : isJsonWhiteSpace u = false)
    (hp : punctuation u = some token) (s : JsString) :
    lex (u :: s) = (lex s).map (token :: ·) := by
  rw [lex.eq_def]
  simp [hw, hp]

theorem lex_scalar {u : CodeUnit} {s rest : JsString} {x : Scalar}
    (hw : isJsonWhiteSpace u = false) (hp : punctuation u = none)
    (hx : matchScalar (u :: s) = some (x, rest)) :
    lex (u :: s) = (lex rest).map (.scalar x :: ·) := by
  rw [lex.eq_def]
  simp only [hw, hp, Bool.false_eq_true, if_false]
  split
  · next y rest' hy =>
    rw [hx] at hy
    simp only [Option.some.injEq, Prod.mk.injEq] at hy
    rw [hy.1, hy.2]
  · next hy => rw [hx] at hy; simp at hy

/-! ## Reading tokens -/

/-- An array or object that is open. -/
inductive Frame where
  | array (items : List (JsonTree Scalar))
  /-- The value of a member is being read. -/
  | member (members : List (JsString × JsonTree Scalar)) (key : JsString)

/-- What must come next, and the frames around it. -/
inductive ParserState where
  | value (stack : List Frame)
  /-- After an opening bracket: an item, or the end of the array. -/
  | firstItem (stack : List Frame)
  /-- After an opening brace: a key, or the end of the object. -/
  | firstKey (stack : List Frame)
  | key (members : List (JsString × JsonTree Scalar)) (stack : List Frame)
  | colon (members : List (JsString × JsonTree Scalar)) (key : JsString) (stack : List Frame)
  | afterItem (items : List (JsonTree Scalar)) (stack : List Frame)
  | afterMember (members : List (JsString × JsonTree Scalar)) (stack : List Frame)
  | done (tree : JsonTree Scalar)

namespace ParserState

/-- A value is complete. -/
def complete (tree : JsonTree Scalar) : List Frame → ParserState
  | [] => .done tree
  | .array items :: stack => .afterItem (items ++ [tree]) stack
  | .member members k :: stack => .afterMember (members ++ [(k, tree)]) stack

/-- A value starts. -/
def start (stack : List Frame) : Token → Option ParserState
  | .scalar x => some (complete (.leaf x) stack)
  | .openBracket => some (.firstItem stack)
  | .openBrace => some (.firstKey stack)
  | _ => none

def step : ParserState → Token → Option ParserState
  | .value stack, token => start stack token
  | .firstItem stack, .closeBracket => some (complete (.array []) stack)
  | .firstItem stack, token => start (.array [] :: stack) token
  | .afterItem items stack, .comma => some (.value (.array items :: stack))
  | .afterItem items stack, .closeBracket => some (complete (.array items) stack)
  | .firstKey stack, .closeBrace => some (complete (.object []) stack)
  | .firstKey stack, .scalar (.string k) => some (.colon [] k stack)
  | .key members stack, .scalar (.string k) => some (.colon members k stack)
  | .colon members k stack, .colon => some (.value (.member members k :: stack))
  | .afterMember members stack, .comma => some (.key members stack)
  | .afterMember members stack, .closeBrace => some (complete (.object members) stack)
  | _, _ => none

def run : ParserState → List Token → Option ParserState
  | state, [] => some state
  | state, token :: tokens => (state.step token).bind fun next => next.run tokens

end ParserState

def parseTokens (tokens : List Token) : Option (JsonTree Scalar) :=
  match (ParserState.value []).run tokens with
  | some (.done tree) => some tree
  | _ => none

/-- The syntax tree of a JSON text. -/
def parse (s : JsString) : Option (JsonTree Scalar) := (lex s).bind parseTokens

def Scalar.toPrimitive : Scalar → Primitive
  | .null => .null
  | .boolean value => .boolean value
  | .number token => .number (numberOfToken token)
  | .string value => .string value

/-- `JSON.parse`. -/
def jsonParse (s : JsString) : Option Value :=
  (parse s).map fun tree => tree.settle.map Scalar.toPrimitive

/-! ## Relabelling scalars

The reader looks at a scalar only where a key must come, and there it must be a string.  Changing
the other scalars changes the tree in the same way.
-/

def Token.map (f : Scalar → Scalar) : Token → Token
  | .scalar x => .scalar (f x)
  | token => token

def Frame.map (f : Scalar → Scalar) : Frame → Frame
  | .array items => .array (JsonTree.mapItems f items)
  | .member members key => .member (JsonTree.mapMembers f members) key

namespace ParserState

variable {f : Scalar → Scalar}

def map (f : Scalar → Scalar) : ParserState → ParserState
  | .value stack => .value (stack.map (Frame.map f))
  | .firstItem stack => .firstItem (stack.map (Frame.map f))
  | .firstKey stack => .firstKey (stack.map (Frame.map f))
  | .key members stack => .key (JsonTree.mapMembers f members) (stack.map (Frame.map f))
  | .colon members k stack => .colon (JsonTree.mapMembers f members) k (stack.map (Frame.map f))
  | .afterItem items stack => .afterItem (JsonTree.mapItems f items) (stack.map (Frame.map f))
  | .afterMember members stack =>
      .afterMember (JsonTree.mapMembers f members) (stack.map (Frame.map f))
  | .done tree => .done (tree.map f)

theorem map_complete (tree : JsonTree Scalar) (stack : List Frame) :
    (complete tree stack).map f = complete (tree.map f) (stack.map (Frame.map f)) := by
  cases stack with
  | nil => rfl
  | cons frame stack =>
    cases frame with
    | array items => simp [complete, map, Frame.map, JsonTree.mapItems_eq]
    | member members k => simp [complete, map, Frame.map, JsonTree.mapMembers_eq]

theorem start_map {stack : List Frame} {token : Token} {next : ParserState}
    (h : start stack token = some next) :
    start (stack.map (Frame.map f)) (token.map f) = some (next.map f) := by
  cases token with
  | scalar x =>
    simp only [start, Option.some.injEq] at h
    rw [← h, map_complete]
    rfl
  | openBracket =>
    simp only [start, Option.some.injEq] at h
    rw [← h]
    rfl
  | openBrace =>
    simp only [start, Option.some.injEq] at h
    rw [← h]
    rfl
  | closeBrace | closeBracket | comma | colon => simp [start] at h

theorem step_map (hf : ∀ k, f (.string k) = .string k) {state next : ParserState} {token : Token}
    (h : state.step token = some next) : (state.map f).step (token.map f) = some (next.map f) := by
  unfold step at h
  split at h
  · exact start_map h
  · simp only [Option.some.injEq] at h
    rw [← h, map_complete]
    rfl
  · next stack hne =>
    have hstart := start_map (f := f) h
    have hmap : ∀ g : Token, g ≠ .closeBracket →
        (map f (.firstItem stack)).step (g.map f) =
          start ((Frame.array [] :: stack).map (Frame.map f)) (g.map f) := by
      intro g hg
      cases g with
      | closeBracket => exact absurd rfl hg
      | scalar | openBrace | closeBrace | openBracket | comma | colon => rfl
    rw [hmap token hne]
    exact hstart
  · simp only [Option.some.injEq] at h
    rw [← h]
    rfl
  · simp only [Option.some.injEq] at h
    rw [← h, map_complete]
    rfl
  · simp only [Option.some.injEq] at h
    rw [← h, map_complete]
    rfl
  · simp only [Option.some.injEq] at h
    rw [← h]
    simp only [map, Token.map, hf, step, JsonTree.mapMembers]
  · simp only [Option.some.injEq] at h
    rw [← h]
    simp only [map, Token.map, hf, step]
  · simp only [Option.some.injEq] at h
    rw [← h]
    rfl
  · simp only [Option.some.injEq] at h
    rw [← h]
    rfl
  · simp only [Option.some.injEq] at h
    rw [← h, map_complete]
    rfl
  · simp at h

theorem run_map (hf : ∀ k, f (.string k) = .string k) {state last : ParserState}
    {tokens : List Token} (h : state.run tokens = some last) :
    (state.map f).run (tokens.map (Token.map f)) = some (last.map f) := by
  induction tokens generalizing state with
  | nil =>
    simp only [run, Option.some.injEq] at h
    rw [← h]
    rfl
  | cons token tokens ih =>
    rw [run, Option.bind_eq_some_iff] at h
    obtain ⟨next, hstep, hrun⟩ := h
    rw [List.map_cons, run, step_map hf hstep]
    exact ih hrun

end ParserState

theorem parseTokens_map {f : Scalar → Scalar} (hf : ∀ k, f (.string k) = .string k)
    {tokens : List Token} {tree : JsonTree Scalar} (h : parseTokens tokens = some tree) :
    parseTokens (tokens.map (Token.map f)) = some (tree.map f) := by
  unfold parseTokens at h
  split at h
  · next tree' hrun =>
    simp only [Option.some.injEq] at h
    have hmap := ParserState.run_map hf hrun
    rw [h] at hmap
    simp only [ParserState.map, List.map_nil] at hmap
    rw [parseTokens, hmap]
  · simp at h

end Json
