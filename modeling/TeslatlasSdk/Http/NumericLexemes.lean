import Mathlib.Data.List.Induction
import TeslatlasSdk.Http.BoundedJson

/-!
# Number lexemes

The mirror of a text that has tokens has the same tokens, with each number turned into a string.  So
the mirror's value is the text's value relabelled, and walking both records at every number the
token it was read from.
-/

open Text Core Json

namespace Http

/-! ## Skipping a string -/

/-- Whether the backslashes at the end of a text are odd in number, given those in front of it. -/
def oddAfter (odd : Bool) (segment : JsString) : Bool :=
  segment.foldl (fun odd u => u = backslash && !odd) odd

theorem stringEnd_append {segment : JsString} (h : ∀ u ∈ segment, u ≠ quote) (odd : Bool)
    (s : JsString) :
    stringEnd odd (segment ++ s) =
      (segment ++ (stringEnd (oddAfter odd segment) s).1,
        (stringEnd (oddAfter odd segment) s).2) := by
  induction segment generalizing odd with
  | nil => rfl
  | cons u segment ih =>
    have hu : u ≠ quote := h u List.mem_cons_self
    rw [List.cons_append, stringEnd, if_neg (by simp [hu]),
      ih fun v hv => h v (List.mem_cons_of_mem u hv)]
    rfl

-- Counting the backslashes backwards gives the parity that a forward reading keeps.
theorem oddAfter_eq (segment : JsString) :
    oddAfter false segment =
      decide ((segment.reverse.takeWhile (· == backslash)).length % 2 = 1) := by
  induction segment using List.reverseRecOn with
  | nil => rfl
  | append_singleton segment u ih =>
    have hfold : oddAfter false (segment ++ [u]) =
        (decide (u = backslash) && !oddAfter false segment) := by
      simp [oddAfter]
    rw [hfold, ih, List.reverse_append, List.reverse_singleton, List.singleton_append,
      List.takeWhile_cons]
    by_cases hu : u = backslash
    · simp only [hu, decide_true, Bool.true_and, beq_self_eq_true, if_true, List.length_cons]
      rw [← decide_not, decide_eq_decide]
      omega
    · simp [hu]

theorem skipString_eq_stringEnd (s : JsString) : skipString s = stringEnd false s := by
  have hfree : ∀ s : JsString, ∀ u ∈ s.takeWhile (· != quote), u ≠ quote := by
    intro s u hu
    simpa using List.all_eq_true.mp List.all_takeWhile u hu
  have hsplit : ∀ s : JsString, s.takeWhile (· != quote) ++ s.dropWhile (· != quote) = s :=
    fun _ => List.takeWhile_append_dropWhile
  have hhead : ∀ {s : JsString} {q : CodeUnit} {rest : JsString},
      s.dropWhile (· != quote) = q :: rest → q = quote := by
    intro s q rest hd
    have h := List.head?_dropWhile_not (· != quote) s
    rw [hd] at h
    simpa using h
  fun_induction skipString s with
  | case1 s h =>
    have hs := hsplit s
    rw [h, List.append_nil] at hs
    have h' := stringEnd_append (hfree s) false []
    rw [List.append_nil, hs] at h'
    rw [h']
    simp [stringEnd]
  | case2 s q rest h segment slashes heven =>
    have hq := hhead h
    have hs := hsplit s
    rw [h, hq] at hs
    rw [← hs, stringEnd_append (hfree s), oddAfter_eq, stringEnd, if_pos]
    · rw [hq]
    · refine ⟨rfl, ?_⟩
      rw [decide_eq_false_iff_not]
      show ¬ slashes % 2 = 1
      omega
  | case3 s q rest h segment slashes hodd hlt ih =>
    have hq := hhead h
    have hs := hsplit s
    rw [h, hq] at hs
    have hparity : oddAfter false segment = true := by
      rw [oddAfter_eq, decide_eq_true_eq]
      show slashes % 2 = 1
      omega
    have hend : stringEnd true (quote :: rest) = prependUnit quote (stringEnd false rest) := by
      rw [stringEnd, if_neg (by simp)]
      rfl
    rw [← hs, stringEnd_append (hfree s), hparity, hend, ← ih, hq]
    rfl

/-! ## The tokens of the mirror -/

/-- A number becomes the string that spells it. -/
def mirrorScalar : Scalar → Scalar
  | .number token => .string token
  | x => x

theorem isPlain_of_isNumberUnit {u : CodeUnit} (h : isNumberUnit u = true) : isPlain u = true := by
  simp only [isNumberUnit, isDigit, isSign, isExponentMark, Bool.or_eq_true,
    Bool.and_eq_true, decide_eq_true_eq] at h
  rcases h with ((⟨hlo, hhi⟩ | rfl | rfl) | rfl) | rfl | rfl
  · rw [UInt16.le_iff_toNat_le] at hlo hhi
    simp only [isPlain, quote, backslash, Bool.and_eq_true, decide_eq_true_eq, bne_iff_ne, ne_eq,
      UInt16.le_iff_toNat_le, UInt16.lt_iff_toNat_lt, ← UInt16.toNat_inj]
    simp at hlo hhi ⊢
    omega
  all_goals decide

-- What a unit that starts no string and no number is to the mirror.
theorem numericMirror_copy {u : CodeUnit} (hq : u ≠ quote) {s : JsString}
    (hn : matchNumber (u :: s) = none) : numericMirror (u :: s) = u :: numericMirror s := by
  rw [numericMirror, if_neg hq]
  split
  · rfl
  · next h => rw [hn] at h; simp at h

/-- Units of literal names, which start neither strings nor numbers. -/
def isLetter (u : CodeUnit) : Bool := 0x61 ≤ u && u ≤ 0x7A

theorem isLetter_spec {u : CodeUnit} (h : isLetter u = true) :
    u ≠ quote ∧ isDigit u = false ∧ u ≠ minus ∧ isJsonWhiteSpace u = false := by
  simp only [isLetter, Bool.and_eq_true, decide_eq_true_eq, UInt16.le_iff_toNat_le] at h
  refine ⟨?_, ?_, ?_, ?_⟩
  · rintro rfl
    exact absurd h (by decide)
  · simp only [isDigit, Bool.and_eq_false_iff, decide_eq_false_iff_not, UInt16.le_iff_toNat_le]
    simp at h ⊢
    omega
  · rintro rfl
    exact absurd h (by decide)
  · simp only [isJsonWhiteSpace, Bool.or_eq_false_iff, decide_eq_false_iff_not]
    refine ⟨⟨⟨?_, ?_⟩, ?_⟩, ?_⟩
    all_goals
      rintro rfl
      exact absurd h (by decide)

theorem numericMirror_letters {name : JsString} (h : ∀ u ∈ name, isLetter u = true)
    (s : JsString) : numericMirror (name ++ s) = name ++ numericMirror s := by
  induction name with
  | nil => rfl
  | cons u name ih =>
    obtain ⟨hq, hd, hm, -⟩ := isLetter_spec (h u List.mem_cons_self)
    rw [List.cons_append, numericMirror_copy hq (matchNumber_eq_none hd hm _),
      ih fun v hv => h v (List.mem_cons_of_mem u hv), List.cons_append]

-- White space and punctuation start neither strings nor numbers.
theorem plain_of_structural {u : CodeUnit}
    (h : isJsonWhiteSpace u = true ∨ (punctuation u).isSome = true) :
    u ≠ quote ∧ isDigit u = false ∧ u ≠ minus := by
  have hu : u = 0x20 ∨ u = 0x09 ∨ u = 0x0A ∨ u = 0x0D ∨ u = 0x7B ∨ u = 0x7D ∨ u = 0x5B ∨
      u = 0x5D ∨ u = 0x2C ∨ u = 0x3A := by
    rcases h with h | h
    · simp only [isJsonWhiteSpace, Bool.or_eq_true, decide_eq_true_eq] at h
      rcases h with ((h | h) | h) | h <;> simp [h]
    · unfold punctuation at h
      grind
  rcases hu with rfl | rfl | rfl | rfl | rfl | rfl | rfl | rfl | rfl | rfl
  all_goals decide

theorem lex_quote (s : JsString) {value rest : JsString} (h : lexString s = some (value, rest)) :
    lex (quote :: s) = (lex rest).map (.scalar (.string value) :: ·) := by
  apply lex_scalar (by decide) (by decide)
  rw [matchScalar, if_pos rfl, h]
  rfl

theorem map_punctuation {u : CodeUnit} {token : Token} (h : punctuation u = some token)
    (f : Scalar → Scalar) : token.map f = token := by
  cases token with
  | scalar x =>
    unfold punctuation at h
    grind
  | openBrace | closeBrace | openBracket | closeBracket | comma | colon => rfl

theorem numericMirror_string {s value rest : JsString} (h : lexString s = some (value, rest)) :
    lex (numericMirror (quote :: s)) =
      (lex (numericMirror rest)).map (.scalar (.string value) :: ·) := by
  obtain ⟨body, hend, -, hlater⟩ := lexString_spec h
  rw [numericMirror, if_pos rfl, skipString_eq_stringEnd, hend]
  exact lex_quote _ (hlater _)

theorem numericMirror_number {u : CodeUnit} {s token rest : JsString} (hq : u ≠ quote)
    (h : matchNumber (u :: s) = some (token, rest)) :
    lex (numericMirror (u :: s)) =
      (lex (numericMirror rest)).map (.scalar (.string token) :: ·) := by
  obtain ⟨-, -, hunits⟩ := matchNumber_spec h
  have hplain : ∀ v ∈ token, isPlain v = true := fun v hv => isPlain_of_isNumberUnit (hunits v hv)
  rw [numericMirror, if_neg hq]
  split
  · next hn => rw [h] at hn; simp at hn
  · next token' rest' hm =>
    rw [h] at hm
    simp only [Option.some.injEq, Prod.mk.injEq] at hm
    obtain ⟨rfl, rfl⟩ := hm
    rw [stringify_plain hplain]
    show lex (quote :: (token ++ [quote] ++ numericMirror rest)) = _
    rw [List.append_assoc]
    exact lex_quote _ (lexString_stringify_plain hplain _)

theorem numericMirror_literal {u : CodeUnit} {s rest : JsString} {x : Scalar}
    (h : matchLiteral (u :: s) = some (x, rest)) :
    mirrorScalar x = x ∧
      lex (numericMirror (u :: s)) = (lex (numericMirror rest)).map (.scalar x :: ·) := by
  obtain ⟨name, happ, hne, hname⟩ := matchLiteral_spec h
  have hletters : ∀ v ∈ name, isLetter v = true := by
    rcases hname with ⟨rfl, -⟩ | ⟨rfl, -⟩ | ⟨rfl, -⟩
    all_goals exact List.all_eq_true.mp rfl
  have hread : ∀ later, matchLiteral (name ++ later) = some (x, later) := by
    intro later
    rcases hname with ⟨rfl, rfl⟩ | ⟨rfl, rfl⟩ | ⟨rfl, rfl⟩
    all_goals simp [matchLiteral, js, ofScalars, encodeScalar]
  refine ⟨by rcases hname with ⟨-, rfl⟩ | ⟨-, rfl⟩ | ⟨-, rfl⟩ <;> rfl, ?_⟩
  rw [happ, numericMirror_letters hletters]
  cases name with
  | nil => exact absurd rfl hne
  | cons v name =>
    obtain ⟨hq, hd, hm, hw⟩ := isLetter_spec (hletters v List.mem_cons_self)
    have hp : punctuation v = none := by
      rcases hname with ⟨hn, -⟩ | ⟨hn, -⟩ | ⟨hn, -⟩
      all_goals
        obtain rfl := (List.cons.inj hn).1
        decide
    apply lex_scalar hw hp
    have hmatch := hread (numericMirror rest)
    rw [List.cons_append] at hmatch
    show matchScalar (v :: (name ++ numericMirror rest)) = some (x, numericMirror rest)
    rw [matchScalar_literal hq (matchNumber_eq_none hd hm _), hmatch]

-- The mirror of a text with tokens has the same tokens, numbers turned into strings.
theorem lex_numericMirror {source : JsString} {tokens : List Token}
    (h : lex source = some tokens) :
    lex (numericMirror source) = some (tokens.map (Token.map mirrorScalar)) := by
  fun_induction lex source generalizing tokens with
  | case1 =>
    simp only [Option.some.injEq] at h
    rw [← h, numericMirror, lex]
    rfl
  | case2 u s hw ih =>
    obtain ⟨hq, hd, hm⟩ := plain_of_structural (.inl hw)
    rw [numericMirror_copy hq (matchNumber_eq_none hd hm s), lex_whiteSpace hw]
    exact ih h
  | case3 u s hw token hp ih =>
    obtain ⟨tokens', hs, rfl⟩ := Option.map_eq_some_iff.mp h
    have hsome : (punctuation u).isSome = true := by rw [hp]; rfl
    obtain ⟨hq, hd, hm⟩ := plain_of_structural (.inr hsome)
    rw [numericMirror_copy hq (matchNumber_eq_none hd hm s),
      lex_punctuation (by simpa using hw) hp, ih hs, List.map_cons, map_punctuation hp]
    rfl
  | case4 u s hw hp x rest hx hlt ih =>
    obtain ⟨tokens', hs, rfl⟩ := Option.map_eq_some_iff.mp h
    rw [List.map_cons]
    rw [matchScalar] at hx
    split at hx
    · next hq =>
      obtain ⟨⟨value, rest'⟩, hread, heq⟩ := Option.map_eq_some_iff.mp hx
      simp only [Prod.mk.injEq] at heq
      obtain ⟨rfl, rfl⟩ := heq
      rw [hq, numericMirror_string hread, ih hs]
      rfl
    · next hq =>
      split at hx
      · next token rest' hread =>
        simp only [Option.some.injEq, Prod.mk.injEq] at hx
        obtain ⟨rfl, rfl⟩ := hx
        rw [numericMirror_number hq hread, ih hs]
        rfl
      · obtain ⟨hsame, hlex⟩ := numericMirror_literal hx
        rw [hlex, ih hs, Token.map, hsame]
        rfl
  | case5 => simp at h

theorem parse_numericMirror {source : JsString} {tree : JsonTree Scalar}
    (h : parse source = some tree) :
    parse (numericMirror source) = some (tree.map mirrorScalar) := by
  obtain ⟨tokens, hlex, hparse⟩ := Option.bind_eq_some_iff.mp h
  rw [parse, lex_numericMirror hlex]
  exact parseTokens_map (fun _ => rfl) hparse

/-! ## The walk -/

section Walk

variable {σ : Type}

/-- A call of the visitor: the path of a number, the number, and what the mirror has there. -/
abbrev Visit := Path × Binary64 × Option Value

/-- The calls in turn, up to the first error. -/
def visitAll (number : NumberVisitor σ) : List Visit → σ → Except TeslatlasError σ
  | [], acc => .ok acc
  | (path, x, lexical) :: visits, acc =>
      match number path x lexical acc with
      | .error e => .error e
      | .ok acc => visitAll number visits acc

def visitOfLeaf (path : Path) (mirror : Option Value) (l : Path × Primitive) : Option Visit :=
  match l.2 with
  | .number x => some (path ++ l.1, x, mirror.bind fun m => m.get l.1)
  | _ => none

/-- The numbers under a value, each with what the mirror has at the same place. -/
def visits (path : Path) (value : Value) (mirror : Option Value) : List Visit :=
  value.leaves.filterMap (visitOfLeaf path mirror)

def VisitFrame.visits (frame : VisitFrame) : List Visit :=
  frame.entries.flatMap fun m =>
    Http.visits (frame.path ++ [m.1]) m.2 (frame.mirror.bind fun v => v.child m.1)

theorem visitOfLeaf_cons (path : Path) (mirror : Option Value) (key : JsString)
    (l : Path × Primitive) :
    visitOfLeaf path mirror (key :: l.1, l.2) =
      visitOfLeaf (path ++ [key]) (mirror.bind fun v => v.child key) l := by
  unfold visitOfLeaf
  cases l.2 with
  | number x =>
    simp only [List.append_assoc, List.singleton_append, Option.some.injEq, Prod.mk.injEq,
      true_and, Option.bind_assoc]
    rfl
  | null | boolean | string => rfl

-- A value's numbers: itself, if it is one, and those of its frame.
theorem visitAll_visits (number : NumberVisitor σ) (path : Path) (value : Value)
    (mirror : Option Value) (later : List Visit) (acc : σ) :
    visitAll number (visits path value mirror ++ later) acc =
      match visitNumber number value mirror path acc with
      | .error e => .error e
      | .ok acc =>
          visitAll number ((childFrames value mirror path).flatMap VisitFrame.visits ++ later)
            acc := by
  have hentries : ∀ entries : List (JsString × Value),
      (entries.flatMap fun m => (JsonTree.leaves m.2).map fun l => (m.1 :: l.1, l.2)).filterMap
          (visitOfLeaf path mirror) =
        VisitFrame.visits { path, mirror, entries } := by
    intro entries
    rw [List.filterMap_flatMap]
    apply List.flatMap_congr
    intro m _
    rw [List.filterMap_map]
    apply List.filterMap_congr
    intro l _
    exact visitOfLeaf_cons path mirror m.1 l
  cases value with
  | leaf x =>
    cases x with
    | number x =>
      simp only [visits, JsonTree.leaves, List.filterMap_cons, visitOfLeaf, List.append_nil,
        List.filterMap_nil, visitNumber, childFrames, List.flatMap_nil, List.nil_append,
        List.cons_append, visitAll]
      cases mirror <;> rfl
    | null | boolean | string => rfl
  | array items =>
    rw [visits, JsonTree.leaves_eq, List.nil_append, hentries]
    simp [visitNumber, childFrames]
  | object members =>
    rw [visits, JsonTree.leaves_eq, List.nil_append, hentries]
    simp [visitNumber, childFrames]

-- The loop calls the visitor on the numbers of its frames, in order.
theorem visitLoop_eq (number : NumberVisitor σ) (frames : List VisitFrame) (acc : σ) :
    visitLoop number frames acc = visitAll number (frames.flatMap VisitFrame.visits) acc := by
  fun_induction visitLoop number frames acc with
  | case1 acc => rfl
  | case2 acc path mirror frames ih => exact ih
  | case3 acc path mirror key child entries frames lexical e he =>
    rw [List.flatMap_cons]
    show _ = visitAll number ((visits (path ++ [key]) child lexical ++ _) ++ _) acc
    rw [List.append_assoc, visitAll_visits, he]
  | case4 acc path mirror key child entries frames lexical acc' hacc ih =>
    rw [List.flatMap_cons]
    show _ = visitAll number ((visits (path ++ [key]) child lexical ++ _) ++ _) acc
    rw [List.append_assoc, visitAll_visits, hacc, ih, List.flatMap_append, List.flatMap_cons]
    rfl

theorem visitJson_eq (number : NumberVisitor σ) (value : Value) (mirror : Option Value) (acc : σ) :
    visitJson number value mirror acc = visitAll number (visits [] value mirror) acc := by
  rw [visitJson, ← List.append_nil (visits [] value mirror), visitAll_visits, List.append_nil]
  cases visitNumber number value mirror [] acc with
  | error e => rfl
  | ok acc => exact visitLoop_eq number _ acc

end Walk

/-! ## What is recorded -/

/-- The number token that the text has at a path: of duplicate members, that of the last. -/
def sourceToken (tree : JsonTree Scalar) (path : Path) : Option JsString :=
  match tree.get path with
  | some (.leaf (.number token)) => some token
  | _ => none

theorem sourceToken_eq_some {tree : JsonTree Scalar} {path : Path} {token : JsString} :
    sourceToken tree path = some token ↔ tree.get path = some (.leaf (.number token)) := by
  unfold sourceToken
  split
  · next h => simp [h]
  · next hne =>
    constructor
    · intro h
      simp at h
    · intro h
      exact absurd h (hne token)

theorem settle_eq_leaf {t : JsonTree Scalar} {x : Scalar} : t.settle = .leaf x ↔ t = .leaf x := by
  cases t <;> simp [JsonTree.settle]

-- The scalars of the value at a path, and those of the text.
theorem get_settle_leaf (tree : JsonTree Scalar) (path : Path) (x : Scalar) :
    tree.settle.get path = some (.leaf x) ↔ tree.get path = some (.leaf x) := by
  rw [JsonTree.get_settle, Option.map_eq_some_iff]
  constructor
  · rintro ⟨c, hc, hx⟩
    rw [hc, settle_eq_leaf.mp hx]
  · intro h
    exact ⟨.leaf x, h, rfl⟩

-- The value of a syntax tree has a number exactly where the tree has a number token.
theorem get_number (tree : JsonTree Scalar) (path : Path) (x : Binary64) :
    (tree.settle.map Scalar.toPrimitive).get path = some (.leaf (.number x)) ↔
      ∃ token, sourceToken tree path = some token ∧ numberOfToken token = x := by
  rw [JsonTree.get_map, Option.map_eq_some_iff]
  constructor
  · rintro ⟨c, hc, hx⟩
    cases c with
    | leaf s =>
      cases s with
      | number token =>
        simp only [JsonTree.map, Scalar.toPrimitive, JsonTree.leaf.injEq, Primitive.number.injEq] at hx
        exact ⟨token, sourceToken_eq_some.mpr ((get_settle_leaf tree path _).mp hc), hx⟩
      | null | boolean | string => simp [JsonTree.map, Scalar.toPrimitive] at hx
    | array | object => simp [JsonTree.map] at hx
  · rintro ⟨token, htoken, rfl⟩
    exact ⟨_, (get_settle_leaf tree path _).mpr (sourceToken_eq_some.mp htoken), rfl⟩

/-- The calls made for a text. -/
def textVisits (tree : JsonTree Scalar) : List Visit :=
  visits [] (tree.settle.map Scalar.toPrimitive)
    (some ((tree.settle.map mirrorScalar).map Scalar.toPrimitive))

-- There is one call for each number token that counts, with its spelling.
theorem mem_textVisits (tree : JsonTree Scalar) (v : Visit) :
    v ∈ textVisits tree ↔
      ∃ token, sourceToken tree v.1 = some token ∧ numberOfToken token = v.2.1 ∧
        v.2.2 = some (.leaf (.string token)) := by
  obtain ⟨path, x, lexical⟩ := v
  have hmirror : ∀ token, sourceToken tree path = some token →
      ((tree.settle.map mirrorScalar).map Scalar.toPrimitive).get path =
        some (.leaf (.string token)) := by
    intro token h
    rw [JsonTree.get_map, JsonTree.get_map,
      (get_settle_leaf tree path _).mpr (sourceToken_eq_some.mp h)]
    rfl
  have hdistinct : (tree.settle.map Scalar.toPrimitive).Distinct := by
    rw [← JsonTree.settle_map]
    exact JsonTree.distinct_settle _
  have hleaf := JsonTree.mem_leaves_iff hdistinct path (.number x)
  rw [get_number] at hleaf
  rw [textVisits, visits, List.mem_filterMap]
  constructor
  · rintro ⟨⟨path', s⟩, hmem, hv⟩
    cases s with
    | number y =>
      simp only [visitOfLeaf, List.nil_append, Option.bind_some, Option.some.injEq,
        Prod.mk.injEq] at hv
      obtain ⟨rfl, rfl, rfl⟩ := hv
      obtain ⟨token, htoken, hx⟩ := hleaf.mp hmem
      exact ⟨token, htoken, hx, hmirror token htoken⟩
    | null | boolean | string => simp [visitOfLeaf] at hv
  · rintro ⟨token, htoken, hx, hl⟩
    refine ⟨(path, .number x), hleaf.mpr ⟨token, htoken, hx⟩, ?_⟩
    simp only at hl
    simp only [visitOfLeaf, List.nil_append, Option.bind_some, hmirror token htoken, hl]

/-- What the calls leave behind: the root is not recorded, and the latest call is in front. -/
def recorded (vs : List Visit) : NumericLexemes :=
  ((vs.filter fun v => v.1 ≠ []).map fun v => (v.1, v.2.2)).reverse

-- Recording fails exactly at a number that is not finite.
theorem visitAll_recordLexeme (validatorName : String) (vs : List Visit) (acc : NumericLexemes) :
    visitAll (recordLexeme validatorName) vs acc =
      if ∀ v ∈ vs, v.2.1.isFinite = true then
        .ok (recorded vs ++ acc)
      else .error (.protocolValidation (validatorName ++ ".number")) := by
  induction vs generalizing acc with
  | nil => simp [visitAll, recorded]
  | cons v vs ih =>
    obtain ⟨path, x, lexical⟩ := v
    rw [visitAll, recordLexeme]
    by_cases hx : x.isFinite = true
    · have hcons : (∀ v ∈ (path, x, lexical) :: vs, v.2.1.isFinite = true) ↔
          ∀ v ∈ vs, v.2.1.isFinite = true :=
        List.forall_mem_cons.trans (and_iff_right hx)
      rw [if_neg (by simp [hx])]
      by_cases hp : path = []
      · rw [if_pos hp]
        simp only
        rw [ih]
        by_cases hall : ∀ v ∈ vs, v.2.1.isFinite = true
        · rw [if_pos hall, if_pos (hcons.mpr hall), recorded, recorded,
            List.filter_cons_of_neg (by simp [hp])]
        · rw [if_neg hall, if_neg (mt hcons.mp hall)]
      · rw [if_neg hp]
        simp only
        rw [ih]
        by_cases hall : ∀ v ∈ vs, v.2.1.isFinite = true
        · rw [if_pos hall, if_pos (hcons.mpr hall), recorded, recorded,
            List.filter_cons_of_pos (by simp [hp])]
          simp
        · rw [if_neg hall, if_neg (mt hcons.mp hall)]
    · rw [if_pos (by simp [hx]), if_neg fun h => hx (h _ List.mem_cons_self)]

theorem NumericLexemes.mem_of_get {lexemes : NumericLexemes} {path : Path}
    {lexical : Option Value} (h : lexemes.get path = some lexical) : (path, lexical) ∈ lexemes := by
  obtain ⟨⟨path', lexical'⟩, hfind, rfl⟩ := Option.map_eq_some_iff.mp h
  have hp : path' = path := by simpa using List.find?_some hfind
  rw [← hp]
  exact List.mem_of_find?_eq_some hfind

theorem NumericLexemes.get_of_mem {lexemes : NumericLexemes} {path : Path}
    {lexical : Option Value} (h : (path, lexical) ∈ lexemes) :
    ∃ l, lexemes.get path = some l := by
  cases hfind : lexemes.find? fun l => l.1 = path with
  | none =>
    have := List.find?_eq_none.mp hfind _ h
    simp at this
  | some l => exact ⟨l.2, by rw [NumericLexemes.get, hfind]; rfl⟩

theorem mem_recorded (tree : JsonTree Scalar) {path : Path} (hpath : path ≠ [])
    (lexical : Option Value) :
    (path, lexical) ∈ recorded (textVisits tree) ↔
      ∃ token, sourceToken tree path = some token ∧ lexical = some (.leaf (.string token)) := by
  rw [recorded, List.mem_reverse, List.mem_map]
  constructor
  · rintro ⟨v, hv, heq⟩
    simp only [Prod.mk.injEq] at heq
    obtain ⟨rfl, rfl⟩ := heq
    obtain ⟨token, htoken, -, hl⟩ := (mem_textVisits tree v).mp (List.mem_filter.mp hv).1
    exact ⟨token, htoken, hl⟩
  · rintro ⟨token, htoken, rfl⟩
    refine ⟨(path, numberOfToken token, some (.leaf (.string token))),
      List.mem_filter.mpr ⟨(mem_textVisits tree _).mpr ⟨token, htoken, rfl, rfl⟩, ?_⟩, rfl⟩
    simpa using hpath

-- Inside the value, what is recorded at a path is the token that the text has there.
theorem get_recorded (tree : JsonTree Scalar) {path : Path} (hpath : path ≠ []) :
    (recorded (textVisits tree)).get path =
      (sourceToken tree path).map fun token => some (.leaf (.string token)) := by
  cases htoken : sourceToken tree path with
  | none =>
    cases hget : (recorded (textVisits tree)).get path with
    | none => rfl
    | some lexical =>
      obtain ⟨token, ht, -⟩ := (mem_recorded tree hpath lexical).mp
        (NumericLexemes.mem_of_get hget)
      rw [htoken] at ht
      simp at ht
  | some token =>
    obtain ⟨l, hl⟩ := NumericLexemes.get_of_mem
      ((mem_recorded tree hpath _).mpr ⟨token, htoken, rfl⟩)
    obtain ⟨token', ht, rfl⟩ := (mem_recorded tree hpath l).mp (NumericLexemes.mem_of_get hl)
    rw [htoken] at ht
    simp only [Option.some.injEq] at ht
    rw [hl, ht]
    rfl

-- Every number of the value is finite exactly when every recorded call is about a finite one.
theorem finite_iff_textVisits (tree : JsonTree Scalar) :
    (∀ path x, (tree.settle.map Scalar.toPrimitive).get path = some (.leaf (.number x)) →
      x.isFinite = true) ↔ ∀ v ∈ textVisits tree, v.2.1.isFinite = true := by
  constructor
  · intro h v hv
    obtain ⟨token, htoken, hx, -⟩ := (mem_textVisits tree v).mp hv
    exact h v.1 v.2.1 ((get_number tree v.1 v.2.1).mpr ⟨token, htoken, hx⟩)
  · intro h path x hget
    obtain ⟨token, htoken, hx⟩ := (get_number tree path x).mp hget
    exact h (path, x, some (.leaf (.string token)))
      ((mem_textVisits tree _).mpr ⟨token, htoken, hx, rfl⟩)

theorem jsonParse_eq_none {source : JsString} (h : parse source = none) :
    jsonParse source = none := by
  rw [jsonParse, h]
  rfl

theorem jsonParse_eq_some {source : JsString} {tree : JsonTree Scalar} (h : parse source = some tree) :
    jsonParse source = some (tree.settle.map Scalar.toPrimitive) := by
  rw [jsonParse, h]
  rfl

theorem parseProtocolJson_of_not_parse {source : JsString} (h : parse source = none)
    (validatorName : String) :
    parseProtocolJson source validatorName = .error (.protocolValidation validatorName) := by
  rw [parseProtocolJson, jsonParse_eq_none h]
  cases jsonParse (numericMirror source) <;> rfl

theorem parseProtocolJson_of_parse {source : JsString} {tree : JsonTree Scalar}
    (h : parse source = some tree) (validatorName : String) :
    parseProtocolJson source validatorName =
      if ∀ v ∈ textVisits tree, v.2.1.isFinite = true then
        .ok (tree.settle.map Scalar.toPrimitive, recorded (textVisits tree))
      else .error (.protocolValidation (validatorName ++ ".number")) := by
  have hmirror : jsonParse (numericMirror source) =
      some ((tree.settle.map mirrorScalar).map Scalar.toPrimitive) := by
    rw [jsonParse_eq_some (parse_numericMirror h), JsonTree.settle_map]
  rw [parseProtocolJson, jsonParse_eq_some h, hmirror]
  simp only [visitJson_eq]
  rw [← textVisits, visitAll_recordLexeme, List.append_nil]
  by_cases hall : ∀ v ∈ textVisits tree, v.2.1.isFinite = true
  · rw [if_pos hall, if_pos hall]
  · rw [if_neg hall, if_neg hall]

-- `parseProtocolJson` succeeds exactly when `JSON.parse` does and every number of the value is
-- finite.  Then its value is that of `JSON.parse`, and the lexeme recorded at a place inside the value
-- is the token that the text has there, if the value there is a number, and none otherwise.
theorem parseProtocolJson_eq_jsonParse (source : JsString) (validatorName : String) :
    ((∃ r, parseProtocolJson source validatorName = .ok r) ↔
      ∃ value, jsonParse source = some value ∧
        ∀ path x, value.get path = some (.leaf (.number x)) → x.isFinite = true) ∧
    ∀ value lexemes, parseProtocolJson source validatorName = .ok (value, lexemes) →
      jsonParse source = some value ∧
      ∃ tree, parse source = some tree ∧
        (∀ path x, value.get path = some (.leaf (.number x)) ↔
          ∃ token, sourceToken tree path = some token ∧ numberOfToken token = x) ∧
        (∀ path, path ≠ [] → lexemes.get path =
          (sourceToken tree path).map fun token => some (.leaf (.string token))) := by
  cases hparse : parse source with
  | none =>
    rw [parseProtocolJson_of_not_parse hparse, jsonParse_eq_none hparse]
    simp
  | some tree =>
    rw [parseProtocolJson_of_parse hparse, jsonParse_eq_some hparse]
    by_cases hall : ∀ v ∈ textVisits tree, v.2.1.isFinite = true
    · rw [if_pos hall]
      refine ⟨⟨fun _ => ⟨_, rfl, (finite_iff_textVisits tree).mpr hall⟩, fun _ => ⟨_, rfl⟩⟩, ?_⟩
      intro value lexemes h
      simp only [Except.ok.injEq, Prod.mk.injEq] at h
      obtain ⟨rfl, rfl⟩ := h
      exact ⟨rfl, tree, rfl, get_number tree, fun path hpath => get_recorded tree hpath⟩
    · rw [if_neg hall]
      refine ⟨⟨?_, ?_⟩, ?_⟩
      · rintro ⟨r, hr⟩
        simp at hr
      · rintro ⟨value, hv, hf⟩
        simp only [Option.some.injEq] at hv
        subst hv
        exact absurd ((finite_iff_textVisits tree).mp hf) hall
      · intro value lexemes h
        simp at h

end Http
