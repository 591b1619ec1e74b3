import TeslatlasSdk.Json.Accepted
import TeslatlasSdk.Json.Quote

/-!
# Strict JSON

`parseStrictJson` of the provenance checker.  A position in the source is the text from there on;
`n` is the length of the whole source, from which the positions in messages are counted.
-/

open Text Json

namespace Scripts

inductive StrictJsonProblem where
  | invalidJson
  | invalidString
  | controlCharacter
  | unterminatedString
  | objectSyntax
  | unterminatedObject
  | arraySyntax
  | unterminatedArray
  | trailingData
  deriving DecidableEq, Repr

namespace StrictJsonProblem

def message : StrictJsonProblem → String
  | .invalidJson => "contains invalid JSON"
  | .invalidString => "contains an invalid string"
  | .controlCharacter => "contains a control character"
  | .unterminatedString => "contains an unterminated string"
  | .objectSyntax => "contains invalid object syntax"
  | .unterminatedObject => "contains an unterminated object"
  | .arraySyntax => "contains invalid array syntax"
  | .unterminatedArray => "contains an unterminated array"
  | .trailingData => "contains trailing data"

end StrictJsonProblem

inductive StrictJsonError where
  | fail (problem : StrictJsonProblem) (position : Nat)
  | duplicateKey (key : JsString)
  deriving DecidableEq, Repr

namespace StrictJsonError

def message (label : JsString) : StrictJsonError → JsString
  | .fail problem position => label ++ js " " ++ js problem.message ++ js " at byte " ++
      decimal position
  | .duplicateKey key => label ++ js " contains duplicate key " ++ stringify key

end StrictJsonError

/-- What has been read off the front of a text, and the rest, which is shorter. -/
structure Taken (α : Type) (s : JsString) where
  value : α
  rest : JsString
  shorter : rest.length < s.length

/-- `fail`, where the text from the position on is `s`. -/
def fail {α : Type} (n : Nat) (problem : StrictJsonProblem) (s : JsString) :
    Except StrictJsonError α :=
  .error (.fail problem (n - s.length))

def closeBrace : CodeUnit := 0x7D

def closeBracket : CodeUnit := 0x5D

def comma : CodeUnit := 0x2C

def colon : CodeUnit := 0x3A

/-! ## Pieces of a text -/

/-- `whitespace()`. -/
def whitespace (s : JsString) : JsString := s.dropWhile isJsonWhiteSpace

theorem whitespace_length (s : JsString) : (whitespace s).length ≤ s.length :=
  (List.dropWhile_sublist _).length_le

/-- The unit `u` behind white space. -/
def takeUnit (u : CodeUnit) (s : JsString) : Option (Taken Unit s) :=
  match h : whitespace s with
  | [] => none
  | first :: rest =>
      if first = u then
        some ⟨(), rest, by
          have hle := whitespace_length s
          rw [h, List.length_cons] at hle
          omega⟩
      else none

theorem length_lt_cons {u : CodeUnit} {s rest : JsString} (h : rest.length < s.length) :
    rest.length < (u :: s).length := Nat.lt_succ_of_lt h

theorem length_lt_cons_cons {u e : CodeUnit} {s rest : JsString} (h : rest.length < s.length) :
    rest.length < (u :: e :: s).length := length_lt_cons (length_lt_cons h)

/-- The loop of `string()`, from behind the opening quote: the text up to and including the closing
one. -/
def scanString (n : Nat) : (s : JsString) → Except StrictJsonError (Taken JsString s)
  | [] => fail n .unterminatedString []
  | u :: s =>
      if u = quote then .ok ⟨[u], s, by simp⟩
      else if u = backslash then
        match s with
        -- The position is now one behind the end.
        | [] => .error (.fail .unterminatedString (n + 1))
        | e :: s =>
            match scanString n s with
            | .ok ⟨body, rest, h⟩ =>
                .ok ⟨u :: e :: body, rest, length_lt_cons_cons h⟩
            | .error error => .error error
      else if u < 0x20 then fail n .controlCharacter (u :: s)
      else
        match scanString n s with
        | .ok ⟨body, rest, h⟩ => .ok ⟨u :: body, rest, length_lt_cons h⟩
        | .error error => .error error

/-- `string()`. -/
def string (n : Nat) : (s : JsString) → Except StrictJsonError (Taken JsString s)
  | [] => fail n .invalidJson []
  | u :: s =>
      if u = quote then
        match scanString n s with
        | .ok ⟨body, rest, h⟩ =>
            match jsonParse (quote :: body) with
            | some (.leaf (.string value)) =>
                .ok ⟨value, rest, length_lt_cons h⟩
            | _ => fail n .invalidString rest
        | .error error => .error error
      else fail n .invalidJson (u :: s)

/-- The token that `value()` matches, and the rest. -/
def matchToken (s : JsString) : Option (Scalar × JsString) :=
  match matchLiteral s with
  | some r => some r
  | none => (matchNumber s).map fun r => (.number r.1, r.2)

theorem matchToken_length {s rest : JsString} {x : Scalar} (h : matchToken s = some (x, rest)) :
    rest.length < s.length := by
  unfold matchToken at h
  split at h
  · next r hr =>
    obtain rfl := Option.some.inj h
    obtain ⟨name, happ, hne, -⟩ := matchLiteral_spec hr
    rw [happ, List.length_append]
    have hpos := List.length_pos_iff.mpr hne
    omega
  · obtain ⟨⟨token, rest'⟩, hm, heq⟩ := Option.map_eq_some_iff.mp h
    obtain ⟨-, rfl⟩ := Prod.mk.inj heq
    obtain ⟨happ, hne, -⟩ := matchNumber_spec hm
    have hpos := List.length_pos_iff.mpr hne
    rw [← happ, List.length_append]
    exact Nat.lt_add_of_pos_left hpos

/-- The end of `value()`: a literal or a number, whose value is that of `JSON.parse(token)`. -/
def token (n : Nat) (s : JsString) : Except StrictJsonError (Taken Value s) :=
  match h : matchToken s with
  | some (x, rest) => .ok ⟨.leaf x.toPrimitive, rest, matchToken_length h⟩
  | none => fail n .invalidJson s

/-! ## Values -/

mutual

/-- `value()`. -/
def value (n : Nat) (s : JsString) : Except StrictJsonError (Taken Value s) :=
  match valueHere n (whitespace s) with
  | .ok ⟨v, rest, h⟩ => .ok ⟨v, rest, Nat.lt_of_lt_of_le h (whitespace_length s)⟩
  | .error error => .error error
termination_by (s.length, 1)
decreasing_by
  have hle := whitespace_length s
  rw [Prod.lex_iff]
  simp only
  omega

/-- `value()`, behind its white space. -/
def valueHere (n : Nat) : (s : JsString) → Except StrictJsonError (Taken Value s)
  | [] => token n []
  | u :: s =>
      if u = quote then
        match string n (u :: s) with
        | .ok ⟨v, rest, h⟩ => .ok ⟨.leaf (.string v), rest, h⟩
        | .error error => .error error
      else if u = 0x7B then
        match takeUnit closeBrace s with
        | some ⟨_, rest, h⟩ => .ok ⟨.object [], rest, by simp only [List.length_cons]; omega⟩
        | none =>
            match members n [] [] (whitespace s) with
            | .ok ⟨result, rest, h⟩ =>
                .ok ⟨.object result, rest, by
                  have hle := whitespace_length s
                  simp only [List.length_cons]
                  omega⟩
            | .error error => .error error
      else if u = 0x5B then
        match takeUnit closeBracket s with
        | some ⟨_, rest, h⟩ => .ok ⟨.array [], rest, by simp only [List.length_cons]; omega⟩
        | none =>
            match items n [] (whitespace s) with
            | .ok ⟨result, rest, h⟩ =>
                .ok ⟨.array result, rest, by
                  have hle := whitespace_length s
                  simp only [List.length_cons]
                  omega⟩
            | .error error => .error error
      else token n (u :: s)
termination_by s => (s.length, 0)
decreasing_by
  all_goals
    have hle := whitespace_length s
    rw [Prod.lex_iff]
    simp only [List.length_cons]
    omega

/-- The loop over the members of an object, whose keys so far are `keys`. -/
def members (n : Nat) (keys : List JsString) (result : List (JsString × Value)) :
    (s : JsString) → Except StrictJsonError (Taken (List (JsString × Value)) s)
  | [] => fail n .unterminatedObject []
  | u :: s =>
      match string n (whitespace (u :: s)) with
      | .error error => .error error
      | .ok ⟨key, afterKey, h₁⟩ =>
          if key ∈ keys then .error (.duplicateKey key)
          else
            match takeUnit colon afterKey with
            | none => fail n .objectSyntax (whitespace afterKey)
            | some ⟨_, afterColon, h₂⟩ =>
                match value n afterColon with
                | .error error => .error error
                | .ok ⟨v, afterValue, h₃⟩ =>
                    match takeUnit closeBrace afterValue with
                    | some ⟨_, rest, h₄⟩ =>
                        .ok ⟨defineMember key v result, rest, by
                          have hle := whitespace_length (u :: s)
                          omega⟩
                    | none =>
                        match takeUnit comma afterValue with
                        | none => fail n .objectSyntax (whitespace afterValue)
                        | some ⟨_, afterComma, h₄⟩ =>
                            match members n (key :: keys) (defineMember key v result)
                                afterComma with
                            | .ok ⟨result, rest, h₅⟩ =>
                                .ok ⟨result, rest, by
                                  have hle := whitespace_length (u :: s)
                                  omega⟩
                            | .error error => .error error
termination_by s => (s.length, 0)
decreasing_by
  all_goals
    have hle := whitespace_length (u :: s)
    rw [Prod.lex_iff]
    simp only
    omega

/-- The loop over the items of an array. -/
def items (n : Nat) (result : List Value) :
    (s : JsString) → Except StrictJsonError (Taken (List Value) s)
  | [] => fail n .unterminatedArray []
  | u :: s =>
      match value n (u :: s) with
      | .error error => .error error
      | .ok ⟨v, afterValue, h₁⟩ =>
          match takeUnit closeBracket afterValue with
          | some ⟨_, rest, h₂⟩ => .ok ⟨result ++ [v], rest, by omega⟩
          | none =>
              match takeUnit comma afterValue with
              | none => fail n .arraySyntax (whitespace afterValue)
              | some ⟨_, afterComma, h₂⟩ =>
                  match items n (result ++ [v]) afterComma with
                  | .ok ⟨result, rest, h₃⟩ => .ok ⟨result, rest, by omega⟩
                  | .error error => .error error
termination_by s => (s.length, 2)
decreasing_by
  · exact Prod.Lex.right _ (by decide)
  · exact Prod.Lex.left _ _ (by omega)

end

/-- `parseStrictJson`, where the source is a string. -/
def parseStrictJson (source : JsString) : Except StrictJsonError Value :=
  match value source.length source with
  | .error error => .error error
  | .ok ⟨result, rest, _⟩ =>
      match whitespace rest with
      | [] => .ok result
      | u :: rest => fail source.length .trailingData (u :: rest)

end Scripts
