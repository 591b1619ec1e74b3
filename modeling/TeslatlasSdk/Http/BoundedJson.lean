import TeslatlasSdk.Core.Errors
import TeslatlasSdk.Json.Quote

/-!
# `parseProtocolJson`

The text is parsed twice: as it is, and with every number token turned into a string that spells it.
A walk over both results together records, for each number of the first, the spelling that stands at
the same place of the second.
-/

open Text Core Json

namespace Http

/-! ## The mirror text -/

/-- From behind an opening quote, skip to behind the closing one.  The backslashes are counted
backwards from a quote; the unit in front of `s` is a quote, where that count stops at the latest. -/
def skipString (s : JsString) : JsString × JsString :=
  match h : s.dropWhile (· != quote) with
  | [] => (s, [])
  | q :: rest =>
      let segment := s.takeWhile (· != quote)
      let slashes := (segment.reverse.takeWhile (· == backslash)).length
      if slashes % 2 = 0 then (segment ++ [q], rest)
      else
        have : rest.length < s.length := by
          have hle := (List.dropWhile_sublist (l := s) (· != quote)).length_le
          rw [h] at hle
          exact hle
        (segment ++ q :: (skipString rest).1, (skipString rest).2)
termination_by s.length

-- What is skipped comes off the front of the text.
theorem skipString_append (s : JsString) : (skipString s).1 ++ (skipString s).2 = s := by
  fun_induction skipString s with
  | case1 s h => simp
  | case2 s q rest h =>
    have hs := List.takeWhile_append_dropWhile (p := (· != quote)) (l := s)
    rw [h] at hs
    simpa using hs
  | case3 s q rest h segment slashes hodd hlt ih =>
    have hs := List.takeWhile_append_dropWhile (p := (· != quote)) (l := s)
    rw [h] at hs
    rw [List.append_assoc, List.cons_append, ih]
    exact hs

theorem skipString_length (u : CodeUnit) (s : JsString) :
    (skipString s).2.length < (u :: s).length := by
  have h := congrArg List.length (skipString_append s)
  simp only [List.length_append, List.length_cons] at h ⊢
  omega

theorem matchNumber_length {s token rest : JsString} (h : matchNumber s = some (token, rest)) :
    rest.length < s.length := by
  obtain ⟨happ, hne, -⟩ := matchNumber_spec h
  have hpos := List.length_pos_iff.mpr hne
  rw [← happ, List.length_append]
  omega

def numericMirror (source : JsString) : JsString :=
  match source with
  | [] => []
  | u :: s =>
      if u = quote then
        have : (skipString s).2.length < (u :: s).length := skipString_length u s
        u :: (skipString s).1 ++ numericMirror (skipString s).2
      else
        match h : matchNumber (u :: s) with
        | none => u :: numericMirror s
        | some (token, rest) =>
            have : rest.length < (u :: s).length := matchNumber_length h
            stringify token ++ numericMirror rest
termination_by source.length
decreasing_by
  all_goals
    simp only [List.length_cons] at *
    omega

/-! ## Walking two values together -/

structure VisitFrame where
  path : Path
  mirror : Option Value
  /-- The children that are left, under their keys. -/
  entries : List (JsString × Value)

/-- Called on a number with its path (empty at the root) and what the mirror has there. -/
abbrev NumberVisitor (σ : Type) :=
  Path → Binary64 → Option Value → σ → Except TeslatlasError σ

variable {σ : Type}

/-- The frame of an array or object; a scalar has none.  A parsed value shares no part of itself, so
none of its parts has been visited before. -/
def childFrames (child : Value) (lexical : Option Value) (path : Path) : List VisitFrame :=
  match child with
  | .leaf _ => []
  | _ => [{ path, mirror := lexical, entries := child.entries }]

def visitNumber (number : NumberVisitor σ) (child : Value) (lexical : Option Value) (path : Path)
    (acc : σ) : Except TeslatlasError σ :=
  match child with
  | .leaf (.number x) => number path x lexical acc
  | _ => .ok acc

def VisitFrame.weight (frame : VisitFrame) : Nat := 1 + 2 * JsonTree.membersSize frame.entries

theorem weight_childFrames (child : Value) (lexical : Option Value) (path : Path) :
    ((childFrames child lexical path).map VisitFrame.weight).sum < 2 * child.size := by
  cases child with
  | leaf x => simp [childFrames, JsonTree.size]
  | array items =>
    have h : ∀ i, JsonTree.membersSize (indexed i items) = JsonTree.itemsSize items := by
      induction items with
      | nil => exact fun _ => rfl
      | cons item items ih =>
        intro i
        rw [indexed, JsonTree.membersSize, ih, JsonTree.itemsSize]
    simp only [childFrames, VisitFrame.weight, JsonTree.entries, h, JsonTree.size, List.map_cons,
      List.map_nil, List.sum_cons, List.sum_nil]
    omega
  | object members =>
    simp only [childFrames, VisitFrame.weight, JsonTree.entries, JsonTree.size, List.map_cons,
      List.map_nil, List.sum_cons, List.sum_nil]
    omega

/-- The loop of `visitJson`: the frame on top is worked on. -/
def visitLoop (number : NumberVisitor σ) (frames : List VisitFrame) (acc : σ) :
    Except TeslatlasError σ :=
  match frames with
  | [] => .ok acc
  | { path := _, mirror := _, entries := [] } :: frames => visitLoop number frames acc
  | { path, mirror, entries := (key, child) :: entries } :: frames =>
      let lexical := mirror.bind fun m => m.child key
      match visitNumber number child lexical (path ++ [key]) acc with
      | .error e => .error e
      | .ok acc =>
          visitLoop number
            (childFrames child lexical (path ++ [key]) ++ { path, mirror, entries } :: frames) acc
termination_by (frames.map VisitFrame.weight).sum
decreasing_by
  · simp only [List.map_cons, List.sum_cons, VisitFrame.weight]
    omega
  · have h := weight_childFrames child (mirror.bind fun m => m.child key) (path ++ [key])
    simp only [List.map_append, List.map_cons, List.sum_append, List.sum_cons, VisitFrame.weight,
      JsonTree.membersSize]
    omega

def visitJson (number : NumberVisitor σ) (value : Value) (mirror : Option Value) (acc : σ) :
    Except TeslatlasError σ :=
  match visitNumber number value mirror [] acc with
  | .error e => .error e
  | .ok acc => visitLoop number (childFrames value mirror []) acc

/-! ## Parsing -/

/-- `numericLexemes` for the parts of one parsed value.  The path of a number stands for the object
it is in and its key there; the latest entry of a path counts. -/
abbrev NumericLexemes := List (Path × Option Value)

def NumericLexemes.get (lexemes : NumericLexemes) (path : Path) : Option (Option Value) :=
  (lexemes.find? fun l => l.1 = path).map Prod.snd

/-- The callback of `parseProtocolJson`. -/
def recordLexeme (validatorName : String) : NumberVisitor NumericLexemes :=
  fun path x lexical tokens =>
    if !x.isFinite then .error (.protocolValidation (validatorName ++ ".number"))
    else if path = [] then .ok tokens
    else .ok ((path, lexical) :: tokens)

def parseProtocolJson (source : JsString) (validatorName : String) :
    Except TeslatlasError (Value × NumericLexemes) :=
  match jsonParse (numericMirror source), jsonParse source with
  | some mirror, some value =>
      match visitJson (recordLexeme validatorName) value (some mirror) [] with
      | .error e => .error e
      | .ok lexemes => .ok (value, lexemes)
  | _, _ => .error (.protocolValidation validatorName)

end Http
