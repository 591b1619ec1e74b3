import TeslatlasSdk.Core.Errors
import TeslatlasSdk.Core.Numbers
import TeslatlasSdk.Json.Number

/-!
# Semantic versions

`parseProtocolVersion`: a pattern, then a range check of the numbers and a look at the numeric
identifiers of the prerelease.
-/

open Text Json

namespace Core

structure ProtocolVersion where
  major : Nat
  minor : Nat
  patch : Nat
  prerelease : Option JsString
  build : Option JsString
  deriving DecidableEq, Repr

def hyphen : CodeUnit := 0x2D

def isIdentifierUnit (u : CodeUnit) : Bool :=
  isDigit u || (0x41 ≤ u && u ≤ 0x5A) || (0x61 ≤ u && u ≤ 0x7A) || u = hyphen

/-- `[0-9A-Za-z-]+(?:\.[0-9A-Za-z-]+)*`, where no dot and no unit of an identifier follows. -/
def matchIdentifiers (s : JsString) : Option (JsString × JsString) :=
  let run := s.takeWhile fun u => isIdentifierUnit u || u = point
  if (run.splitOn point).any List.isEmpty then none
  else some (run, s.dropWhile fun u => isIdentifierUnit u || u = point)

/-- Identifiers behind a mark, if the mark is there. -/
def matchMarked (mark : CodeUnit) : JsString → Option (Option JsString × JsString)
  | [] => some (none, [])
  | u :: s =>
      if u = mark then (matchIdentifiers s).map fun found => (some found.1, found.2)
      else some (none, u :: s)

/-- A unit that has to come next. -/
def matchUnit (unit : CodeUnit) : JsString → Option JsString
  | [] => none
  | u :: s => if u = unit then some s else none

/-- The groups of `semanticVersionPattern`. -/
structure SemanticVersionMatch where
  major : JsString
  minor : JsString
  patch : JsString
  prerelease : Option JsString
  build : Option JsString

/-- `semanticVersionPattern.exec(value)`. -/
def matchSemanticVersion (value : JsString) : Option SemanticVersionMatch := do
  let (major, s) ← matchInteger value
  let s ← matchUnit point s
  let (minor, s) ← matchInteger s
  let s ← matchUnit point s
  let (patch, s) ← matchInteger s
  let (prerelease, s) ← matchMarked hyphen s
  let (build, s) ← matchMarked 0x2B s
  if s.isEmpty then return { major, minor, patch, prerelease, build } else none

/-- `parseSafeInteger`, on digits.  A number from 2^53 on is not rounded to a smaller one. -/
def parseSafeInteger (digits : JsString) : Option Nat :=
  if digitsValue digits ≤ maximumSafeInteger then some (digitsValue digits) else none

/-- `/^\d+$/u.test(identifier) && /^0\d+/u.test(identifier)`. -/
def isInvalidNumeric (identifier : JsString) : Bool :=
  !identifier.isEmpty && identifier.all isDigit && identifier.head? = some 0x30 &&
    1 < identifier.length

def hasInvalidNumericPrerelease : Option JsString → Bool
  | none => false
  | some prerelease => (prerelease.splitOn point).any isInvalidNumeric

def parseProtocolVersion (value : JsString) : Except TeslatlasError ProtocolVersion :=
  match matchSemanticVersion value with
  | none => .error .invalidProtocolVersion
  | some found =>
      match parseSafeInteger found.major, parseSafeInteger found.minor,
          parseSafeInteger found.patch with
      | some major, some minor, some patch =>
          if hasInvalidNumericPrerelease found.prerelease then .error .invalidProtocolVersion
          else .ok { major, minor, patch, prerelease := found.prerelease, build := found.build }
      | _, _, _ => .error .invalidProtocolVersion

example : parseProtocolVersion (js "1.2.0-rc.1+b") =
    .ok ⟨1, 2, 0, some (js "rc.1"), some (js "b")⟩ := by decide

theorem parseProtocolVersion_error {value : JsString} {e : TeslatlasError}
    (h : parseProtocolVersion value = .error e) : e = .invalidProtocolVersion := by
  rw [parseProtocolVersion] at h
  split at h
  · exact (Except.error.inj h).symm
  split at h
  · split at h
    · exact (Except.error.inj h).symm
    · cases h
  · exact (Except.error.inj h).symm

end Core
