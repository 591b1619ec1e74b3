import TeslatlasSdk.Text.Digits

/-!
# Numbers as option values

Options and callbacks of the SDK take a JavaScript number where only a safe integer is meant.  All
that the code asks of such a number is whether it is one, and for its text.
-/

open Text

namespace Core

/-- A number with an integer value that `String` writes in decimal, or any other number (a fraction,
an infinity, NaN, one of 22 digits or more) by its text. -/
inductive JsNumber where
  | integer (value : Int)
  | other (text : JsString)
  deriving DecidableEq, Repr

/-- `Number.MAX_SAFE_INTEGER`. -/
def maximumSafeInteger : Nat := 2 ^ 53 - 1

/-- `isNonNegativeSafeInteger`, with the integer it finds. -/
def JsNumber.nonNegativeSafeInteger? : JsNumber → Option Nat
  | .integer (.ofNat value) => if value ≤ maximumSafeInteger then some value else none
  | _ => none

/-- `Number.isSafeInteger`, with the integer. -/
def JsNumber.safeInteger? : JsNumber → Option Int
  | .integer value => if value.natAbs ≤ maximumSafeInteger then some value else none
  | .other _ => none

/-- `String(value)`. -/
def JsNumber.text : JsNumber → JsString
  | .integer (.ofNat value) => decimal value
  | .integer (.negSucc value) => 0x2D :: decimal (value + 1)
  | .other text => text

end Core
