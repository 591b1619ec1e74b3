import TeslatlasSdk.Core.Errors
import TeslatlasSdk.Text.Digits

/-!
# Opaque values

Strings that the SDK hands on without looking into them, but for their syntax.
-/

open Text

namespace Core

/-- `isStrongEntityTag`. -/
def isStrongEntityTag (value : JsString) : Bool :=
  !containsControlCharacters value && 3 ≤ value.length && value.head? = some 0x22 &&
    value.getLast? = some 0x22 && !(value.drop 1).dropLast.contains 0x22

/-- `asStrongEntityTag`. -/
def asStrongEntityTag (value : JsString) : Except TeslatlasError JsString :=
  if value.length > 512 || !isStrongEntityTag value then .error .invalidStrongEntityTag
  else .ok value

/-- Whether `asEntityTag` passes the value: a strong tag, or one behind `W/`. -/
def isEntityTag (value : JsString) : Bool :=
  isStrongEntityTag (if js "W/" <+: value then value.drop 2 else value)

def asEntityTag (value : JsString) : Except TeslatlasError JsString :=
  if isEntityTag value then .ok value else .error .invalidEntityTag

def asProtocolErrorCode (value : JsString) : Except TeslatlasError JsString :=
  if value.isEmpty || containsControlCharacters value then .error .invalidProtocolErrorCode
  else .ok value

def asSafeRequestId (value : JsString) : Except TeslatlasError JsString :=
  if value.isEmpty || value.length > 256 || containsControlCharacters value then
    .error .invalidSafeRequestId
  else .ok value

/-- Whether `asOpaqueCursor` passes the value. -/
def isOpaqueCursor (value : JsString) : Bool := !value.isEmpty && !containsControlCharacters value

def isHexUnit (u : CodeUnit) : Bool :=
  isDigit u || (0x61 ≤ u && u ≤ 0x66) || (0x41 ≤ u && u ≤ 0x46)

/-- `asIdempotencyKey`. -/
def asIdempotencyKey (value : JsString) : Except TeslatlasError JsString :=
  let isUuidSyntax := value.length = 36 && value.zipIdx.all fun (u, k) =>
    if k = 8 ∨ k = 13 ∨ k = 18 ∨ k = 23 then u = 0x2D else isHexUnit u
  if isUuidSyntax then .ok value else .error .invalidIdempotencyKey

end Core
