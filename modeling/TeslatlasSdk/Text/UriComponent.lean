import TeslatlasSdk.Text.Digits
import TeslatlasSdk.Text.Utf8Encoder

/-!
# `encodeURIComponent`
-/

namespace Text

def upperHexUnit (n : Nat) : CodeUnit := UInt16.ofNat (if n < 10 then 0x30 + n else 0x37 + n)

def percentByte (byte : Nat) : JsString :=
  [0x25, upperHexUnit (byte / 16), upperHexUnit (byte % 16)]

def percentEncode (code : Nat) : JsString := (utf8Bytes code).flatMap percentByte

/-- Letters, digits and `-_.!~*'()` stand for themselves. -/
def isUriUnreserved (u : CodeUnit) : Bool :=
  isDigit u || (0x41 ≤ u && u ≤ 0x5A) || (0x61 ≤ u && u ≤ 0x7A) ||
    (js "-_.!~*'()").contains u

/-- `none` for the `URIError` of a lone surrogate. -/
def encodeURIComponent : JsString → Option JsString
  | [] => some []
  | [u] =>
      if isHighSurrogate u || isLowSurrogate u then none
      else some (if isUriUnreserved u then [u] else percentEncode u.toNat)
  | u :: v :: rest =>
      if isHighSurrogate u && isLowSurrogate v then
        (encodeURIComponent rest).map
          (percentEncode (pairCodePoint u v) ++ ·)
      else if isHighSurrogate u || isLowSurrogate u then none
      else
        (encodeURIComponent (v :: rest)).map
          ((if isUriUnreserved u then [u] else percentEncode u.toNat) ++ ·)

example : encodeURIComponent (js "a/é€") = some (js "a%2F%C3%A9%E2%82%AC") := by decide

end Text
