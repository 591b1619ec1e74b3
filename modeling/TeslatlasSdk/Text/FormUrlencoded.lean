import TeslatlasSdk.Text.UriComponent

/-!
# `URLSearchParams`

Query strings as `URLSearchParams` writes them.  Names and values are converted to code points when
they are appended, so that a lone surrogate is U+FFFD.
-/

namespace Text

/-- Letters, digits and `*-._` stand for themselves. -/
def isFormUnreserved (byte : Nat) : Bool :=
  (0x30 ≤ byte && byte ≤ 0x39) || (0x41 ≤ byte && byte ≤ 0x5A) || (0x61 ≤ byte && byte ≤ 0x7A) ||
    byte = 0x2A || byte = 0x2D || byte = 0x2E || byte = 0x5F

def formByte (byte : UInt8) : JsString :=
  if byte = 0x20 then [0x2B]
  else if isFormUnreserved byte.toNat then [UInt16.ofNat byte.toNat]
  else percentByte byte.toNat

def formEncode (s : JsString) : JsString := (utf8Encode s).flatMap formByte

/-- The `toString` of the parameters appended in turn. -/
def formSerialize : List (JsString × JsString) → JsString
  | [] => []
  | [(name, value)] => formEncode name ++ 0x3D :: formEncode value
  | (name, value) :: pairs =>
      formEncode name ++ 0x3D :: (formEncode value ++ 0x26 :: formSerialize pairs)

example : formSerialize [(js "cursor", js "a b&c"), (js "limit", js "5")] =
    js "cursor=a+b%26c&limit=5" := by decide

end Text
