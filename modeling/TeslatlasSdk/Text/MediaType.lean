import TeslatlasSdk.Text.CodeUnits

/-!
# Media types of header values
-/

namespace Text

/-- White space and line terminators, which `trim` removes. -/
def isWhiteSpace (u : CodeUnit) : Bool :=
  (0x09 ≤ u && u ≤ 0x0D) || u = 0x20 || u = 0xA0 || u = 0x1680 || (0x2000 ≤ u && u ≤ 0x200A) ||
    u = 0x2028 || u = 0x2029 || u = 0x202F || u = 0x205F || u = 0x3000 || u = 0xFEFF

def trim (value : JsString) : JsString :=
  ((value.dropWhile isWhiteSpace).reverse.dropWhile isWhiteSpace).reverse

/-- `toLowerCase` on a header value, whose units are bytes; only ASCII letters matter here. -/
def toLowerCase (value : JsString) : JsString :=
  value.map fun u => if 0x41 ≤ u && u ≤ 0x5A then u + 0x20 else u

/-- `value.split(";", 1)[0].trim().toLowerCase()`. -/
def mediaType (value : JsString) : JsString := toLowerCase (trim (value.takeWhile (· != 0x3B)))

end Text
