import TeslatlasSdk.Text.CodeUnits

/-!
# Streaming UTF-8 decoding

The decoder consumes one byte at a time and keeps an unfinished sequence between calls, so decoding
window by window and decoding the concatenation give the same scalar values.  A malformed sequence
becomes U+FFFD and the byte that broke it is read again as a lead byte.
-/

namespace Text

/-- U+FFFD, the value that stands for malformed bytes. -/
def replacement : Char := Char.ofNat 0xFFFD

/-- The unfinished sequence of a streaming UTF-8 decoder. -/
structure Utf8Decoder where
  codePoint : Nat := 0
  bytesSeen : Nat := 0
  bytesNeeded : Nat := 0
  lowerBoundary : Nat := 0x80
  upperBoundary : Nat := 0xBF
  deriving DecidableEq, Repr

namespace Utf8Decoder

/-- A byte read where no sequence is open. -/
def lead (byte : Nat) : List Char × Utf8Decoder :=
  if byte ≤ 0x7F then ([Char.ofNat byte], {})
  else if 0xC2 ≤ byte ∧ byte ≤ 0xDF then ([], { codePoint := byte % 0x20, bytesNeeded := 1 })
  else if 0xE0 ≤ byte ∧ byte ≤ 0xEF then
    ([], { codePoint := byte % 0x10, bytesNeeded := 2,
           lowerBoundary := if byte = 0xE0 then 0xA0 else 0x80,
           upperBoundary := if byte = 0xED then 0x9F else 0xBF })
  else if 0xF0 ≤ byte ∧ byte ≤ 0xF4 then
    ([], { codePoint := byte % 0x8, bytesNeeded := 3,
           lowerBoundary := if byte = 0xF0 then 0x90 else 0x80,
           upperBoundary := if byte = 0xF4 then 0x8F else 0xBF })
  else ([replacement], {})

/-- One byte of input: the scalar values it completes and the decoder after it. -/
def decodeByte (d : Utf8Decoder) (byte : UInt8) : List Char × Utf8Decoder :=
  if d.bytesNeeded = 0 then lead byte.toNat
  else if byte.toNat < d.lowerBoundary ∨ d.upperBoundary < byte.toNat then
    -- The open sequence is malformed; the byte itself is read again.
    (replacement :: (lead byte.toNat).1, (lead byte.toNat).2)
  else if d.bytesSeen + 1 = d.bytesNeeded then
    ([Char.ofNat (d.codePoint * 0x40 + byte.toNat % 0x40)], {})
  else
    ([], { codePoint := d.codePoint * 0x40 + byte.toNat % 0x40, bytesSeen := d.bytesSeen + 1,
           bytesNeeded := d.bytesNeeded })

/-- `decode(window, { stream: true })`. -/
def decode (d : Utf8Decoder) : List UInt8 → List Char × Utf8Decoder
  | [] => ([], d)
  | byte :: rest =>
      let (cs, d') := d.decodeByte byte
      let (ds, d'') := decode d' rest
      (cs ++ ds, d'')

/-- `decode()` at the end of the input: an open sequence is malformed. -/
def flush (d : Utf8Decoder) : List Char :=
  if d.bytesNeeded = 0 then [] else [replacement]

@[simp] theorem decode_nil (d : Utf8Decoder) : d.decode [] = ([], d) := rfl

theorem decode_append (d : Utf8Decoder) (xs ys : List UInt8) :
    d.decode (xs ++ ys) =
      ((d.decode xs).1 ++ ((d.decode xs).2.decode ys).1, ((d.decode xs).2.decode ys).2) := by
  induction xs generalizing d with
  | nil => simp
  | cons x xs ih => simp [decode, ih]

/-! ## How much text one window can hold -/

theorem scalarBytes_lead_le (byte : Nat) : scalarBytes (lead byte).1 ≤ 4 := by
  unfold lead
  split
  · simpa using Char.utf8Size_le_four (Char.ofNat byte)
  · repeat' split
    all_goals first | exact Nat.zero_le _ | decide

theorem scalarBytes_decodeByte_le (d : Utf8Decoder) (byte : UInt8) :
    scalarBytes (d.decodeByte byte).1 ≤ 7 := by
  have hl := scalarBytes_lead_le byte.toNat
  have hr : replacement.utf8Size = 3 := by decide
  unfold decodeByte
  split
  · omega
  · split
    · simp only [scalarBytes_cons, hr]; omega
    · split
      · have := Char.utf8Size_le_four (Char.ofNat (d.codePoint * 0x40 + byte.toNat % 0x40))
        simp only [scalarBytes_cons, scalarBytes_nil]; omega
      · simp

-- A window of `n` bytes decodes to text of at most `7 * n` UTF-8 bytes.
theorem scalarBytes_decode_le (d : Utf8Decoder) (bytes : List UInt8) :
    scalarBytes (d.decode bytes).1 ≤ 7 * bytes.length := by
  induction bytes generalizing d with
  | nil => simp
  | cons b bytes ih =>
    have hb := scalarBytes_decodeByte_le d b
    have hi := ih (d.decodeByte b).2
    simp only [decode, scalarBytes_append, List.length_cons]
    omega

theorem scalarBytes_flush_le (d : Utf8Decoder) : scalarBytes d.flush ≤ 3 := by
  unfold flush
  split
  · simp
  · decide

end Utf8Decoder

/-- The scalar values of a whole byte string. -/
def decodeUtf8 (bytes : List UInt8) : List Char :=
  (Utf8Decoder.decode {} bytes).1 ++ (Utf8Decoder.decode {} bytes).2.flush

example : decodeUtf8 [0x77, 0xF0, 0x9F, 0x8C, 0x8D] = ['w', '🌍'] := by decide

example : decodeUtf8 [0xE2, 0x82, 0x41, 0xFF] = [replacement, 'A', replacement] := by decide

end Text
