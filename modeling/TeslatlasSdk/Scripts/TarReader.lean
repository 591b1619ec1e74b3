import TeslatlasSdk.Core.Checks
import TeslatlasSdk.Core.Numbers
import TeslatlasSdk.Json.Quote
import TeslatlasSdk.Text.WellFormed

/-!
# The tar reader

`parseTar` of the provenance checker, on the bytes of an archive.
-/

open Text Core

namespace Scripts

inductive MemberType where
  | file
  | directory
  deriving DecidableEq, Repr

structure TarMember where
  path : JsString
  type : MemberType
  mode : Nat
  bytes : List UInt8
  deriving DecidableEq, Repr

/-- The numeric fields of a header. -/
inductive TarField where
  | checksum
  | mode
  | size
  deriving DecidableEq, Repr

inductive TarError where
  | notPortableOctal (field : TarField)
  | invalidChecksum
  | nonUtf8Path
  | specialEntry
  | unsafePath (rawPath : JsString)
  | duplicateMember (path : JsString)
  | unsafeMode (path : JsString)
  | directoryPayload
  | sizeExceedsArchive
  | tooManyMembers
  | invalidTrailingData
  | noMembers
  deriving DecidableEq, Repr

def TarField.label : TarField → String
  | .checksum => " checksum"
  | .mode => " mode"
  | .size => " size"

def TarError.message (label : JsString) : TarError → JsString
  | .notPortableOctal field => label ++ js field.label ++ js " is not portable octal"
  | .invalidChecksum => label ++ js " has an invalid tar checksum"
  | .nonUtf8Path => label ++ js " contains a non-UTF-8 path"
  | .specialEntry => label ++ js " contains a link or special entry"
  | .unsafePath rawPath => label ++ js " contains unsafe path " ++ Json.stringify rawPath
  | .duplicateMember path => label ++ js " contains duplicate member " ++ path
  | .unsafeMode path => label ++ js " contains unsafe mode for " ++ path
  | .directoryPayload => label ++ js " directory has payload bytes"
  | .sizeExceedsArchive => label ++ js " member size exceeds the archive"
  | .tooManyMembers => label ++ js " has too many members"
  | .invalidTrailingData => label ++ js " has invalid trailing data"
  | .noMembers => label ++ js " has no members"

/-! ## Fields -/

/-- The white space that `trim` takes off a text of 7-bit characters. -/
def isAsciiSpace (c : UInt8) : Bool := c = 0x20 || (0x09 ≤ c && c ≤ 0x0D)

def trimAscii (text : List UInt8) : List UInt8 :=
  (text.dropWhile isAsciiSpace).rdropWhile isAsciiSpace

def isOctalDigit (c : UInt8) : Bool := 0x30 ≤ c && c ≤ 0x37

/-- `Number.parseInt(text, 8)`, on octal digits. -/
def octalValue (digits : List UInt8) : Nat :=
  digits.foldl (fun value c => value * 8 + (c.toNat - 0x30)) 0

def tarOctal (field : TarField) (bytes : List UInt8) : Except TarError Nat :=
  -- `toString("ascii")` leaves the highest bit of each byte out.
  let text := trimAscii ((bytes.map (· &&& 0x7F)).filter (· ≠ 0))
  if text ≠ [] ∧ text.all isOctalDigit then .ok (octalValue text)
  else .error (.notPortableOctal field)

/-- The bytes of a field up to its first NUL. -/
def untilNul (bytes : List UInt8) : List UInt8 := bytes.takeWhile (· ≠ 0)

def tarText (bytes : List UInt8) : Except TarError JsString :=
  match decodeFatal (untilNul bytes) with
  | some cs => .ok (ofScalars (withoutByteOrderMark cs))
  | none => .error .nonUtf8Path

/-- The loop of `verifyTarChecksum`, with the sum so far. -/
def sumBytes (observed index : Nat) : List UInt8 → Nat
  | [] => observed
  | byte :: rest =>
      sumBytes (observed + if 148 ≤ index ∧ index < 156 then 0x20 else byte.toNat) (index + 1) rest

/-- The sum of a header's bytes, those of the checksum counted as blanks. -/
def headerSum (header : List UInt8) : Nat := sumBytes 0 0 header

def verifyTarChecksum (header : List UInt8) : Except TarError Unit := do
  let expected ← tarOctal .checksum (header.extract 148 156)
  rejectIf (headerSum header ≠ expected) .invalidChecksum

def memberType (typeFlag : UInt8) : Option MemberType :=
  if typeFlag = 0 ∨ typeFlag = 0x30 then some .file
  else if typeFlag = 0x35 then some .directory
  else none

/-! ## Paths -/

def slash : CodeUnit := 0x2F

/-- `rawPath.replace(/\/$/u, "")`. -/
def withoutTrailingSlash (rawPath : JsString) : JsString :=
  if rawPath.getLast? = some slash then rawPath.dropLast else rawPath

/-- The path that is checked and kept: a directory may be marked by a slash at the end. -/
def archivePath (rawPath : JsString) (type : MemberType) : JsString :=
  if type = .directory then withoutTrailingSlash rawPath else rawPath

def safeArchivePath (rawPath : JsString) (type : MemberType) : Except TarError JsString :=
  let path := archivePath rawPath type
  if path.isEmpty ∨ path.head? = some slash ∨ Json.backslash ∈ path ∨
      (path.splitOn slash).any (fun part => part.isEmpty || part = js "." || part = js "..") ∨
      (path ≠ js "package" ∧ ¬ js "package/" <+: path) ∨
      (type = .file ∧ path = js "package") then
    .error (.unsafePath rawPath)
  else .ok path

/-! ## Members -/

/-- What the reader takes from a header. -/
structure TarHeader where
  path : JsString
  type : MemberType
  mode : Nat
  size : Nat
  deriving DecidableEq, Repr

/-- The name of a member with the prefix in front of it. -/
def joinPrefix (namePrefix name : JsString) : JsString :=
  if namePrefix.length = 0 then name else namePrefix ++ slash :: name

/-- The part of the loop of `parseTar` that reads a header, where `paths` have been read before. -/
def readHeader (paths : List JsString) (header : List UInt8) : Except TarError TarHeader := do
  verifyTarChecksum header
  let name ← tarText (header.extract 0 100)
  let namePrefix ← tarText (header.extract 345 500)
  let rawPath := joinPrefix namePrefix name
  match memberType (header.getD 156 0) with
  | none => .error .specialEntry
  | some type =>
      let path ← safeArchivePath rawPath type
      rejectIf (path ∈ paths) (.duplicateMember path)
      let mode ← tarOctal .mode (header.extract 100 108)
      rejectIf (mode &&& 0o7022 ≠ 0 ∨ mode &&& 0o400 = 0 ∨
        (type = .directory ∧ mode &&& 0o100 = 0)) (.unsafeMode path)
      let size ← tarOctal .size (header.extract 124 136)
      rejectIf (type = .directory ∧ size ≠ 0) .directoryPayload
      return { path, type, mode, size }

structure TarState where
  members : List TarMember
  offset : Nat
  zeroBlocks : Nat

/-- Where the header behind a member's data and padding is. -/
def nextOffset (offset size : Nat) : Nat := offset + 512 + (size + 511) / 512 * 512

/-- The member whose header is at an offset. -/
def readMember (tar : List UInt8) (members : List TarMember) (offset : Nat) :
    Except TarError (TarMember × Nat) := do
  let header ← readHeader (members.map TarMember.path) (tar.extract offset (offset + 512))
  let dataStart := offset + 512
  let dataEnd := dataStart + header.size
  rejectIf (¬ header.size ≤ maximumSafeInteger ∨ dataEnd > tar.length ∨
    nextOffset offset header.size > tar.length) .sizeExceedsArchive
  return (⟨header.path, header.type, header.mode, tar.extract dataStart dataEnd⟩, header.size)

/-- The loop of `parseTar`. -/
def readMembers (tar : List UInt8) (s : TarState) : Except TarError TarState :=
  if s.offset + 512 ≤ tar.length then
    if (tar.extract s.offset (s.offset + 512)).all (· = 0) then
      if s.zeroBlocks + 1 = 2 then .ok ⟨s.members, s.offset + 512, s.zeroBlocks + 1⟩
      else readMembers tar ⟨s.members, s.offset + 512, s.zeroBlocks + 1⟩
    else
      match readMember tar s.members s.offset with
      | .error e => .error e
      | .ok (member, size) =>
          if (s.members ++ [member]).length > 10000 then .error .tooManyMembers
          else readMembers tar ⟨s.members ++ [member], nextOffset s.offset size, 0⟩
  else .ok s
termination_by tar.length - s.offset
decreasing_by
  · omega
  · unfold nextOffset
    omega

def parseTar (tar : List UInt8) : Except TarError (List TarMember) := do
  let s ← readMembers tar ⟨[], 0, 0⟩
  rejectIf (s.zeroBlocks < 2 ∨ (tar.drop s.offset).any (· ≠ 0)) .invalidTrailingData
  rejectIf (s.members.length = 0) .noMembers
  return s.members

/-! ## What an accepted header says -/

structure ReadsHeader (paths : List JsString) (header : List UInt8) (h : TarHeader) : Prop where
  checksum : tarOctal .checksum (header.extract 148 156) = .ok (headerSum header)
  path : ∃ name namePrefix, tarText (header.extract 0 100) = .ok name ∧
    tarText (header.extract 345 500) = .ok namePrefix ∧
    safeArchivePath (joinPrefix namePrefix name) h.type = .ok h.path
  type : memberType (header.getD 156 0) = some h.type
  fresh : h.path ∉ paths
  mode : tarOctal .mode (header.extract 100 108) = .ok h.mode
  size : tarOctal .size (header.extract 124 136) = .ok h.size
  directory : h.type = .directory → h.size = 0

theorem verifyTarChecksum_ok {header : List UInt8} {u : Unit}
    (h : verifyTarChecksum header = .ok u) :
    tarOctal .checksum (header.extract 148 156) = .ok (headerSum header) := by
  rw [verifyTarChecksum, bind_eq_ok] at h
  obtain ⟨expected, hexpected, h⟩ := h
  rw [rejectIf_eq_ok, not_ne_iff] at h
  rw [hexpected, h]

theorem readHeader_ok {paths : List JsString} {header : List UInt8} {h : TarHeader}
    (hread : readHeader paths header = .ok h) : ReadsHeader paths header h := by
  rw [readHeader, bind_eq_ok] at hread
  obtain ⟨u, hchecksum, hread⟩ := hread
  rw [bind_eq_ok] at hread
  obtain ⟨name, hname, hread⟩ := hread
  rw [bind_eq_ok] at hread
  obtain ⟨namePrefix, hprefix, hread⟩ := hread
  simp only at hread
  split at hread
  · cases hread
  · next type htype =>
    rw [bind_eq_ok] at hread
    obtain ⟨path, hpath, hread⟩ := hread
    rw [rejectIf_bind_eq_ok] at hread
    obtain ⟨hfresh, hread⟩ := hread
    rw [bind_eq_ok] at hread
    obtain ⟨mode, hmode, hread⟩ := hread
    rw [rejectIf_bind_eq_ok] at hread
    obtain ⟨-, hread⟩ := hread
    rw [bind_eq_ok] at hread
    obtain ⟨size, hsize, hread⟩ := hread
    rw [rejectIf_bind_eq_ok] at hread
    obtain ⟨hdirectory, hread⟩ := hread
    obtain rfl := Except.ok.inj hread
    refine ⟨verifyTarChecksum_ok hchecksum, ⟨name, namePrefix, hname, hprefix, hpath⟩, htype,
      hfresh, hmode, hsize, fun hdir => ?_⟩
    by_contra hne
    exact hdirectory ⟨hdir, hne⟩

end Scripts
