import TeslatlasSdk.Scripts.TarReader
import Mathlib.Data.List.Chain
import Mathlib.Data.List.Nodup

/-!
# The layout of an archive

An archive that `parseTar` accepts is cut into headers, data, padding and zero blocks, with nothing
between them and nothing left out.
-/

open Text Core

namespace Scripts

/-- A path under `package` that stays there. -/
structure SafePath (path : JsString) : Prop where
  inPackage : path = js "package" ∨ js "package/" <+: path
  noBackslash : Json.backslash ∉ path
  parts : ∀ part ∈ path.splitOn slash, part ≠ [] ∧ part ≠ js "." ∧ part ≠ js ".."

/-- The bytes of a member. -/
structure MemberBlocks where
  header : List UInt8
  data : List UInt8
  padding : List UInt8

/-- A member is what its header says. -/
structure MemberHolds (blocks : MemberBlocks) (member : TarMember) : Prop where
  header_length : blocks.header.length = 512
  header_nonzero : ∃ byte ∈ blocks.header, byte ≠ 0
  header_read : ∃ paths, readHeader paths blocks.header =
    .ok ⟨member.path, member.type, member.mode, blocks.data.length⟩
  checksum : tarOctal .checksum (blocks.header.extract 148 156) = .ok (headerSum blocks.header)
  size : tarOctal .size (blocks.header.extract 124 136) = .ok blocks.data.length
  type : memberType (blocks.header.getD 156 0) = some member.type
  bytes : member.bytes = blocks.data
  directory : member.type = .directory → member.bytes = []
  -- The data is filled up to whole blocks, with less than one block.
  padding_length : blocks.padding.length < 512
  padding_fills : 512 ∣ blocks.data.length + blocks.padding.length
  path : SafePath member.path

inductive Piece where
  | zeroBlock
  | member (blocks : MemberBlocks)

namespace Piece

def bytes : Piece → List UInt8
  | .zeroBlock => List.replicate 512 0
  | .member blocks => blocks.header ++ blocks.data ++ blocks.padding

def blocks? : Piece → Option MemberBlocks
  | .zeroBlock => none
  | .member blocks => some blocks

end Piece

/-- No zero block stands next to another. -/
def SingleZeroBlocks : List Piece → Prop :=
  List.IsChain fun p q => ¬ (p = .zeroBlock ∧ q = .zeroBlock)

/-- An archive of the members. -/
def WellLaidOut (tar : List UInt8) (members : List TarMember) : Prop :=
  ∃ pieces trailing,
    tar = pieces.flatMap Piece.bytes ++ Piece.zeroBlock.bytes ++ Piece.zeroBlock.bytes ++ trailing ∧
    (∀ byte ∈ trailing, byte = 0) ∧
    SingleZeroBlocks (pieces ++ [.zeroBlock]) ∧
    List.Forall₂ MemberHolds (pieces.filterMap Piece.blocks?) members ∧
    (members.map TarMember.path).Nodup

/-! ## Paths -/

theorem safeArchivePath_ok {rawPath path : JsString} {type : MemberType}
    (h : safeArchivePath rawPath type = .ok path) :
    SafePath path ∧ path = archivePath rawPath type := by
  rw [safeArchivePath] at h
  split at h
  · cases h
  · next hsafe =>
    obtain rfl := Except.ok.inj h
    simp only [not_or, not_and, not_not] at hsafe
    obtain ⟨-, -, hbackslash, hparts, hpackage, -⟩ := hsafe
    refine ⟨⟨?_, hbackslash, fun part hpart => ?_⟩, rfl⟩
    · by_cases heq : archivePath rawPath type = js "package"
      · exact .inl heq
      · exact .inr (hpackage heq)
    · rw [List.any_eq_true, not_exists] at hparts
      have hpart' := not_and.mp (hparts part) hpart
      simp only [Bool.or_eq_true, List.isEmpty_iff, decide_eq_true_eq, not_or] at hpart'
      exact ⟨hpart'.1.1, hpart'.1.2, hpart'.2⟩

/-! ## One member -/

theorem extract_length {tar : List UInt8} {start stop : Nat} (h : stop ≤ tar.length) :
    (tar.extract start stop).length = stop - start := by
  rw [List.extract_eq_take_drop, List.length_take, List.length_drop]
  omega

theorem drop_eq_extract_append (tar : List UInt8) {start stop : Nat} (h : start ≤ stop) :
    tar.drop start = tar.extract start stop ++ tar.drop stop := by
  have hdrop : tar.drop stop = (tar.drop start).drop (stop - start) := by
    rw [List.drop_drop, Nat.add_sub_cancel' h]
  rw [List.extract_eq_take_drop, hdrop, List.take_append_drop]

theorem drop_eq_three (tar : List UInt8) {a b c d : Nat} (hab : a ≤ b) (hbc : b ≤ c)
    (hcd : c ≤ d) :
    tar.drop a = tar.extract a b ++ tar.extract b c ++ tar.extract c d ++ tar.drop d := by
  rw [List.append_assoc, ← drop_eq_extract_append tar hcd, List.append_assoc,
    ← drop_eq_extract_append tar hbc, ← drop_eq_extract_append tar hab]

theorem nextOffset_bounds (offset size : Nat) :
    offset + 512 + size ≤ nextOffset offset size ∧
      nextOffset offset size - (offset + 512 + size) < 512 ∧
      512 ∣ size + (nextOffset offset size - (offset + 512 + size)) := by
  unfold nextOffset
  refine ⟨by omega, by omega, (size + 511) / 512, by omega⟩

theorem readMember_ok {tar : List UInt8} {members : List TarMember} {offset size : Nat}
    {member : TarMember} (hoffset : offset + 512 ≤ tar.length)
    (hzero : (tar.extract offset (offset + 512)).all (· = 0) = false)
    (h : readMember tar members offset = .ok (member, size)) :
    ∃ blocks, MemberHolds blocks member ∧ nextOffset offset size ≤ tar.length ∧
      tar.drop offset = (Piece.member blocks).bytes ++ tar.drop (nextOffset offset size) ∧
      member.path ∉ members.map TarMember.path := by
  rw [readMember, bind_eq_ok] at h
  obtain ⟨header, hheader, h⟩ := h
  simp only at h
  rw [rejectIf_bind_eq_ok] at h
  obtain ⟨hbounds, h⟩ := h
  obtain ⟨rfl, rfl⟩ := Prod.mk.inj (Except.ok.inj h)
  simp only [not_or, not_lt, gt_iff_lt] at hbounds
  obtain ⟨-, hend, hnext⟩ := hbounds
  have hread := readHeader_ok hheader
  obtain ⟨hle, hpadding, hfills⟩ := nextOffset_bounds offset header.size
  obtain ⟨name, namePrefix, -, -, hpath⟩ := hread.path
  have hdata : (tar.extract (offset + 512) (offset + 512 + header.size)).length = header.size := by
    rw [extract_length hend]
    omega
  have hrest : (tar.extract (offset + 512 + header.size) (nextOffset offset header.size)).length =
      nextOffset offset header.size - (offset + 512 + header.size) := extract_length hnext
  have hfirst : (tar.extract offset (offset + 512)).length = 512 := by
    rw [extract_length hoffset]
    omega
  have htiles := drop_eq_three tar (Nat.le_add_right offset 512)
    (Nat.le_add_right (offset + 512) header.size) hle
  generalize tar.extract offset (offset + 512) = first at *
  generalize tar.extract (offset + 512) (offset + 512 + header.size) = data at *
  generalize tar.extract (offset + 512 + header.size) (nextOffset offset header.size) = padding at *
  refine ⟨⟨first, data, padding⟩, ?_, hnext, htiles, hread.fresh⟩
  constructor
  case header_length => exact hfirst
  case header_nonzero =>
    rw [List.all_eq_false] at hzero
    obtain ⟨byte, hmem, hbyte⟩ := hzero
    exact ⟨byte, hmem, by simpa using hbyte⟩
  case header_read => exact ⟨_, by rw [hdata]; exact hheader⟩
  case checksum => exact hread.checksum
  case size =>
    rw [hdata]
    exact hread.size
  case type => exact hread.type
  case bytes => rfl
  case directory =>
    intro hdir
    rw [hread.directory hdir] at hdata
    exact List.eq_nil_of_length_eq_zero hdata
  case padding_length =>
    rw [hrest]
    exact hpadding
  case padding_fills =>
    rw [hrest, hdata]
    exact hfills
  case path => exact (safeArchivePath_ok hpath).1

/-! ## The loop -/

/-- What has been read when the loop stands at `s`. -/
structure Reading (tar : List UInt8) (s : TarState) (pieces : List Piece) : Prop where
  offset : s.offset ≤ tar.length
  tiles : tar = pieces.flatMap Piece.bytes ++ tar.drop s.offset
  single : SingleZeroBlocks pieces
  last : (s.zeroBlocks = 0 ∧ pieces.getLast? ≠ some .zeroBlock) ∨
    (s.zeroBlocks = 1 ∧ pieces.getLast? = some .zeroBlock)
  members : List.Forall₂ MemberHolds (pieces.filterMap Piece.blocks?) s.members
  distinct : (s.members.map TarMember.path).Nodup

variable {tar : List UInt8} {s : TarState} {pieces : List Piece}

theorem tiles_append {offset next : Nat} {piece : Piece}
    (h : tar = pieces.flatMap Piece.bytes ++ tar.drop offset)
    (hdrop : tar.drop offset = piece.bytes ++ tar.drop next) :
    tar = (pieces ++ [piece]).flatMap Piece.bytes ++ tar.drop next := by
  rw [List.flatMap_append, List.flatMap_singleton, List.append_assoc, ← hdrop]
  exact h

theorem singleZeroBlocks_append {piece : Piece} (h : SingleZeroBlocks pieces)
    (hlast : ¬ (pieces.getLast? = some .zeroBlock ∧ piece = .zeroBlock)) :
    SingleZeroBlocks (pieces ++ [piece]) := by
  rw [SingleZeroBlocks, List.isChain_append]
  refine ⟨h, List.isChain_singleton _, ?_⟩
  intro p hp q hq hboth
  obtain rfl := Option.some.inj hq
  exact hlast ⟨hboth.1 ▸ hp, hboth.2⟩

-- A block of zeros is the zero block.
theorem drop_zeroBlock {offset : Nat} (hoffset : offset + 512 ≤ tar.length)
    (hzero : (tar.extract offset (offset + 512)).all (· = 0) = true) :
    tar.drop offset = Piece.zeroBlock.bytes ++ tar.drop (offset + 512) := by
  have hlength : (tar.extract offset (offset + 512)).length = 512 := by
    rw [extract_length hoffset]
    omega
  have hblock : tar.extract offset (offset + 512) = List.replicate 512 0 := by
    refine List.eq_replicate_iff.mpr ⟨hlength, fun byte hbyte => ?_⟩
    exact of_decide_eq_true (List.all_eq_true.mp hzero byte hbyte)
  rw [Piece.bytes, ← hblock]
  exact drop_eq_extract_append tar (Nat.le_add_right offset 512)

theorem filterMap_zeroBlock (pieces : List Piece) :
    (pieces ++ [Piece.zeroBlock]).filterMap Piece.blocks? = pieces.filterMap Piece.blocks? := by
  rw [List.filterMap_append]
  exact List.append_nil _

theorem Reading.start (tar : List UInt8) : Reading tar ⟨[], 0, 0⟩ [] where
  offset := Nat.zero_le _
  tiles := rfl
  single := List.isChain_nil
  last := .inl ⟨rfl, nofun⟩
  members := .nil
  distinct := List.nodup_nil

theorem Reading.addZeroBlock (h : Reading tar s pieces) (hoffset : s.offset + 512 ≤ tar.length)
    (hzero : (tar.extract s.offset (s.offset + 512)).all (· = 0) = true)
    (hfirst : ¬ s.zeroBlocks + 1 = 2) :
    Reading tar ⟨s.members, s.offset + 512, s.zeroBlocks + 1⟩ (pieces ++ [.zeroBlock]) := by
  obtain ⟨hnone, hlast⟩ : s.zeroBlocks = 0 ∧ pieces.getLast? ≠ some .zeroBlock := by
    obtain hlast | hlast := h.last
    · exact hlast
    · exact absurd (by rw [hlast.1]) hfirst
  constructor
  case offset => exact hoffset
  case tiles => exact tiles_append h.tiles (drop_zeroBlock hoffset hzero)
  case single => exact singleZeroBlocks_append h.single fun hboth => hlast hboth.1
  case last => exact .inr ⟨by simp only [hnone], List.getLast?_concat⟩
  case members =>
    rw [filterMap_zeroBlock]
    exact h.members
  case distinct => exact h.distinct

theorem Reading.addMember (h : Reading tar s pieces) {blocks : MemberBlocks} {member : TarMember}
    {next : Nat} (hholds : MemberHolds blocks member) (hnext : next ≤ tar.length)
    (hdrop : tar.drop s.offset = (Piece.member blocks).bytes ++ tar.drop next)
    (hfresh : member.path ∉ s.members.map TarMember.path) :
    Reading tar ⟨s.members ++ [member], next, 0⟩ (pieces ++ [.member blocks]) := by
  constructor
  case offset => exact hnext
  case tiles => exact tiles_append h.tiles hdrop
  case single => exact singleZeroBlocks_append h.single fun hboth => nomatch hboth.2
  case last =>
    refine .inl ⟨rfl, ?_⟩
    rw [List.getLast?_concat]
    exact nofun
  case members =>
    rw [List.filterMap_append]
    exact List.rel_append h.members (.cons hholds .nil)
  case distinct =>
    have hnodup := h.distinct.concat hfresh
    rw [List.concat_eq_append] at hnodup
    rw [List.map_append]
    exact hnodup

/-- What has been read when the loop has met two zero blocks. -/
def Finished (tar : List UInt8) (s : TarState) : Prop :=
  ∃ pieces,
    tar = pieces.flatMap Piece.bytes ++ Piece.zeroBlock.bytes ++ Piece.zeroBlock.bytes ++
      tar.drop s.offset ∧
    SingleZeroBlocks (pieces ++ [.zeroBlock]) ∧
    List.Forall₂ MemberHolds (pieces.filterMap Piece.blocks?) s.members ∧
    (s.members.map TarMember.path).Nodup

theorem Reading.finish (h : Reading tar s pieces) (hoffset : s.offset + 512 ≤ tar.length)
    (hzero : (tar.extract s.offset (s.offset + 512)).all (· = 0) = true)
    (hsecond : s.zeroBlocks + 1 = 2) :
    Finished tar ⟨s.members, s.offset + 512, s.zeroBlocks + 1⟩ := by
  obtain hlast | ⟨-, hlast⟩ := h.last
  · rw [hlast.1] at hsecond
    cases hsecond
  obtain ⟨front, rfl⟩ := List.getLast?_eq_some_iff.mp hlast
  refine ⟨front, ?_, h.single, ?_, h.distinct⟩
  · have htiles := tiles_append h.tiles (drop_zeroBlock hoffset hzero)
    rw [List.flatMap_append, List.flatMap_append, List.flatMap_singleton] at htiles
    exact htiles
  · rw [← filterMap_zeroBlock]
    exact h.members

-- Whatever the loop reads, it ends with fewer than two zero blocks or has met two.
theorem readMembers_ok {last : TarState} (h : Reading tar s pieces)
    (hrun : readMembers tar s = .ok last) : last.zeroBlocks < 2 ∨ Finished tar last := by
  induction s using readMembers.induct tar generalizing pieces with
  | case1 s hoffset hzero hsecond =>
    rw [readMembers, if_pos hoffset, if_pos hzero, if_pos hsecond] at hrun
    obtain rfl := Except.ok.inj hrun
    exact .inr (h.finish hoffset hzero hsecond)
  | case2 s hoffset hzero hfirst ih =>
    rw [readMembers, if_pos hoffset, if_pos hzero, if_neg hfirst] at hrun
    exact ih (h.addZeroBlock hoffset hzero hfirst) hrun
  | case3 s hoffset hzero e herror =>
    rw [readMembers, if_pos hoffset, if_neg hzero, herror] at hrun
    cases hrun
  | case4 s hoffset hzero member size hmember hmany =>
    rw [readMembers, if_pos hoffset, if_neg hzero, hmember] at hrun
    simp only [if_pos hmany] at hrun
    cases hrun
  | case5 s hoffset hzero member size hmember hfew ih =>
    rw [readMembers, if_pos hoffset, if_neg hzero, hmember] at hrun
    simp only [if_neg hfew] at hrun
    obtain ⟨blocks, hholds, hnext, hdrop, hfresh⟩ :=
      readMember_ok hoffset (Bool.eq_false_iff.mpr hzero) hmember
    exact ih (h.addMember hholds hnext hdrop hfresh) hrun
  | case6 s hoffset =>
    rw [readMembers, if_neg hoffset] at hrun
    obtain rfl := Except.ok.inj hrun
    obtain hlast | hlast := h.last
    · exact .inl (by omega)
    · exact .inl (by omega)

theorem parseTar_wellLaidOut (tar : List UInt8) :
    match parseTar tar with
    | .error _ => True
    | .ok members => WellLaidOut tar members := by
  split
  · trivial
  · next members h =>
    rw [parseTar, bind_eq_ok] at h
    obtain ⟨s, hrun, h⟩ := h
    rw [rejectIf_bind_eq_ok] at h
    obtain ⟨htrailing, h⟩ := h
    rw [rejectIf_bind_eq_ok] at h
    obtain ⟨-, h⟩ := h
    obtain rfl := Except.ok.inj h
    rw [not_or] at htrailing
    obtain hfew | ⟨pieces, htiles, hsingle, hmembers, hdistinct⟩ :=
      readMembers_ok (Reading.start tar) hrun
    · exact absurd hfew htrailing.1
    · refine ⟨pieces, tar.drop s.offset, htiles, fun byte hbyte => ?_, hsingle, hmembers, hdistinct⟩
      have hany := htrailing.2
      rw [Bool.not_eq_true, List.any_eq_false] at hany
      simpa using hany byte hbyte

end Scripts
