import TeslatlasSdk.Core.Version
import TeslatlasSdk.Events.ProtocolSubscription
import Mathlib.Data.Prod.Lex

/-!
# Negotiation of the protocol version

A session speaks one of the locked versions, and accepts responses of some.  The two selections are
written separately; both are compared with the order of versions.
-/

open Text Core Events

namespace Protocol

/-- The `protocol` of a descriptor. -/
structure ProtocolDescriptor where
  currentVersion : JsString
  minimumClientVersion : JsString
  supportedVersions : List JsString
  deriving DecidableEq, Repr

def lockedProtocolVersions : List SupportedProtocolVersion := [.v1_0_0, .v1_1_0, .v1_2_0]

/-- A negative number where the left version comes first. -/
def compareVersions (left right : ProtocolVersion) : Int :=
  if (left.major : Int) - right.major ≠ 0 then left.major - right.major
  else if (left.minor : Int) - right.minor ≠ 0 then left.minor - right.minor
  else left.patch - right.patch

/-- The loop of `negotiateProtocolVersion`. -/
def firstCompatible (descriptor : ProtocolDescriptor) (requested minimumClient : ProtocolVersion) :
    List SupportedProtocolVersion → Except TeslatlasError SupportedProtocolVersion
  | [] => .error .incompatibleProtocol
  | version :: versions => do
      let candidate ← parseProtocolVersion version.text
      if descriptor.supportedVersions.contains version.text &&
          compareVersions candidate requested ≤ 0 && 0 ≤ compareVersions candidate minimumClient
      then return version
      else firstCompatible descriptor requested minimumClient versions

def negotiateProtocolVersion (descriptor : ProtocolDescriptor) (requestedVersion : JsString) :
    Except TeslatlasError SupportedProtocolVersion := do
  let requested ← parseProtocolVersion requestedVersion
  let current ← parseProtocolVersion descriptor.currentVersion
  let minimumClient ← parseProtocolVersion descriptor.minimumClientVersion
  let lockedMajor := (← parseProtocolVersion (SupportedProtocolVersion.v1_0_0).text).major
  if requested.major ≠ lockedMajor || current.major ≠ lockedMajor ||
      compareVersions requested minimumClient < 0 then
    throw .incompatibleProtocol
  else firstCompatible descriptor requested minimumClient lockedProtocolVersions.reverse

/-- `#acceptedResponseVersions`, for a session's descriptor and version. -/
def acceptedResponseVersions (descriptor : ProtocolDescriptor)
    (protocolVersion : SupportedProtocolVersion) : List SupportedProtocolVersion :=
  let versions : List SupportedProtocolVersion := [.v1_0_0, .v1_1_0, .v1_2_0]
  versions.filter fun version =>
    if versions.idxOf protocolVersion < versions.idxOf version then false
    else
      match negotiateProtocolVersion descriptor version.text with
      | .ok negotiated => negotiated = version
      | .error _ => false

/-! ## The order of versions -/

/-- The place of a version in the order, which does not look at prereleases. -/
def rank (version : ProtocolVersion) : ℕ ×ₗ ℕ ×ₗ ℕ :=
  toLex (version.major, toLex (version.minor, version.patch))

theorem compareVersions_neg_iff {left right : ProtocolVersion} :
    compareVersions left right < 0 ↔ rank left < rank right := by
  rw [rank, rank, Prod.Lex.toLex_lt_toLex, Prod.Lex.toLex_lt_toLex, compareVersions]
  split
  · omega
  split
  · omega
  · omega

theorem compareVersions_nonneg_iff {left right : ProtocolVersion} :
    0 ≤ compareVersions left right ↔ rank right ≤ rank left := by
  rw [← not_lt, ← not_lt, compareVersions_neg_iff]

theorem compareVersions_nonpos_iff {left right : ProtocolVersion} :
    compareVersions left right ≤ 0 ↔ rank left ≤ rank right := by
  rw [rank, rank, Prod.Lex.toLex_le_toLex, Prod.Lex.toLex_le_toLex, compareVersions]
  split
  · omega
  split
  · omega
  · omega

/-- What a locked version is parsed to. -/
def lockedVersion : SupportedProtocolVersion → ProtocolVersion
  | .v1_0_0 => ⟨1, 0, 0, none, none⟩
  | .v1_1_0 => ⟨1, 1, 0, none, none⟩
  | .v1_2_0 => ⟨1, 2, 0, none, none⟩

theorem parseProtocolVersion_text (version : SupportedProtocolVersion) :
    parseProtocolVersion version.text = .ok (lockedVersion version) := by
  cases version with
  | _ => decide

/-! ## What is offered -/

/-- A locked version that the descriptor advertises, from its minimum up to a bound. -/
structure Offered (descriptor : ProtocolDescriptor) (minimumClient bound : ProtocolVersion)
    (version : SupportedProtocolVersion) : Prop where
  advertised : version.text ∈ descriptor.supportedVersions
  minimum : rank minimumClient ≤ rank (lockedVersion version)
  bounded : rank (lockedVersion version) ≤ rank bound

/-- The greatest version that is offered. -/
def GreatestOffered (descriptor : ProtocolDescriptor) (minimumClient bound : ProtocolVersion)
    (version : SupportedProtocolVersion) : Prop :=
  Offered descriptor minimumClient bound version ∧
    ∀ other, Offered descriptor minimumClient bound other →
      rank (lockedVersion other) ≤ rank (lockedVersion version)

section Selection

variable {descriptor : ProtocolDescriptor} {requested minimumClient : ProtocolVersion}

theorem firstCompatible_cons (version : SupportedProtocolVersion)
    (versions : List SupportedProtocolVersion) :
    (Offered descriptor minimumClient requested version ∧
        firstCompatible descriptor requested minimumClient (version :: versions) = .ok version) ∨
      ¬ Offered descriptor minimumClient requested version ∧
        firstCompatible descriptor requested minimumClient (version :: versions) =
          firstCompatible descriptor requested minimumClient versions := by
  have hoffered : (descriptor.supportedVersions.contains version.text &&
      compareVersions (lockedVersion version) requested ≤ 0 &&
      0 ≤ compareVersions (lockedVersion version) minimumClient) = true ↔
        Offered descriptor minimumClient requested version := by
    rw [Bool.and_eq_true, Bool.and_eq_true, decide_eq_true_eq, decide_eq_true_eq,
      compareVersions_nonpos_iff, compareVersions_nonneg_iff, List.contains_iff_mem]
    constructor
    · rintro ⟨⟨hadvertised, hbounded⟩, hminimum⟩
      exact ⟨hadvertised, hminimum, hbounded⟩
    · rintro ⟨hadvertised, hminimum, hbounded⟩
      exact ⟨⟨hadvertised, hbounded⟩, hminimum⟩
  rw [firstCompatible, parseProtocolVersion_text]
  by_cases h : Offered descriptor minimumClient requested version
  · exact .inl ⟨h, if_pos (hoffered.mpr h)⟩
  · exact .inr ⟨h, if_neg fun htest => h (hoffered.mp htest)⟩

-- The loop goes down the order, so that the first version offered is the greatest.
theorem firstCompatible_spec {versions : List SupportedProtocolVersion}
    (hsorted : versions.Pairwise fun greater less =>
      rank (lockedVersion less) ≤ rank (lockedVersion greater)) :
    (∃ version ∈ versions, firstCompatible descriptor requested minimumClient versions =
          .ok version ∧ Offered descriptor minimumClient requested version ∧
        ∀ other ∈ versions, Offered descriptor minimumClient requested other →
          rank (lockedVersion other) ≤ rank (lockedVersion version)) ∨
      firstCompatible descriptor requested minimumClient versions =
          .error .incompatibleProtocol ∧
        ∀ other ∈ versions, ¬ Offered descriptor minimumClient requested other := by
  induction versions with
  | nil => exact .inr ⟨rfl, nofun⟩
  | cons version versions ih =>
    obtain ⟨hfirst, hrest⟩ := List.pairwise_cons.mp hsorted
    rcases firstCompatible_cons version versions with
      ⟨hoffered, hresult⟩ | ⟨hskipped, hresult⟩
    · refine .inl ⟨version, List.mem_cons_self, hresult, hoffered, fun other hother _ => ?_⟩
      rcases List.mem_cons.mp hother with rfl | hother
      · exact le_refl _
      · exact hfirst other hother
    · rw [hresult]
      rcases ih hrest with ⟨found, hmem, hok, hoffered, hgreatest⟩ | ⟨herror, hnone⟩
      · refine .inl ⟨found, List.mem_cons_of_mem version hmem, hok, hoffered, ?_⟩
        intro other hother h
        rcases List.mem_cons.mp hother with rfl | hother
        · exact absurd h hskipped
        · exact hgreatest other hother h
      · refine .inr ⟨herror, fun other hother h => ?_⟩
        rcases List.mem_cons.mp hother with rfl | hother
        · exact hskipped h
        · exact hnone other hother h

theorem mem_lockedProtocolVersions (version : SupportedProtocolVersion) :
    version ∈ lockedProtocolVersions.reverse := by
  cases version with
  | _ => decide

theorem firstCompatible_locked :
    (∃ version, firstCompatible descriptor requested minimumClient
        lockedProtocolVersions.reverse = .ok version ∧
        GreatestOffered descriptor minimumClient requested version) ∨
      firstCompatible descriptor requested minimumClient lockedProtocolVersions.reverse =
          .error .incompatibleProtocol ∧
        ∀ other, ¬ Offered descriptor minimumClient requested other := by
  have hsorted : lockedProtocolVersions.reverse.Pairwise fun greater less =>
      rank (lockedVersion less) ≤ rank (lockedVersion greater) := by
    decide
  rcases firstCompatible_spec hsorted with ⟨version, -, hok, hoffered, hgreatest⟩ | ⟨herror, hnone⟩
  · exact .inl ⟨version, hok, hoffered, fun other h =>
      hgreatest other (mem_lockedProtocolVersions other) h⟩
  · exact .inr ⟨herror, fun other => hnone other (mem_lockedProtocolVersions other)⟩

end Selection

/-! ## Negotiation -/

/-- The major version of the locked ones. -/
def lockedMajor : Nat := (lockedVersion .v1_0_0).major

section Negotiated

variable {descriptor : ProtocolDescriptor} {requestedVersion : JsString}
  {requested current minimumClient : ProtocolVersion}

theorem negotiate_spec (hrequested : parseProtocolVersion requestedVersion = .ok requested)
    (hcurrent : parseProtocolVersion descriptor.currentVersion = .ok current)
    (hminimum : parseProtocolVersion descriptor.minimumClientVersion = .ok minimumClient) :
    (∃ version, negotiateProtocolVersion descriptor requestedVersion = .ok version ∧
        requested.major = lockedMajor ∧ current.major = lockedMajor ∧
        GreatestOffered descriptor minimumClient requested version) ∨
      negotiateProtocolVersion descriptor requestedVersion = .error .incompatibleProtocol ∧
        (requested.major ≠ lockedMajor ∨ current.major ≠ lockedMajor ∨
          ∀ version, ¬ Offered descriptor minimumClient requested version) := by
  have heq : negotiateProtocolVersion descriptor requestedVersion =
      if requested.major ≠ lockedMajor || current.major ≠ lockedMajor ||
          compareVersions requested minimumClient < 0 then .error .incompatibleProtocol
      else firstCompatible descriptor requested minimumClient lockedProtocolVersions.reverse := by
    rw [negotiateProtocolVersion, hrequested, hcurrent, hminimum, parseProtocolVersion_text]
    rfl
  rw [heq]
  by_cases hmajor : requested.major = lockedMajor
  case neg => exact .inr ⟨by simp [hmajor], .inl hmajor⟩
  by_cases hcurrentMajor : current.major = lockedMajor
  case neg => exact .inr ⟨by simp [hcurrentMajor], .inr (.inl hcurrentMajor)⟩
  by_cases hbelow : compareVersions requested minimumClient < 0
  · refine .inr ⟨by simp [hbelow], .inr (.inr fun version h => ?_)⟩
    exact absurd (h.minimum.trans h.bounded) (not_le.mpr (compareVersions_neg_iff.mp hbelow))
  · rw [if_neg (by simp [hmajor, hcurrentMajor, hbelow])]
    rcases firstCompatible_locked with ⟨version, hok, hgreatest⟩ | ⟨herror, hnone⟩
    · exact .inl ⟨version, hok, hmajor, hcurrentMajor, hgreatest⟩
    · exact .inr ⟨herror, .inr (.inr hnone)⟩

theorem rank_lockedVersion_injective {version other : SupportedProtocolVersion}
    (h : rank (lockedVersion version) = rank (lockedVersion other)) : version = other := by
  revert h
  cases version with
  | _ => cases other with
    | _ => decide

theorem GreatestOffered.unique {bound : ProtocolVersion}
    {version other : SupportedProtocolVersion}
    (h : GreatestOffered descriptor minimumClient bound version)
    (hother : GreatestOffered descriptor minimumClient bound other) : version = other :=
  rank_lockedVersion_injective (le_antisymm (hother.2 version h.1) (h.2 other hother.1))

-- Whatever fails to be a version, nothing is negotiated.
theorem negotiate_invalid
    (h : (∃ e, parseProtocolVersion requestedVersion = .error e) ∨
      (∃ e, parseProtocolVersion descriptor.currentVersion = .error e) ∨
      ∃ e, parseProtocolVersion descriptor.minimumClientVersion = .error e) :
    negotiateProtocolVersion descriptor requestedVersion = .error .invalidProtocolVersion := by
  rw [negotiateProtocolVersion]
  cases hrequested : parseProtocolVersion requestedVersion with
  | error e =>
    rw [parseProtocolVersion_error hrequested]
    rfl
  | ok requested =>
    cases hcurrent : parseProtocolVersion descriptor.currentVersion with
    | error e =>
      rw [parseProtocolVersion_error hcurrent]
      rfl
    | ok current =>
      cases hminimum : parseProtocolVersion descriptor.minimumClientVersion with
      | error e =>
        rw [parseProtocolVersion_error hminimum]
        rfl
      | ok minimumClient =>
        rw [hrequested, hcurrent, hminimum] at h
        rcases h with ⟨e, he⟩ | ⟨e, he⟩ | ⟨e, he⟩ <;> cases he

-- A version is accepted if negotiating it again gives it back.
theorem negotiate_text_iff {version : SupportedProtocolVersion}
    (hcurrent : parseProtocolVersion descriptor.currentVersion = .ok current)
    (hminimum : parseProtocolVersion descriptor.minimumClientVersion = .ok minimumClient)
    (hmajor : current.major = lockedMajor) :
    negotiateProtocolVersion descriptor version.text = .ok version ↔
      version.text ∈ descriptor.supportedVersions ∧
        rank minimumClient ≤ rank (lockedVersion version) := by
  have hspec := negotiate_spec (parseProtocolVersion_text version) hcurrent hminimum
  constructor
  · intro h
    rcases hspec with ⟨found, hok, -, -, hgreatest⟩ | ⟨herror, -⟩
    · obtain rfl := Except.ok.inj (hok.symm.trans h)
      exact ⟨hgreatest.1.advertised, hgreatest.1.minimum⟩
    · cases herror.symm.trans h
  · rintro ⟨hadvertised, hlower⟩
    have hself : GreatestOffered descriptor minimumClient (lockedVersion version) version :=
      ⟨⟨hadvertised, hlower, le_refl _⟩, fun other h => h.bounded⟩
    rcases hspec with ⟨found, hok, -, -, hgreatest⟩ | ⟨-, hlocked | hlocked | hnone⟩
    · rw [hok, hgreatest.unique hself]
    · exact absurd (by cases version with | _ => rfl) hlocked
    · exact absurd hmajor hlocked
    · exact absurd hself.1 (hnone version)

theorem idxOf_lt_iff (version other : SupportedProtocolVersion) :
    [SupportedProtocolVersion.v1_0_0, .v1_1_0, .v1_2_0].idxOf version <
        [SupportedProtocolVersion.v1_0_0, .v1_1_0, .v1_2_0].idxOf other ↔
      rank (lockedVersion version) < rank (lockedVersion other) := by
  cases version with
  | _ => cases other with
    | _ => decide

theorem mem_acceptedResponseVersions {session version : SupportedProtocolVersion}
    (hcurrent : parseProtocolVersion descriptor.currentVersion = .ok current)
    (hminimum : parseProtocolVersion descriptor.minimumClientVersion = .ok minimumClient)
    (hmajor : current.major = lockedMajor) :
    version ∈ acceptedResponseVersions descriptor session ↔
      Offered descriptor minimumClient (lockedVersion session) version := by
  have hmem : version ∈ [SupportedProtocolVersion.v1_0_0, .v1_1_0, .v1_2_0] := by
    cases version with
    | _ => decide
  rw [acceptedResponseVersions, List.mem_filter, and_iff_right hmem]
  by_cases hlater : rank (lockedVersion session) < rank (lockedVersion version)
  · rw [if_pos ((idxOf_lt_iff session version).mpr hlater)]
    exact iff_of_false Bool.false_ne_true fun h => absurd h.bounded (not_le.mpr hlater)
  · rw [if_neg fun h => hlater ((idxOf_lt_iff session version).mp h)]
    have hiff : _ ↔ version.text ∈ _ ∧ _ := negotiate_text_iff hcurrent hminimum hmajor
    have hbounded := not_lt.mp hlater
    cases hnegotiated : negotiateProtocolVersion descriptor version.text with
    | error e =>
      rw [hnegotiated] at hiff
      refine iff_of_false Bool.false_ne_true fun h => ?_
      cases hiff.mpr ⟨h.advertised, h.minimum⟩
    | ok negotiated =>
      rw [hnegotiated, Except.ok.injEq] at hiff
      rw [decide_eq_true_eq, hiff]
      exact ⟨fun h => ⟨h.1, h.2, hbounded⟩, fun h => ⟨h.advertised, h.minimum⟩⟩

end Negotiated

-- Negotiation finds the greatest version offered, and responses may have any version offered up to
-- the session's, which is the greatest of them.
theorem negotiation_agrees (descriptor : ProtocolDescriptor) (requestedVersion : JsString) :
    (∀ requested current minimumClient,
      parseProtocolVersion requestedVersion = .ok requested →
      parseProtocolVersion descriptor.currentVersion = .ok current →
      parseProtocolVersion descriptor.minimumClientVersion = .ok minimumClient →
      (requested.major = lockedMajor → current.major = lockedMajor → ∀ version,
        negotiateProtocolVersion descriptor requestedVersion = .ok version ↔
          GreatestOffered descriptor minimumClient requested version) ∧
      (negotiateProtocolVersion descriptor requestedVersion = .error .incompatibleProtocol ↔
        requested.major ≠ lockedMajor ∨ current.major ≠ lockedMajor ∨
          ¬ ∃ version, Offered descriptor minimumClient requested version)) ∧
    ((∃ e, parseProtocolVersion requestedVersion = .error e) ∨
        (∃ e, parseProtocolVersion descriptor.currentVersion = .error e) ∨
        (∃ e, parseProtocolVersion descriptor.minimumClientVersion = .error e) →
      negotiateProtocolVersion descriptor requestedVersion = .error .invalidProtocolVersion) ∧
    ∀ session, negotiateProtocolVersion descriptor requestedVersion = .ok session →
      ∃ minimumClient,
        parseProtocolVersion descriptor.minimumClientVersion = .ok minimumClient ∧
        (∀ version, version ∈ acceptedResponseVersions descriptor session ↔
          version.text ∈ descriptor.supportedVersions ∧
            rank minimumClient ≤ rank (lockedVersion version) ∧
            rank (lockedVersion version) ≤ rank (lockedVersion session)) ∧
        session ∈ acceptedResponseVersions descriptor session ∧
        ∀ version ∈ acceptedResponseVersions descriptor session,
          rank (lockedVersion version) ≤ rank (lockedVersion session) := by
  refine ⟨?_, negotiate_invalid, ?_⟩
  · intro requested current minimumClient hrequested hcurrent hminimum
    rcases negotiate_spec hrequested hcurrent hminimum with
      ⟨found, hok, hmajor, hcurrentMajor, hgreatest⟩ | ⟨herror, hwhy⟩
    · refine ⟨fun _ _ version => ?_, ?_⟩
      · rw [hok, Except.ok.injEq]
        constructor
        · rintro rfl
          exact hgreatest
        · exact hgreatest.unique
      · rw [hok]
        refine iff_of_false nofun ?_
        rintro (h | h | h)
        · exact h hmajor
        · exact h hcurrentMajor
        · exact h ⟨found, hgreatest.1⟩
    · refine ⟨fun hmajor hcurrentMajor version => ?_, ?_⟩
      · rw [herror]
        refine iff_of_false nofun fun h => ?_
        rcases hwhy with hwhy | hwhy | hwhy
        · exact hwhy hmajor
        · exact hwhy hcurrentMajor
        · exact hwhy version h.1
      · rw [not_exists]
        exact iff_of_true herror hwhy
  · intro session hsession
    cases hrequested : parseProtocolVersion requestedVersion with
    | error e => cases (negotiate_invalid (.inl ⟨e, hrequested⟩)).symm.trans hsession
    | ok requested =>
      cases hcurrent : parseProtocolVersion descriptor.currentVersion with
      | error e => cases (negotiate_invalid (.inr (.inl ⟨e, hcurrent⟩))).symm.trans hsession
      | ok current =>
        cases hminimum : parseProtocolVersion descriptor.minimumClientVersion with
        | error e => cases (negotiate_invalid (.inr (.inr ⟨e, hminimum⟩))).symm.trans hsession
        | ok minimumClient =>
          rcases negotiate_spec hrequested hcurrent hminimum with
            ⟨found, hok, -, hmajor, hgreatest⟩ | ⟨herror, -⟩
          · obtain rfl := Except.ok.inj (hok.symm.trans hsession)
            have hmem : ∀ version, version ∈ acceptedResponseVersions descriptor found ↔ _ :=
              fun version => mem_acceptedResponseVersions hcurrent hminimum hmajor
            refine ⟨minimumClient, rfl, fun version => ?_, ?_, fun version h => ?_⟩
            · rw [hmem]
              exact ⟨fun h => ⟨h.advertised, h.minimum, h.bounded⟩,
                fun h => ⟨h.1, h.2.1, h.2.2⟩⟩
            · exact (hmem found).mpr ⟨hgreatest.1.advertised, hgreatest.1.minimum, le_refl _⟩
            · exact ((hmem version).mp h).bounded
          · cases herror.symm.trans hsession

end Protocol
