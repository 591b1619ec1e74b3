import TeslatlasSdk.Hub.SessionRules

/-!
# Pages of drives

The checks of a page accept what a page has to be for its query, and the key that a cursor is bound
to tells queries apart.
-/

open Text Core Http

namespace Hub

/-! ## Order -/

theorem HubDrive.Precedes.trans {a b c : HubDrive} (h : a.Precedes b) (h' : b.Precedes c) :
    a.Precedes c := by
  simp only [HubDrive.Precedes] at *
  omega

instance : Trans HubDrive.Precedes HubDrive.Precedes HubDrive.Precedes := ⟨.trans⟩

theorem precedes_iff {earlier drive : HubDrive} :
    earlier.Precedes drive ↔ ¬ (earlier.startDateMs < drive.startDateMs ∨
      earlier.startDateMs = drive.startDateMs ∧ earlier.id ≤ drive.id) := by
  simp only [HubDrive.Precedes]
  omega

-- The check of neighbours is one of all pairs.
theorem misordered_iff (items : List HubDrive) :
    misordered items = false ↔ items.Pairwise HubDrive.Precedes := by
  rw [← List.isChain_iff_pairwise]
  induction items with
  | nil => exact ⟨fun _ => .nil, fun _ => rfl⟩
  | cons earlier rest ih =>
    cases rest with
    | nil => exact ⟨fun _ => .singleton _, fun _ => rfl⟩
    | cons drive rest =>
      rw [List.isChain_cons_cons, ← ih, misordered, precedes_iff]
      simp only [Bool.or_eq_false_iff, Bool.and_eq_false_iff, decide_eq_false_iff_not, not_or,
        not_and_or]

/-! ## The law of pages -/

-- A page is accepted if and only if it is one of the query.
theorem requireDrivesPage_iff {vehicleId : JsString} {options : HubDrivesOptions}
    {value : HubDrives} :
    requireDrivesPage vehicleId options value = .ok () ↔ PageLaw vehicleId options value := by
  unfold requireDrivesPage
  constructor
  · intro h
    simp only at h
    split at h
    · cases h
    split at h
    · cases h
    split at h
    · cases h
    split at h
    · cases h
    next howned hsize hrange horder =>
    simp only [List.any_eq_true, decide_eq_true_eq, Bool.or_eq_true, not_exists, not_and, not_or,
      not_not, not_lt, not_le, ge_iff_le, gt_iff_lt] at howned hsize hrange
    exact { owned := howned, ordered := (misordered_iff _).mp (by simpa using horder),
            start := fun drive hdrive => (hrange drive hdrive).1,
            stop := fun drive hdrive => (hrange drive hdrive).2, size := hsize }
  · intro h
    have howned : ¬ (value.items.any fun drive => drive.vehicleId ≠ vehicleId) = true := by
      simpa using h.owned
    have hsize : ¬ (value.items.length : Int) > (options.limit.bind JsNumber.safeInteger?).getD 100 :=
      not_lt.mpr h.size
    have hrange : ¬ (value.items.any fun drive =>
        drive.startDateMs < (options.fromMs.bind JsNumber.safeInteger?).getD 0 ||
          drive.startDateMs ≥
            (options.toMs.bind JsNumber.safeInteger?).getD maximumSafeInteger) = true := by
      simp only [List.any_eq_true, decide_eq_true_eq, Bool.or_eq_true, not_exists, not_and, not_or,
        not_lt, not_le, ge_iff_le]
      exact fun drive hdrive => ⟨h.start drive hdrive, h.stop drive hdrive⟩
    have horder : ¬ misordered value.items = true := by
      rw [(misordered_iff _).mpr h.ordered]
      exact Bool.false_ne_true
    simp only [if_neg howned, if_neg hsize, if_neg hrange, if_neg horder]

/-! ## The keys of cursors -/

-- Two lists that are cut at the first of a separator.
theorem cut_injective {α : Type} {a : α} {x y z w : List α} (hx : a ∉ x) (hy : a ∉ y)
    (h : x ++ a :: z = y ++ a :: w) : x = y ∧ z = w := by
  induction x generalizing y with
  | nil =>
    cases y with
    | nil => exact ⟨rfl, (List.cons.inj h).2⟩
    | cons b y => exact absurd ((List.cons.inj h).1 ▸ List.mem_cons_self) hy
  | cons b x ih =>
    cases y with
    | nil => exact absurd ((List.cons.inj h).1 ▸ List.mem_cons_self) hx
    | cons c y =>
      obtain ⟨rfl, hrest⟩ := List.cons.inj h
      obtain ⟨rfl, hw⟩ := ih (fun hmem => hx (List.mem_cons_of_mem b hmem))
        (fun hmem => hy (List.mem_cons_of_mem b hmem)) hrest
      exact ⟨rfl, hw⟩

theorem isUuid_zero {value : JsString} (h : isUuid value = true) : (0 : CodeUnit) ∉ value := by
  intro hmem
  obtain ⟨k, hk⟩ := List.mem_iff_getElem?.mp hmem
  rw [isUuid, Bool.and_eq_true, List.all_eq_true] at h
  have hunit := h.2 (0, k) (List.mk_mem_zipIdx_iff_getElem?.mpr hk)
  simp only at hunit
  split at hunit
  · exact absurd hunit (by decide)
  · exact absurd hunit (by decide)

theorem decimal_zero (n : Nat) : (0 : CodeUnit) ∉ decimal n := by
  intro hmem
  exact absurd (isDigit_decimal n 0 hmem) (by decide)

theorem text_zero {value : JsNumber} (h : value.safeInteger?.isSome = true) :
    (0 : CodeUnit) ∉ value.text := by
  cases value with
  | other text => cases h
  | integer value =>
    cases value with
    | ofNat value => exact decimal_zero value
    | negSucc value =>
      rw [JsNumber.text, List.mem_cons, not_or]
      exact ⟨by decide, decimal_zero _⟩

theorem text_injective {m n : Int} (h : (JsNumber.integer m).text = (JsNumber.integer n).text) :
    m = n := by
  have hsign : ∀ k l : Nat, decimal k ≠ 0x2D :: decimal l := by
    intro k l heq
    have hmem : (0x2D : CodeUnit) ∈ decimal k := heq ▸ List.mem_cons_self
    exact absurd (isDigit_decimal k _ hmem) (by decide)
  cases m with
  | ofNat m =>
    cases n with
    | ofNat n => rw [decimal_injective h]
    | negSucc n => exact absurd h (hsign m (n + 1))
  | negSucc m =>
    cases n with
    | ofNat n => exact absurd h.symm (hsign n (m + 1))
    | negSucc n =>
      have hdigits := decimal_injective (List.cons.inj h).2
      rw [Nat.succ.inj hdigits]

/-- The safe integer that a bound of the time range stands for. -/
def bound (value : Option JsNumber) (default : Int) : Int :=
  ((value.getD (.integer default)).safeInteger?).getD default

theorem bound_text {name : String} {value : Option JsNumber} {default : Int}
    (hdefault : default.natAbs ≤ maximumSafeInteger) (h : requireInteger name value = .ok ()) :
    (value.getD (.integer default)).text = (JsNumber.integer (bound value default)).text ∧
      (0 : CodeUnit) ∉ (value.getD (.integer default)).text := by
  have hsafe : ((value.getD (.integer default)).safeInteger?).isSome = true := by
    cases value with
    | none =>
      rw [Option.getD_none, JsNumber.safeInteger?, if_pos hdefault]
      rfl
    | some value =>
      by_contra hunsafe
      rw [Option.getD_some] at hunsafe
      rw [requireInteger, if_neg hunsafe] at h
      cases h
  refine ⟨?_, text_zero hsafe⟩
  rw [bound]
  cases hvalue : value.getD (.integer default) with
  | other text =>
    rw [hvalue] at hsafe
    cases hsafe
  | integer n =>
    rw [hvalue, JsNumber.safeInteger?] at hsafe
    rw [JsNumber.safeInteger?]
    split at hsafe
    · next hn => rw [if_pos hn, Option.getD_some]
    · cases hsafe

theorem requireIntegers_ok {options : HubDrivesOptions} (h : requireIntegers options = .ok ()) :
    requireInteger "from_ms" options.fromMs = .ok () ∧
      requireInteger "to_ms" options.toMs = .ok () ∧
        requireInteger "limit" options.limit = .ok () := by
  rw [requireIntegers] at h
  cases hfrom : requireInteger "from_ms" options.fromMs with
  | error e =>
    rw [hfrom] at h
    cases h
  | ok u =>
    rw [hfrom] at h
    cases hto : requireInteger "to_ms" options.toMs with
    | error e =>
      rw [hto] at h
      cases h
    | ok u' =>
      rw [hto] at h
      exact ⟨rfl, rfl, h⟩

/-- Two queries are for the same drives of the same vehicle. -/
structure SameQuery (vehicleId : JsString) (options : HubDrivesOptions) (otherId : JsString)
    (other : HubDrivesOptions) : Prop where
  vehicle : vehicleId = otherId
  start : bound options.fromMs 0 = bound other.fromMs 0
  stop : bound options.toMs maximumSafeInteger = bound other.toMs maximumSafeInteger

-- Well-formed queries have one key if and only if they are one query.
theorem cursorBinding_eq_iff {vehicleId otherId : JsString} {options other : HubDrivesOptions}
    (h : (HubRoute.drives vehicleId options).WellAsked)
    (h' : (HubRoute.drives otherId other).WellAsked) :
    cursorBinding vehicleId options.fromMs options.toMs =
        cursorBinding otherId other.fromMs other.toMs ↔
      SameQuery vehicleId options otherId other := by
  obtain ⟨huuid, hintegers⟩ := h
  obtain ⟨huuid', hintegers'⟩ := h'
  obtain ⟨hfrom, hto, -⟩ := requireIntegers_ok hintegers
  obtain ⟨hfrom', hto', -⟩ := requireIntegers_ok hintegers'
  obtain ⟨hstart, hstartZero⟩ := @bound_text "from_ms" options.fromMs 0 (by decide) hfrom
  obtain ⟨hstart', hstartZero'⟩ := @bound_text "from_ms" other.fromMs 0 (by decide) hfrom'
  obtain ⟨hstop, -⟩ :=
    @bound_text "to_ms" options.toMs maximumSafeInteger (by decide) hto
  obtain ⟨hstop', -⟩ :=
    @bound_text "to_ms" other.toMs maximumSafeInteger (by decide) hto'
  unfold cursorBinding
  constructor
  · intro hbinding
    rw [List.append_assoc, List.append_assoc] at hbinding
    obtain ⟨hvehicle, hrest⟩ := cut_injective (isUuid_zero huuid) (isUuid_zero huuid') hbinding
    obtain ⟨htexts, htexts'⟩ := cut_injective hstartZero hstartZero' hrest
    rw [hstart, hstart'] at htexts
    rw [hstop, hstop'] at htexts'
    exact ⟨hvehicle, text_injective htexts, text_injective htexts'⟩
  · rintro ⟨hvehicle, hfrom, hto⟩
    rw [hvehicle, hstart, hstart', hstop, hstop', hfrom, hto]

end Hub
