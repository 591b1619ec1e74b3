import TeslatlasSdk.Core.Checks
import TeslatlasSdk.Http.BoundedText
import Mathlib.Data.List.DropRight
import Mathlib.Data.List.Infix

/-!
# The buffer of a bounded body

`readBoundedText` with the array that it fills.  What arrives is given as a list: each settled read,
and the signal when the code goes on after it.
-/

open Text Core

namespace Http

/-- The `RangeError` of a `set` that does not fit. -/
def rangeError : Thrown := .other 2

/-- `target.set(source, offset)`. -/
def setBytes (target source : List UInt8) (offset : Nat) : Except Thrown (List UInt8) :=
  if offset + source.length ≤ target.length then
    .ok (target.take offset ++ source ++ target.drop (offset + source.length))
  else .error rangeError

/-- The variables of the loop. -/
structure BodyBuffer where
  body : List UInt8
  size : Nat
  emptyChunks : Nat
  deriving DecidableEq, Repr

/-- A read that is settled. -/
structure BodyRead where
  result : Except Thrown (Option (List UInt8))
  aborted : AbortState

section

variable (validatorName : String) (maximumBytes : Nat)

namespace BodyBuffer

def initial : BodyBuffer where
  body := List.replicate (min 4096 maximumBytes) 0
  size := 0
  emptyChunks := 0

/-- The array, or a larger one with what has been read. -/
def expand (b : BodyBuffer) (needed : Nat) : Except Thrown (List UInt8) :=
  if needed > b.body.length then
    setBytes (List.replicate (min maximumBytes (max needed (b.body.length * 2))) 0)
      (b.body.take b.size) 0
  else .ok b.body

/-- The loop's body, for a chunk. -/
def append (b : BodyBuffer) (chunk : List UInt8) : Except Thrown BodyBuffer := do
  rejectIf (b.size + chunk.length > maximumBytes) (sizeError validatorName)
  let emptyChunks := if chunk.length = 0 then b.emptyChunks + 1 else 0
  rejectIf (emptyChunks > 1024) (sizeError validatorName)
  let body ← b.expand maximumBytes (b.size + chunk.length)
  let body ← setBytes body chunk b.size
  return { body, size := b.size + chunk.length, emptyChunks }

/-- The `catch` clause. -/
def caught (aborted : AbortState) (error : Thrown) : Thrown :=
  match aborted with
  | some reason => reasonOr error reason
  | none =>
      if error.isProtocolValidationError then error
      else .teslatlas (.protocolValidation validatorName)

/-- The loop, and what it throws or returns; `none` while it waits for a read. -/
def readOn (b : BodyBuffer) : List BodyRead → Option (Except Thrown JsString)
  | [] => none
  | read :: reads =>
      match read.result with
      | .error error => some (.error (caught validatorName read.aborted error))
      | .ok result =>
          match read.aborted with
          | some reason =>
              some (.error (caught validatorName read.aborted (abortReason reason)))
          | none =>
              match result with
              | none => some (.ok (decodeText (b.body.take b.size)))
              | some chunk =>
                  match b.append validatorName maximumBytes chunk with
                  | .error error => some (.error (caught validatorName none error))
                  | .ok b => b.readOn reads

/-- `readBoundedText`: the body as in a `Response`, and the signal at the call. -/
def readText (body : Option Bool) (aborted : AbortState) (reads : List BodyRead) :
    Option (Except Thrown JsString) :=
  match body, aborted with
  | none, some reason => some (.error (abortReason reason))
  | none, none => some (.ok [])
  | some true, _ => some (.error lockedBodyError)
  | some false, some reason =>
      some (.error (caught validatorName aborted (abortReason reason)))
  | some false, none => (initial maximumBytes).readOn validatorName maximumBytes reads

end BodyBuffer

/-! ## Chunks that may be read -/

/-- Not too many bytes, and not too many empty chunks in a row. -/
structure Admitted (chunks : List (List UInt8)) : Prop where
  size : chunks.flatten.length ≤ maximumBytes
  emptyRun : ¬ List.replicate 1025 [] <:+: chunks

/-- The empty chunks that a list ends with. -/
def emptyRun (chunks : List (List UInt8)) : Nat := (chunks.rtakeWhile List.isEmpty).length

theorem emptyRun_concat (chunks : List (List UInt8)) (chunk : List UInt8) :
    emptyRun (chunks ++ [chunk]) = if chunk.length = 0 then emptyRun chunks + 1 else 0 := by
  rw [emptyRun, List.rtakeWhile_concat]
  cases chunk with
  | nil => simp [emptyRun]
  | cons byte chunk => simp

theorem replicate_suffix_iff (n : Nat) (chunks : List (List UInt8)) :
    List.replicate n [] <:+ chunks ↔ n ≤ emptyRun chunks := by
  induction n generalizing chunks with
  | zero => simp
  | succ n ih =>
    obtain rfl | ⟨front, last, rfl⟩ := List.eq_nil_or_concat chunks
    · simp [emptyRun]
    · rw [List.concat_eq_append, List.replicate_succ', List.suffix_concat_iff, emptyRun_concat]
      constructor
      · rintro (hnil | ⟨t, heq, ht⟩)
        · exact absurd hnil (List.append_ne_nil_of_right_ne_nil _ (List.cons_ne_nil _ _))
        · obtain ⟨rfl, hlast⟩ := List.append_inj' heq rfl
          obtain rfl := (List.cons.inj hlast).1
          have hle := (ih front).mp ht
          rw [List.length_nil, if_pos rfl]
          omega
      · intro hle
        split at hle
        · next hlast =>
          obtain rfl := List.eq_nil_of_length_eq_zero hlast
          exact .inr ⟨_, rfl, (ih front).mpr (by omega)⟩
        · omega

-- A chunk may be added if there is room for it and the run of empty chunks stays short.
theorem admitted_concat (chunks : List (List UInt8)) (chunk : List UInt8) :
    Admitted maximumBytes (chunks ++ [chunk]) ↔
      Admitted maximumBytes chunks ∧ chunks.flatten.length + chunk.length ≤ maximumBytes ∧
        (if chunk.length = 0 then emptyRun chunks + 1 else 0) ≤ 1024 := by
  have hflatten : (chunks ++ [chunk]).flatten.length = chunks.flatten.length + chunk.length := by
    rw [List.flatten_append, List.length_append, List.flatten_singleton]
  have hrun : List.replicate 1025 [] <:+: chunks ++ [chunk] ↔
      1025 ≤ (if chunk.length = 0 then emptyRun chunks + 1 else 0) ∨
        List.replicate 1025 [] <:+: chunks := by
    rw [List.infix_concat_iff, replicate_suffix_iff, emptyRun_concat]
  constructor
  · rintro ⟨hsize, hempty⟩
    rw [hflatten] at hsize
    rw [hrun, not_or] at hempty
    exact ⟨⟨by omega, hempty.2⟩, hsize, by omega⟩
  · rintro ⟨⟨-, hempty⟩, hsize, hshort⟩
    refine ⟨hflatten ▸ hsize, ?_⟩
    rw [hrun, not_or]
    exact ⟨by omega, hempty⟩

theorem Admitted.of_append (chunks more : List (List UInt8)) {maximumBytes : Nat}
    (h : Admitted maximumBytes (chunks ++ more)) : Admitted maximumBytes chunks := by
  obtain ⟨hsize, hrun⟩ := h
  rw [List.flatten_append, List.length_append] at hsize
  exact ⟨by omega, fun hlong => hrun (hlong.trans List.infix_append_left)⟩

/-! ## What the buffer holds -/

-- A write that fits.
theorem setBytes_ok {target source : List UInt8} {offset : Nat}
    (h : offset + source.length ≤ target.length) :
    ∃ written, setBytes target source offset = .ok written ∧ written.length = target.length ∧
      written.take (offset + source.length) = target.take offset ++ source := by
  refine ⟨_, if_pos h, ?_, ?_⟩
  · rw [List.length_append, List.length_append, List.length_take, List.length_drop]
    omega
  · apply List.take_left'
    rw [List.length_append, List.length_take]
    omega

/-- The buffer holds the chunks, in order and with nothing between them. -/
structure Holding (b : BodyBuffer) (chunks : List (List UInt8)) : Prop where
  size : b.size = chunks.flatten.length
  bytes : b.body.take b.size = chunks.flatten
  fits : b.size ≤ b.body.length
  capacity : b.body.length ≤ maximumBytes
  emptyRun : b.emptyChunks = Http.emptyRun chunks

theorem holding_initial : Holding maximumBytes (BodyBuffer.initial maximumBytes) [] where
  size := rfl
  bytes := rfl
  fits := Nat.zero_le _
  capacity := by
    rw [BodyBuffer.initial, List.length_replicate]
    exact Nat.min_le_right _ _
  emptyRun := rfl

variable {validatorName maximumBytes} {b : BodyBuffer} {chunks : List (List UInt8)}

-- An array that is large enough, with the same bytes in front.
theorem Holding.expand (h : Holding maximumBytes b chunks) {needed : Nat} (hle : b.size ≤ needed)
    (hmax : needed ≤ maximumBytes) :
    ∃ body, b.expand maximumBytes needed = .ok body ∧ needed ≤ body.length ∧
      body.length ≤ maximumBytes ∧ body.take b.size = b.body.take b.size := by
  rw [BodyBuffer.expand]
  by_cases hneeded : needed > b.body.length
  · rw [if_pos hneeded]
    have hfits := h.fits
    have htake : (b.body.take b.size).length = b.size := List.length_take_of_le hfits
    have hlength : (List.replicate (min maximumBytes (max needed (b.body.length * 2)))
        (0 : UInt8)).length = min maximumBytes (max needed (b.body.length * 2)) :=
      List.length_replicate
    obtain ⟨body, hset, hbody, hfront⟩ := @setBytes_ok (List.replicate (min maximumBytes
      (max needed (b.body.length * 2))) 0) (b.body.take b.size) 0 (by omega)
    rw [htake, Nat.zero_add] at hfront
    exact ⟨body, hset, by omega, by omega, hfront⟩
  · rw [if_neg hneeded]
    exact ⟨b.body, rfl, by omega, h.capacity, rfl⟩

theorem Holding.append (h : Holding maximumBytes b chunks) {chunk : List UInt8}
    (hadmitted : Admitted maximumBytes (chunks ++ [chunk])) :
    ∃ b', b.append validatorName maximumBytes chunk = .ok b' ∧
      Holding maximumBytes b' (chunks ++ [chunk]) := by
  obtain ⟨-, hsize, hrun⟩ := (admitted_concat maximumBytes chunks chunk).mp hadmitted
  have hneeded : b.size + chunk.length ≤ maximumBytes := by
    rw [h.size]
    exact hsize
  obtain ⟨body, hbody, hroom, hcapacity, hfront⟩ := h.expand (Nat.le_add_right _ _) hneeded
  obtain ⟨written, hset, hlength, hwhole⟩ := setBytes_ok hroom
  rw [h.emptyRun.symm] at hrun
  refine ⟨⟨written, b.size + chunk.length, if chunk.length = 0 then b.emptyChunks + 1 else 0⟩,
    ?_, ?_⟩
  · rw [BodyBuffer.append, rejectIf_bind_eq_ok]
    refine ⟨Nat.not_lt.mpr hneeded, ?_⟩
    simp only
    rw [rejectIf_bind_eq_ok]
    refine ⟨Nat.not_lt.mpr hrun, ?_⟩
    exact bind_eq_ok.mpr ⟨body, hbody, bind_eq_ok.mpr ⟨written, hset, rfl⟩⟩
  · constructor
    case size =>
      rw [List.flatten_append, List.length_append, List.flatten_singleton, ← h.size]
    case bytes =>
      rw [hwhole, hfront, h.bytes, List.flatten_append, List.flatten_singleton]
    case fits =>
      simp only
      omega
    case capacity =>
      simp only
      omega
    case emptyRun => rw [emptyRun_concat, h.emptyRun]

-- A chunk that breaks a rule is answered with the size error.
theorem Holding.append_error (h : Holding maximumBytes b chunks) {chunk : List UInt8}
    (hchunks : Admitted maximumBytes chunks)
    (hbroken : ¬ Admitted maximumBytes (chunks ++ [chunk])) :
    b.append validatorName maximumBytes chunk = .error (sizeError validatorName) := by
  rw [admitted_concat, not_and, not_and, ← h.size, ← h.emptyRun] at hbroken
  rw [BodyBuffer.append]
  by_cases hsize : b.size + chunk.length > maximumBytes
  · exact rejectIf_bind_pos hsize _ _
  · have hrun := hbroken hchunks (Nat.not_lt.mp hsize)
    rw [rejectIf_bind_neg hsize]
    exact rejectIf_bind_pos (Nat.not_le.mp hrun) _ _

/-! ## Reading to the end -/

/-- Reads that give the chunks, while the signal is not aborted. -/
def delivered (chunks : List (List UInt8)) : List BodyRead :=
  chunks.map fun chunk => ⟨.ok (some chunk), none⟩

theorem Holding.append_all (h : Holding maximumBytes b chunks) {more : List (List UInt8)}
    (hadmitted : Admitted maximumBytes (chunks ++ more)) :
    ∃ b', more.foldlM (BodyBuffer.append validatorName maximumBytes) b = .ok b' ∧
      Holding maximumBytes b' (chunks ++ more) := by
  induction more generalizing b chunks with
  | nil =>
    rw [List.append_nil]
    exact ⟨b, rfl, h⟩
  | cons chunk more ih =>
    have hsplit : chunks ++ chunk :: more = chunks ++ [chunk] ++ more := by simp
    rw [hsplit] at hadmitted ⊢
    obtain ⟨next, hnext, hholding⟩ := @Holding.append validatorName _ _ _ h chunk
      (hadmitted.of_append _ _)
    obtain ⟨last, hlast, hread⟩ := ih hholding hadmitted
    refine ⟨last, ?_, hread⟩
    rw [List.foldlM_cons]
    exact bind_eq_ok.mpr ⟨next, hnext, hlast⟩

theorem readOn_delivered {last : BodyBuffer}
    (h : chunks.foldlM (BodyBuffer.append validatorName maximumBytes) b = .ok last)
    (later : List BodyRead) :
    b.readOn validatorName maximumBytes (delivered chunks ++ later) =
      last.readOn validatorName maximumBytes later := by
  induction chunks generalizing b with
  | nil =>
    obtain rfl := Except.ok.inj h
    rfl
  | cons chunk chunks ih =>
    rw [List.foldlM_cons, bind_eq_ok] at h
    obtain ⟨next, hnext, hlast⟩ := h
    show BodyBuffer.readOn validatorName maximumBytes b (⟨.ok (some chunk), none⟩ :: _) = _
    rw [BodyBuffer.readOn]
    simp only [hnext]
    exact ih hlast

-- The chunks that a list of reads starts with, as far as they are admitted behind others.
theorem exists_admitted (chunks : List (List UInt8)) (reads : List BodyRead)
    (hchunks : Admitted maximumBytes chunks) :
    ∃ more later, reads = delivered more ++ later ∧ Admitted maximumBytes (chunks ++ more) ∧
      ∀ chunk rest, later = ⟨.ok (some chunk), none⟩ :: rest →
        ¬ Admitted maximumBytes (chunks ++ more ++ [chunk]) := by
  induction reads generalizing chunks with
  | nil => exact ⟨[], [], rfl, by rwa [List.append_nil], nofun⟩
  | cons read reads ih =>
    by_cases hread : ∃ chunk, read = ⟨.ok (some chunk), none⟩ ∧
        Admitted maximumBytes (chunks ++ [chunk])
    · obtain ⟨chunk, rfl, hchunk⟩ := hread
      obtain ⟨more, later, rfl, hmore, hlater⟩ := ih (chunks ++ [chunk]) hchunk
      have hsplit : chunks ++ [chunk] ++ more = chunks ++ chunk :: more := by simp
      rw [hsplit] at hmore hlater
      exact ⟨chunk :: more, later, rfl, hmore, hlater⟩
    · refine ⟨[], read :: reads, rfl, by rwa [List.append_nil], ?_⟩
      intro chunk rest heq hadmitted
      rw [List.append_nil] at hadmitted
      exact hread ⟨chunk, (List.cons.inj heq).1, hadmitted⟩

theorem admitted_nil (maximumBytes : Nat) : Admitted maximumBytes [] where
  size := Nat.zero_le _
  emptyRun := fun h => absurd (List.infix_nil.mp h) (by simp)

-- Behind admitted chunks, the loop goes on with a buffer that holds them.
theorem readText_delivered (validatorName : String) (hadmitted : Admitted maximumBytes chunks) :
    ∃ b, Holding maximumBytes b chunks ∧ ∀ later,
      BodyBuffer.readText validatorName maximumBytes (some false) none (delivered chunks ++ later) =
        b.readOn validatorName maximumBytes later := by
  obtain ⟨b, hfold, hholding⟩ := @Holding.append_all validatorName _ _ _
    (holding_initial maximumBytes) chunks hadmitted
  exact ⟨b, hholding, readOn_delivered hfold⟩

end

/-- What `readBoundedText` does with the body of a response, whatever the chunks. -/
structure ReadsExactly (validatorName : String) (maximumBytes : Nat) : Prop where
  returns : ∀ reads text,
    BodyBuffer.readText validatorName maximumBytes (some false) none reads = some (.ok text) ↔
      ∃ chunks later, reads = delivered chunks ++ ⟨.ok none, none⟩ :: later ∧
        Admitted maximumBytes chunks ∧ text = decodeText chunks.flatten
  tooMuch : ∀ chunks chunk later, Admitted maximumBytes chunks →
    ¬ Admitted maximumBytes (chunks ++ [chunk]) →
      BodyBuffer.readText validatorName maximumBytes (some false) none (delivered chunks) = none ∧
      BodyBuffer.readText validatorName maximumBytes (some false) none
          (delivered chunks ++ ⟨.ok (some chunk), none⟩ :: later) =
        some (.error (sizeError validatorName))
  streamError : ∀ chunks error later, Admitted maximumBytes chunks →
    BodyBuffer.readText validatorName maximumBytes (some false) none
        (delivered chunks ++ ⟨.error error, none⟩ :: later) =
      some (.error (BodyBuffer.caught validatorName none error))
  -- Without a reason of its own, an abort stands behind an error of the stream.
  aborted : ∀ chunks result reason later, Admitted maximumBytes chunks →
    BodyBuffer.readText validatorName maximumBytes (some false) none
        (delivered chunks ++ ⟨result, some reason⟩ :: later) =
      some (.error (match result with
        | .ok _ => abortReason reason
        | .error error => reasonOr error reason))
  abortedAtOnce : ∀ body reason reads, body ≠ some true →
    BodyBuffer.readText validatorName maximumBytes body (some reason) reads =
      some (.error (abortReason reason))
  kept : ∀ chunks, Admitted maximumBytes chunks →
    ∃ b, chunks.foldlM (BodyBuffer.append validatorName maximumBytes)
        (BodyBuffer.initial maximumBytes) = .ok b ∧
      b.body.take b.size = chunks.flatten ∧ b.size ≤ b.body.length ∧
      b.body.length ≤ maximumBytes

theorem readText_end {validatorName : String} {maximumBytes : Nat} {chunks : List (List UInt8)}
    (hadmitted : Admitted maximumBytes chunks) (later : List BodyRead) :
    BodyBuffer.readText validatorName maximumBytes (some false) none
        (delivered chunks ++ ⟨.ok none, none⟩ :: later) =
      some (.ok (decodeText chunks.flatten)) := by
  obtain ⟨b, hholding, hread⟩ := readText_delivered validatorName hadmitted
  rw [hread, BodyBuffer.readOn]
  simp only [hholding.bytes]

theorem readText_tooMuch {validatorName : String} {maximumBytes : Nat}
    {chunks : List (List UInt8)} {chunk : List UInt8} (hadmitted : Admitted maximumBytes chunks)
    (hbroken : ¬ Admitted maximumBytes (chunks ++ [chunk])) (later : List BodyRead) :
    BodyBuffer.readText validatorName maximumBytes (some false) none
        (delivered chunks ++ ⟨.ok (some chunk), none⟩ :: later) =
      some (.error (sizeError validatorName)) := by
  obtain ⟨b, hholding, hread⟩ := readText_delivered validatorName hadmitted
  rw [hread, BodyBuffer.readOn]
  simp only [hholding.append_error hadmitted hbroken]
  rfl

theorem readText_rejected {validatorName : String} {maximumBytes : Nat}
    {chunks : List (List UInt8)} {error : Thrown} (hadmitted : Admitted maximumBytes chunks)
    (aborted : AbortState) (later : List BodyRead) :
    BodyBuffer.readText validatorName maximumBytes (some false) none
        (delivered chunks ++ ⟨.error error, aborted⟩ :: later) =
      some (.error (BodyBuffer.caught validatorName aborted error)) := by
  obtain ⟨b, -, hread⟩ := readText_delivered validatorName hadmitted
  rw [hread, BodyBuffer.readOn]

theorem reasonOr_abortReason (reason : Thrown) :
    reasonOr (abortReason reason) reason = abortReason reason := by
  cases reason with
  | undefined => rfl
  | null => rfl
  | _ => rfl

theorem readText_aborted {validatorName : String} {maximumBytes : Nat}
    {chunks : List (List UInt8)} {result : Option (List UInt8)} {reason : Thrown}
    (hadmitted : Admitted maximumBytes chunks) (later : List BodyRead) :
    BodyBuffer.readText validatorName maximumBytes (some false) none
        (delivered chunks ++ ⟨.ok result, some reason⟩ :: later) =
      some (.error (abortReason reason)) := by
  obtain ⟨b, -, hread⟩ := readText_delivered validatorName hadmitted
  rw [hread, BodyBuffer.readOn]
  simp only [BodyBuffer.caught, reasonOr_abortReason]

theorem readText_exact (validatorName : String) (maximumBytes : Nat) :
    ReadsExactly validatorName maximumBytes := by
  constructor
  case returns =>
    intro reads text
    constructor
    · intro h
      obtain ⟨chunks, later, rfl, hadmitted, hlater⟩ :=
        exists_admitted [] reads (admitted_nil maximumBytes)
      rw [List.nil_append] at hadmitted
      obtain ⟨b, hholding, hread⟩ := readText_delivered validatorName hadmitted
      cases later with
      | nil =>
        rw [hread] at h
        cases h
      | cons read rest =>
        obtain ⟨result, aborted⟩ := read
        cases result with
        | error error =>
          rw [readText_rejected hadmitted] at h
          cases h
        | ok result =>
          cases aborted with
          | some reason =>
            rw [readText_aborted hadmitted] at h
            cases h
          | none =>
            cases result with
            | none =>
              rw [readText_end hadmitted] at h
              obtain rfl := Except.ok.inj (Option.some.inj h)
              exact ⟨chunks, rest, rfl, hadmitted, rfl⟩
            | some chunk =>
              rw [readText_tooMuch hadmitted (hlater chunk rest rfl)] at h
              cases h
    · rintro ⟨chunks, later, rfl, hadmitted, rfl⟩
      exact readText_end hadmitted later
  case tooMuch =>
    intro chunks chunk later hadmitted hbroken
    obtain ⟨b, -, hread⟩ := readText_delivered validatorName hadmitted
    have hpending := hread []
    rw [List.append_nil] at hpending
    exact ⟨hpending, readText_tooMuch hadmitted hbroken later⟩
  case streamError => exact fun chunks error later hadmitted => readText_rejected hadmitted none later
  case aborted =>
    intro chunks result reason later hadmitted
    cases result with
    | error error => exact readText_rejected hadmitted (some reason) later
    | ok result => exact readText_aborted hadmitted later
  case abortedAtOnce =>
    intro body reason reads hbody
    match body, hbody with
    | none, _ => rfl
    | some true, hlocked => exact absurd rfl hlocked
    | some false, _ =>
      show some (Except.error (reasonOr (abortReason reason) reason)) = _
      rw [reasonOr_abortReason]
  case kept =>
    intro chunks hadmitted
    obtain ⟨b, hfold, hholding⟩ := @Holding.append_all validatorName _ _ _
      (holding_initial maximumBytes) chunks hadmitted
    exact ⟨b, hfold, hholding.bytes, hholding.fits, hholding.capacity⟩

end Http
