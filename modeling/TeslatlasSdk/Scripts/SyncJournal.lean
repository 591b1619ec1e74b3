import TeslatlasSdk.Http.ExactInteger
import TeslatlasSdk.Json.Indented
import TeslatlasSdk.Scripts.SyncFiles

/-!
# The transaction journal

The journal's text, and the checks that recovery makes of a journal it reads.  A journal that has
been written is read as it was, with or without the line break at its end.
-/

open Text Json Http

namespace Scripts

inductive JournalState where
  | prepared
  | committed
  deriving DecidableEq, Repr

structure JournalEntry where
  path : ReplacementPath
  originallyPresent : Bool
  deriving DecidableEq, Repr

structure Journal where
  state : JournalState
  ownerPid : Pid
  stageRoot : JsString
  entries : List JournalEntry
  deriving DecidableEq, Repr

/-! ## Writing -/

inductive JournalScalar where
  | boolean (value : Bool)
  | natural (value : SafeNatural)
  | string (value : JsString)

def JournalScalar.text : JournalScalar → JsString
  | .boolean b => if b then js "true" else js "false"
  | .natural n => numberToString (.ofNat n.val)
  | .string s => stringify s

def JournalState.text : JournalState → JsString
  | .prepared => js "prepared"
  | .committed => js "committed"

/-- An entry with its keys in the order of `stableJson`. -/
def JournalEntry.record (entry : JournalEntry) : JsonTree JournalScalar :=
  .object [(js "originallyPresent", .leaf (.boolean entry.originallyPresent)),
    (js "path", .leaf (.string entry.path.text))]

def Journal.record (journal : Journal) : JsonTree JournalScalar :=
  .object [(js "entries", .array (journal.entries.map JournalEntry.record)),
    (js "ownerPid", .leaf (.natural journal.ownerPid)),
    (js "schemaVersion", .leaf (.natural ⟨1, by decide⟩)),
    (js "stageRoot", .leaf (.string journal.stageRoot)),
    (js "state", .leaf (.string journal.state.text))]

/-- `JSON.stringify(sortJson(journal), null, 2)`. -/
def Journal.json (journal : Journal) : JsString :=
  indentTree JournalScalar.text [0x0A] journal.record

/-- `stableJson(journal)`. -/
def stableJson (journal : Journal) : JsString := journal.json ++ [0x0A]

/-! ## Reading -/

/-- `dirname` of `node:path`. -/
def dirname (path : JsString) : JsString :=
  let parent := ((path.rdropWhile (· = 0x2F)).rdropWhile (· ≠ 0x2F)).dropLast
  if parent = [] then (if path.head? = some 0x2F then [0x2F] else [0x2E])
  else if parent = [0x2F] then [0x2F, 0x2F]
  else parent

def stagePrefix : JsString := js "teslatlas-protocol-sync-"

/-- `/^teslatlas-protocol-sync-[A-Za-z0-9]+$/u`. -/
def isStageName (name : JsString) : Bool :=
  stagePrefix.isPrefixOf name && name.length ≠ stagePrefix.length &&
    (name.drop stagePrefix.length).all isAlphanumeric

def isStageRoot (temporaryRoot : RealPath) (root : JsString) : Bool :=
  dirname root = temporaryRoot.text && isStageName (root.drop (temporaryRoot.text.length + 1))

/-- `join(temporaryRoot, "teslatlas-protocol-sync-")`. -/
def stagePath (temporaryRoot : RealPath) : JsString :=
  if temporaryRoot.components = [] then 0x2F :: stagePrefix
  else temporaryRoot.text ++ 0x2F :: stagePrefix

def journalState (text : JsString) : Option JournalState :=
  if text = js "prepared" then some .prepared
  else if text = js "committed" then some .committed
  else none

def safeNatural (x : Binary64) : Option SafeNatural :=
  match integer? x with
  | some (.ofNat n) => if h : 0 < n ∧ n ≤ 2 ^ 53 - 1 then some ⟨n, h⟩ else none
  | _ => none

def journalEntry (path : ReplacementPath) (entry : Value) : Option JournalEntry :=
  match entry.child (js "path"), entry.child (js "originallyPresent") with
  | some (.leaf (.string text)), some (.leaf (.boolean originallyPresent)) =>
      if text = path.text then some { path, originallyPresent } else none
  | _, _ => none

def journalEntries : List ReplacementPath → List Value → Option (List JournalEntry)
  | [], [] => some []
  | path :: paths, value :: values =>
      (journalEntry path value).bind fun entry => (journalEntries paths values).map (entry :: ·)
  | _, _ => none

/-- The checks of a parsed journal; a property of null, which throws, is refused as well. -/
def validJournal (temporaryRoot : RealPath) (value : Value) : Option Journal :=
  match value.child (js "schemaVersion"), value.child (js "state"), value.child (js "ownerPid"),
    value.child (js "stageRoot"), value.child (js "entries") with
  | some (.leaf (.number version)), some (.leaf (.string state)), some (.leaf (.number pid)),
    some (.leaf (.string stageRoot)), some (.array entries) =>
      if integer? version = some 1 && isStageRoot temporaryRoot stageRoot then
        (journalState state).bind fun state => (safeNatural pid).bind fun ownerPid =>
          (journalEntries replacementPaths entries).map fun entries =>
            { state, ownerPid, stageRoot, entries }
      else none
  | _, _, _, _, _ => none

/-- `JSON.parse(await readFile(journalPath, "utf8"))`. -/
def parseJournal (bytes : List UInt8) : Except SyncError Value :=
  match jsonParse (ofScalars (decodeUtf8 bytes)) with
  | some value => .ok value
  | none => .error .journalNotJson

def checkJournal (temporaryRoot : RealPath) (value : Value) : Except SyncError Journal :=
  match validJournal temporaryRoot value with
  | some journal => .ok journal
  | none => .error .journalInvalid

/-! ## A journal comes back -/

/-- The file holds the journal's text; the line break at its end may be missing. -/
def Holds (journal : Journal) (bytes : List UInt8) : Prop :=
  bytes = utf8Encode journal.json ∨ bytes = utf8Encode (stableJson journal)

def JournalScalar.scalar : JournalScalar → Scalar
  | .boolean b => .boolean b
  | .natural n => .number (numberToString (.ofNat n.val))
  | .string s => .string s

theorem finite_ofNat (n : SafeNatural) :
    (Binary64.ofNat n.val).isFinite = true ∧ (Binary64.ofNat n.val).isNormal = true := by
  obtain ⟨heq, hnormal, -⟩ := ofNat_eq n.2.1 (by have := n.2.2; omega)
  exact ⟨by rw [heq]; rfl, hnormal⟩

theorem lexes_scalar (x : JournalScalar) : Lexes x.text [.scalar x.scalar] := by
  cases x with
  | boolean b => exact Lexes.boolean b
  | natural n => exact Lexes.number (finite_ofNat n).1 (finite_ofNat n).2
  | string s => exact Lexes.string s

theorem toNat_lt_of_isNumberUnit {u : CodeUnit} (h : isNumberUnit u = true) :
    u.toNat < 0xD800 := by
  simp only [isNumberUnit, isDigit, isExponentMark, isSign, Bool.or_eq_true, Bool.and_eq_true,
    decide_eq_true_eq] at h
  rcases h with ((⟨-, hhi⟩ | rfl | rfl) | rfl) | rfl | rfl
  · exact Nat.lt_of_le_of_lt (UInt16.le_iff_toNat_le.mp hhi) (by decide)
  · decide
  · decide
  · decide
  · decide
  · decide

theorem isWellFormed_scalar (x : JournalScalar) : isWellFormed x.text = true := by
  cases x with
  | boolean b => cases b <;> rfl
  | natural n =>
    have hmatch := (numberToString_spec (finite_ofNat n).1 (finite_ofNat n).2).2 [] EndsNumber.nil
    obtain ⟨-, -, hunits⟩ := matchNumber_spec hmatch
    exact isWellFormed_of_lt fun u hu => toNat_lt_of_isNumberUnit (hunits u hu)
  | string s => exact isWellFormed_stringify s

theorem isMargin_lineBreak : IsMargin [0x0A] := by
  intro u hu
  rw [List.mem_singleton.mp hu]
  rfl

theorem isWellFormed_json (journal : Journal) : isWellFormed journal.json = true :=
  isWellFormed_indentTree isWellFormed_scalar _ _ isMargin_lineBreak

/-- What parsing makes of a record. -/
def parsed (t : JsonTree JournalScalar) : Value :=
  (t.map JournalScalar.scalar).settle.map Scalar.toPrimitive

theorem child_parsed (t : JsonTree JournalScalar) (key : JsString) :
    (parsed t).child key = (t.child key).map parsed := by
  rw [parsed, JsonTree.child_map, JsonTree.child_settle, JsonTree.child_map, Option.map_map,
    Option.map_map]
  rfl

theorem parsed_array (items : List (JsonTree JournalScalar)) :
    parsed (.array items) = .array (items.map parsed) := by
  rw [parsed, JsonTree.map, JsonTree.settle, JsonTree.map, JsonTree.mapItems_eq,
    JsonTree.settleItems_eq, JsonTree.mapItems_eq, List.map_map, List.map_map]
  rfl

theorem jsonParse_of_lexes {text : JsString} {t : JsonTree JournalScalar}
    (h : Lexes text (treeTokens (t.map JournalScalar.scalar))) :
    jsonParse text = some (parsed t) := by
  rw [jsonParse, parse_of_lexes h]
  rfl

theorem parseJournal_of_holds {journal : Journal} {bytes : List UInt8} (h : Holds journal bytes) :
    parseJournal bytes = .ok (parsed journal.record) := by
  have hlexes : Lexes journal.json (treeTokens (journal.record.map JournalScalar.scalar)) :=
    lexes_indentTree lexes_scalar _ _ isMargin_lineBreak
  have hjson := isWellFormed_json journal
  rcases h with rfl | rfl
  · rw [parseJournal, decodeUtf8_of_wellFormed hjson, jsonParse_of_lexes hlexes]
  · have hstable : Lexes (stableJson journal)
        (treeTokens (journal.record.map JournalScalar.scalar)) := by
      have happend := hlexes.append (EndsNumber.cons (u := 0x0A) rfl [])
        (Lexes.whiteSpace (u := 0x0A) rfl Lexes.nil)
      rw [List.append_nil] at happend
      exact happend
    have hwell : isWellFormed (stableJson journal) = true := isWellFormed_append hjson rfl
    rw [parseJournal, decodeUtf8_of_wellFormed hwell, jsonParse_of_lexes hstable]

theorem integer?_ofNat (n : SafeNatural) : integer? (Binary64.ofNat n.val) = some n.val := by
  obtain ⟨heq, -, hlog⟩ := ofNat_eq n.2.1 (by have := n.2.2; omega)
  have hneg : (-((n.val.log2 : Int) - 52)).toNat = 52 - n.val.log2 := by omega
  have hpos : ((n.val.log2 : Int) - 52).toNat = 0 := by omega
  have hquotient : ((n.val * 2 ^ (52 - n.val.log2) : Nat) : Int) * 2 ^ 0 /
      2 ^ (52 - n.val.log2) = n.val := by
    rw [pow_zero, mul_one, Nat.cast_mul, Nat.cast_pow]
    exact Int.mul_ediv_cancel _ (by positivity)
  rw [heq, integer?, hneg, if_pos (Nat.mul_mod_left _ _), hpos]
  simp only [hquotient]
  rfl

theorem numberOfToken_natural (n : SafeNatural) :
    numberOfToken (numberToString (.ofNat n.val)) = .ofNat n.val := by
  rw [(numberToString_spec (finite_ofNat n).1 (finite_ofNat n).2).1,
    (ofNat_eq n.2.1 (by have := n.2.2; omega)).1]
  rfl

theorem parsed_natural (n : SafeNatural) :
    parsed (.leaf (.natural n)) = .leaf (.number (.ofNat n.val)) := by
  show JsonTree.leaf (Primitive.number (numberOfToken (numberToString (.ofNat n.val)))) = _
  rw [numberOfToken_natural]

theorem safeNatural_ofNat (n : SafeNatural) : safeNatural (.ofNat n.val) = some n := by
  rw [safeNatural, integer?_ofNat]
  exact dif_pos n.2

theorem journalEntry_record (entry : JournalEntry) :
    journalEntry entry.path (parsed entry.record) = some entry := by
  rw [journalEntry, child_parsed, child_parsed]
  show (if entry.path.text = entry.path.text then _ else _) = _
  rw [if_pos rfl]

theorem journalEntries_records (entries : List JournalEntry) :
    journalEntries (entries.map (·.path)) ((entries.map JournalEntry.record).map parsed) =
      some entries := by
  induction entries with
  | nil => rfl
  | cons entry entries ih =>
    rw [List.map_cons, List.map_cons, List.map_cons, journalEntries, journalEntry_record,
      Option.bind_some, ih, Option.map_some]

theorem journalState_text (state : JournalState) : journalState state.text = some state := by
  cases state <;> rfl

theorem validJournal_record {journal : Journal} (temporaryRoot : RealPath)
    (hentries : journal.entries.map (·.path) = replacementPaths) :
    validJournal temporaryRoot (parsed journal.record) =
      if isStageRoot temporaryRoot journal.stageRoot then some journal else none := by
  have hone : integer? (Binary64.ofNat 1) = some 1 := integer?_ofNat ⟨1, by decide⟩
  have hversion : (parsed journal.record).child (js "schemaVersion") =
      some (.leaf (.number (.ofNat 1))) := by
    rw [child_parsed, ← parsed_natural ⟨1, by decide⟩]
    rfl
  have hpid : (parsed journal.record).child (js "ownerPid") =
      some (.leaf (.number (.ofNat journal.ownerPid.val))) := by
    rw [child_parsed, ← parsed_natural journal.ownerPid]
    rfl
  have hstate : (parsed journal.record).child (js "state") =
      some (.leaf (.string journal.state.text)) := by
    rw [child_parsed]
    rfl
  have hroot : (parsed journal.record).child (js "stageRoot") =
      some (.leaf (.string journal.stageRoot)) := by
    rw [child_parsed]
    rfl
  have harray : (parsed journal.record).child (js "entries") =
      some (.array ((journal.entries.map JournalEntry.record).map parsed)) := by
    rw [child_parsed, ← parsed_array]
    rfl
  rw [validJournal, hversion, hstate, hpid, hroot, harray]
  simp only [hone, decide_true, Bool.true_and, journalState_text, safeNatural_ofNat,
    Option.bind_some]
  rw [← hentries, journalEntries_records]
  rfl

-- A written journal passes the checks of a process with the same temporary directory.
theorem checkJournal_record {journal : Journal} (temporaryRoot : RealPath)
    (hentries : journal.entries.map (·.path) = replacementPaths) :
    checkJournal temporaryRoot (parsed journal.record) =
      if isStageRoot temporaryRoot journal.stageRoot then .ok journal
      else .error .journalInvalid := by
  rw [checkJournal, validJournal_record temporaryRoot hentries]
  by_cases hroot : isStageRoot temporaryRoot journal.stageRoot = true
  · rw [if_pos hroot, if_pos hroot]
  · rw [if_neg hroot, if_neg hroot]

/-! ## Staging directories are recognised -/

theorem RealPath.text_ne_root {path : RealPath} (h : path.components ≠ []) :
    path.text ≠ [] ∧ path.text ≠ [0x2F] := by
  obtain ⟨name, names, hnames⟩ := List.exists_cons_of_ne_nil h
  have hname : name ≠ [] := (path.proper name (hnames ▸ List.mem_cons_self)).1
  obtain ⟨u, s, hs⟩ := List.exists_cons_of_ne_nil hname
  rw [RealPath.text, if_neg h, hnames, List.flatMap_cons, hs]
  exact ⟨by simp, by simp⟩

theorem dirname_append {directory name : JsString} (hdirectory : directory ≠ [])
    (hroot : directory ≠ [0x2F]) (hname : name ≠ []) (hslash : 0x2F ∉ name) :
    dirname (directory ++ 0x2F :: name) = directory := by
  have hlast : (directory ++ 0x2F :: name).rdropWhile (· = 0x2F) = directory ++ 0x2F :: name := by
    rw [List.rdropWhile_eq_self_iff]
    intro hne hslash'
    rw [decide_eq_true_eq, List.getLast_append_of_ne_nil _ (by simp),
      List.getLast_cons hname] at hslash'
    exact hslash (hslash' ▸ List.getLast_mem hname)
  have hparent : (directory ++ 0x2F :: name).rdropWhile (· ≠ 0x2F) = directory ++ [0x2F] := by
    have hall : name.reverse.dropWhile (fun u => decide (u ≠ 0x2F)) = [] := by
      rw [List.dropWhile_eq_nil_iff]
      intro u hu
      rw [decide_eq_true_eq]
      rintro rfl
      exact hslash (List.mem_reverse.mp hu)
    rw [List.rdropWhile, List.reverse_append, List.reverse_cons, List.append_assoc,
      List.dropWhile_append, hall]
    simp
  rw [dirname, hlast, hparent, List.dropLast_concat]
  simp only [if_neg hdirectory, if_neg hroot]

theorem isStageRoot_stagePath {temporaryRoot : RealPath} (h : temporaryRoot.components ≠ [])
    (suffix : RandomSuffix) : isStageRoot temporaryRoot (stagePath temporaryRoot ++ suffix.val) = true := by
  obtain ⟨hnil, hroot⟩ := RealPath.text_ne_root h
  have hpath : stagePath temporaryRoot ++ suffix.val =
      temporaryRoot.text ++ 0x2F :: (stagePrefix ++ suffix.val) := by
    rw [stagePath, if_neg h, List.append_assoc, List.cons_append]
  have hslash : (0x2F : CodeUnit) ∉ stagePrefix ++ suffix.val := by
    rw [List.mem_append, not_or]
    refine ⟨by decide, fun hmem => ?_⟩
    have halpha := List.all_eq_true.mp suffix.2.2 _ hmem
    exact absurd halpha (by decide)
  have hname : (temporaryRoot.text ++ 0x2F :: (stagePrefix ++ suffix.val)).drop
      (temporaryRoot.text.length + 1) = stagePrefix ++ suffix.val := by
    rw [← List.drop_drop, List.drop_left]
    rfl
  have hlength : 0 < suffix.val.length := List.length_pos_iff.mpr suffix.2.1
  rw [isStageRoot, hpath, dirname_append hnil hroot (by simp [suffix.2.1]) hslash, hname,
    isStageName, List.drop_left, suffix.2.2]
  simp only [decide_true, Bool.true_and, Bool.and_true, Bool.and_eq_true, decide_eq_true_eq,
    List.length_append]
  exact ⟨List.isPrefixOf_iff_prefix.mpr (List.prefix_append _ _), by omega⟩

end Scripts
