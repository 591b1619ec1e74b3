import TeslatlasSdk.Scripts.SourceExport

/-!
# What the catalogue holds

The walk sorts what a directory lists, so its order of listing does not show.  The catalogue is the
list of the tree's files outside the names that are left out: those of a directory in the order of
their names, and then those below it.
-/

open Text Core Json

namespace Scripts

/-! ## Trees and their files -/

/-- No directory has two children of one name. -/
inductive SourceNode.Distinct : SourceNode → Prop
  | file (mode : Nat) (bytes : List UInt8) : Distinct (.file mode bytes)
  | symbolicLink : Distinct .symbolicLink
  | special : Distinct .special
  | directory (mode : Nat) (children : List (JsString × SourceNode))
      (hnames : (children.map Prod.fst).Nodup) (h : ∀ child ∈ children, Distinct child.2) :
      Distinct (.directory mode children)

structure SourceTree where
  node : SourceNode
  distinct : node.Distinct

/-- A file and the names on the way to it. -/
structure SourceFile where
  names : List JsString
  mode : Nat
  bytes : List UInt8
  deriving DecidableEq, Repr

def SourceFile.under (name : JsString) (file : SourceFile) : SourceFile :=
  { file with names := name :: file.names }

inductive SourceNode.Holds : SourceNode → SourceFile → Prop
  | child {mode : Nat} {children : List (JsString × SourceNode)} {name : JsString}
      {fileMode : Nat} {bytes : List UInt8} (h : (name, .file fileMode bytes) ∈ children) :
      Holds (.directory mode children) ⟨[name], fileMode, bytes⟩
  | inside {mode : Nat} {children : List (JsString × SourceNode)} {name : JsString}
      {node : SourceNode} {file : SourceFile} (h : (name, node) ∈ children)
      (hfile : Holds node file) : Holds (.directory mode children) (file.under name)

/-- The files of a directory come before what is below it, each in the order of code points. -/
def ComesBefore : List JsString → List JsString → Prop
  | [first], [second] => characterPoints first < characterPoints second
  | [_], _ :: _ :: _ => True
  | _ :: _ :: _, [_] => False
  | first :: names, second :: others =>
      characterPoints first < characterPoints second ∨ first = second ∧ ComesBefore names others
  | _, _ => False

/-- A file is catalogued unless a name on the way to it is left out. -/
def SourceFile.Catalogued (file : SourceFile) : Prop :=
  ∀ name ∈ file.names, name ∉ hubSourceExcludedNames

theorem SourceNode.induction {motive : SourceNode → Prop}
    (file : ∀ mode bytes, motive (.file mode bytes)) (symbolicLink : motive .symbolicLink)
    (special : motive .special)
    (directory : ∀ mode children, (∀ child ∈ children, motive child.2) →
      motive (.directory mode children)) (node : SourceNode) : motive node := by
  refine @SourceNode.rec motive (fun children => ∀ child ∈ children, motive child.2)
    (fun child => motive child.2) file (fun mode children ih => directory mode children ih)
    symbolicLink special ?_ ?_ ?_ node
  · intro child hchild
    cases hchild
  · intro child children hchild hchildren other hother
    rcases List.mem_cons.mp hother with rfl | hother
    · exact hchild
    · exact hchildren other hother
  · exact fun name node hnode => hnode

/-! ## The order -/

theorem comesBefore_below {first second : JsString} {names others : List JsString}
    (hnames : names ≠ []) (hothers : others ≠ []) :
    ComesBefore (first :: names) (second :: others) ↔
      characterPoints first < characterPoints second ∨
        first = second ∧ ComesBefore names others := by
  obtain ⟨n, ns, rfl⟩ := List.exists_cons_of_ne_nil hnames
  obtain ⟨o, os, rfl⟩ := List.exists_cons_of_ne_nil hothers
  rw [ComesBefore]
  · simp
  · simp
  · simp

theorem comesBefore_file {first second : JsString} {others : List JsString} (hothers : others ≠ []) :
    ComesBefore [first] (second :: others) := by
  obtain ⟨o, os, rfl⟩ := List.exists_cons_of_ne_nil hothers
  trivial

/-! ## Sorting -/

section Sorting

variable {α β : Type} {name : α → JsString}

theorem sortByName_perm (name : α → JsString) (xs : List α) : (sortByName name xs).Perm xs :=
  List.perm_insertionSort _ xs

theorem sortByName_map (name : β → JsString) (f : α → β) (xs : List α) :
    sortByName name (xs.map f) = (sortByName (fun x => name (f x)) xs).map f :=
  (List.map_insertionSort _ _ f xs fun _ _ _ _ => Iff.rfl).symm

theorem sortByName_pairwise {xs : List α} (h : (xs.map name).Nodup) :
    (sortByName name xs).Pairwise fun x y =>
      characterPoints (name x) < characterPoints (name y) := by
  have hle : (sortByName name xs).Pairwise fun x y =>
      characterPoints (name x) ≤ characterPoints (name y) := by
    have htotal : Std.Total fun x y => comparePythonStrings (name x) (name y) ≤ 0 := by
      refine ⟨fun x y => ?_⟩
      rw [comparePythonStrings_le, comparePythonStrings_le]
      exact le_total _ _
    have htrans : IsTrans α fun x y => comparePythonStrings (name x) (name y) ≤ 0 := by
      refine ⟨fun x y z hxy hyz => ?_⟩
      rw [comparePythonStrings_le] at hxy hyz ⊢
      exact le_trans hxy hyz
    exact (List.pairwise_insertionSort (fun x y => comparePythonStrings (name x) (name y) ≤ 0)
      xs).imp comparePythonStrings_le.mp
  have hne : ((sortByName name xs).map name).Pairwise (· ≠ ·) :=
    ((sortByName_perm name xs).map name).nodup_iff.mpr h
  rw [List.pairwise_map] at hne
  refine (hle.and hne).imp fun hxy => ?_
  by_contra hlt
  exact hxy.2 (characterPoints_injective (le_antisymm hxy.1 (not_lt.mp hlt)))

-- Distinct names are sorted in one way.
theorem sortByName_congr {xs ys : List α} (h : (xs.map name).Nodup) (hperm : xs.Perm ys) :
    sortByName name xs = sortByName name ys := by
  have h' : (ys.map name).Nodup := (hperm.map name).nodup_iff.mp h
  refine @List.Perm.eq_of_pairwise _ (fun x y => characterPoints (name x) <
    characterPoints (name y)) _ _ ?_ (sortByName_pairwise h) (sortByName_pairwise h')
    ((sortByName_perm name xs).trans (hperm.trans (sortByName_perm name ys).symm))
  intro x y _ _ hlt hgt
  exact absurd hgt (lt_asymm hlt)

end Sorting

/-! ## The order of listing -/

theorem visitChildren_eq (readdir : Readdir) (sha256 : List UInt8 → JsString)
    (children : List (JsString × SourceNode)) :
    visitChildren readdir sha256 children =
      children.map fun child => (⟨child.1, child.2.kind⟩, visitChild readdir sha256 child.2) := by
  induction children with
  | nil => rfl
  | cons child children ih => rw [visitChildren, ih, List.map_cons]

section Listing

variable {readdir readdir' : Readdir} {sha256 : List UInt8 → JsString}

theorem sortByName_list {α : Type} {children : List (Dirent × α)}
    (h : (children.map (·.1.name)).Nodup) (directory : JsString) (again : Bool) :
    sortByName (·.1.name) (readdir.list directory again children) =
      sortByName (·.1.name) children :=
  (sortByName_congr h (readdir.perm directory again children).symm).symm

variable (readdir readdir') in
theorem inspectSourceDirectory_list {α : Type} {children : List (Dirent × α)}
    (h : (children.map (·.1.name)).Nodup) (again : Bool) (directory : JsString) (mode : Nat) :
    inspectSourceDirectory readdir again directory mode children =
      inspectSourceDirectory readdir' again directory mode children := by
  rw [inspectSourceDirectory, inspectSourceDirectory, sortByName_list h, sortByName_list h]

variable (readdir readdir') in
theorem walkDirectory_list {children : List (Dirent × Visit)}
    (h : (children.map (·.1.name)).Nodup) (mode : Nat) :
    walkDirectory readdir mode children = walkDirectory readdir' mode children := by
  funext directory names catalogEnabled s
  rw [walkDirectory, inspectSourceDirectory_list readdir readdir' h, walkDirectory]
  unfold assertSourceDirectoryStable
  rw [inspectSourceDirectory_list readdir readdir' h true]

theorem visitChildren_names (children : List (JsString × SourceNode)) :
    (visitChildren readdir sha256 children).map (·.1.name) = children.map Prod.fst := by
  rw [visitChildren_eq, List.map_map]
  rfl

theorem walkDirectory_children {children : List (JsString × SourceNode)}
    (hnames : (children.map Prod.fst).Nodup)
    (h : ∀ child ∈ children, visitChild readdir sha256 child.2 = visitChild readdir' sha256 child.2)
    (mode : Nat) :
    walkDirectory readdir mode (visitChildren readdir sha256 children) =
      walkDirectory readdir' mode (visitChildren readdir' sha256 children) := by
  have hvisits : visitChildren readdir sha256 children =
      visitChildren readdir' sha256 children := by
    rw [visitChildren_eq, visitChildren_eq]
    exact List.map_congr_left fun child hchild => by rw [h child hchild]
  have hnodup : ((visitChildren readdir' sha256 children).map (·.1.name)).Nodup := by
    rw [visitChildren_names]
    exact hnames
  rw [hvisits, walkDirectory_list readdir readdir' hnodup]

theorem visitChild_list {node : SourceNode} (h : node.Distinct) :
    visitChild readdir sha256 node = visitChild readdir' sha256 node := by
  induction node using SourceNode.induction with
  | file mode bytes => rfl
  | symbolicLink => rfl
  | special => rfl
  | directory mode children ih =>
    cases h with
    | directory _ _ hnames hchildren =>
      rw [visitChild, walkDirectory_children hnames
        (fun child hchild => ih child hchild (hchildren child hchild)), visitChild]

-- The order in which directories list their children makes no difference.
theorem walkSource_list (tree : SourceTree) (directory : JsString) (names : List JsString)
    (catalogEnabled : Bool) (s : WalkState) :
    walkSource readdir sha256 directory names catalogEnabled s tree.node =
      walkSource readdir' sha256 directory names catalogEnabled s tree.node := by
  obtain ⟨node, hdistinct⟩ := tree
  cases hdistinct with
  | file | symbolicLink | special => rfl
  | directory mode children hnames hchildren =>
    rw [walkSource, walkDirectory_children hnames
      (fun child hchild => visitChild_list (hchildren child hchild)), walkSource]

end Listing

/-! ## The catalogue's files -/

/-- What a child adds: itself, or the files below it. -/
def childFiles (name : JsString) (node : SourceNode) (below : List SourceFile) :
    List SourceFile × List SourceFile :=
  if hubSourceExcludedNames.contains name then ([], [])
  else
    match node with
    | .file mode bytes => ([⟨[name], mode, bytes⟩], [])
    | .directory _ _ => ([], below.map (SourceFile.under name))
    | _ => ([], [])

mutual

/-- The files that are catalogued, in the order of the catalogue. -/
def catalogueFiles : SourceNode → List SourceFile
  | .directory _ children =>
      let parts := sortByName Prod.fst (childrenFiles children)
      parts.flatMap (·.2.1) ++ parts.flatMap (·.2.2)
  | _ => []

def childrenFiles :
    List (JsString × SourceNode) → List (JsString × (List SourceFile × List SourceFile))
  | [] => []
  | (name, node) :: children =>
      (name, childFiles name node (catalogueFiles node)) :: childrenFiles children

end

/-- The files of a child on its own. -/
def filesOf (child : JsString × SourceNode) : List SourceFile × List SourceFile :=
  childFiles child.1 child.2 (catalogueFiles child.2)

theorem childrenFiles_eq (children : List (JsString × SourceNode)) :
    childrenFiles children = children.map fun child => (child.1, filesOf child) := by
  induction children with
  | nil => rfl
  | cons child children ih => rw [childrenFiles, ih, List.map_cons, filesOf]

theorem catalogueFiles_directory (mode : Nat) (children : List (JsString × SourceNode)) :
    catalogueFiles (.directory mode children) =
      (sortByName Prod.fst children).flatMap (fun child => (filesOf child).1) ++
        (sortByName Prod.fst children).flatMap fun child => (filesOf child).2 := by
  rw [catalogueFiles, childrenFiles_eq, sortByName_map]
  simp only [List.flatMap_map]

/-! ## What the walk finds -/

section Run

variable (readdir : Readdir) (sha256 : List UInt8 → JsString)

/-- The catalogue's entry of a file below the names. -/
def entryAt (names : List JsString) (file : SourceFile) : CatalogEntry :=
  catalogEntry sha256 (relativePath (names ++ file.names)) (file.mode &&& 0o7777) file.bytes

/-- What a visit finds when it is not stopped. -/
def foundAt (names : List JsString) (name : JsString) (catalogEnabled : Bool) (node : SourceNode) :
    Found :=
  if catalogEnabled && !hubSourceExcludedNames.contains name then
    match node with
    | .file mode bytes => .file (catalogEntry sha256 (relativePath names) (mode &&& 0o7777) bytes)
    | _ => .subtree ((catalogueFiles node).map (entryAt sha256 names))
  else .nothing

def VisitSpec (node : SourceNode) : Prop :=
  ∀ path names name catalogEnabled s result,
    visitChild readdir sha256 node path names name catalogEnabled s = .ok result →
      result.1 = foundAt sha256 names name catalogEnabled node

theorem visitFile_spec (mode : Nat) (bytes : List UInt8) :
    VisitSpec readdir sha256 (.file mode bytes) := by
  intro path names name catalogEnabled s result h
  rw [visitChild, visitFile, rejectIf_bind_eq_ok] at h
  obtain ⟨-, h⟩ := h
  rw [readStableSourceFile, bind_eq_ok] at h
  obtain ⟨⟨bytes', mode'⟩, hread, h⟩ := h
  rw [rejectIf_bind_eq_ok] at hread
  obtain ⟨-, hread⟩ := hread
  obtain ⟨rfl, rfl⟩ := Prod.mk.inj (Except.ok.inj hread)
  simp only at h
  rw [foundAt]
  split at h
  · next henabled =>
    rw [rejectIf_bind_eq_ok] at h
    rw [if_pos henabled, ← Except.ok.inj h.2]
  · next henabled =>
    rw [if_neg henabled, ← Except.ok.inj h]

/-- The entry that goes before the subtrees. -/
def Found.files : Found → List CatalogEntry
  | .file entry => [entry]
  | .subtree _ => []
  | .nothing => []

/-- The entries that go behind the files. -/
def Found.below : Found → List CatalogEntry
  | .file _ => []
  | .subtree entries => entries
  | .nothing => []

/-- A child and its visit. -/
def childVisit (child : JsString × SourceNode) : Dirent × Visit :=
  (⟨child.1, child.2.kind⟩, visitChild readdir sha256 child.2)

-- The loop puts the files of the children before their subtrees.
theorem visitAll_spec {directory : JsString} {names : List JsString} {catalogEnabled : Bool}
    {children : List (JsString × SourceNode)}
    (hspec : ∀ child ∈ children, VisitSpec readdir sha256 child.2)
    {files : List CatalogEntry} {directories : List (List CatalogEntry)} {s : WalkState}
    {result : List CatalogEntry × WalkState}
    (h : visitAll directory names catalogEnabled files directories s
      (children.map (childVisit readdir sha256)) = .ok result) :
    result.1 = (files ++ children.flatMap fun child =>
        (foundAt sha256 (names ++ [child.1]) child.1 catalogEnabled child.2).files) ++
      (directories.flatten ++ children.flatMap fun child =>
        (foundAt sha256 (names ++ [child.1]) child.1 catalogEnabled child.2).below) := by
  induction children generalizing files directories s with
  | nil =>
    rw [List.map_nil, visitAll] at h
    rw [← Except.ok.inj h, List.flatMap_nil, List.flatMap_nil, List.append_nil, List.append_nil]
  | cons child children ih =>
    have hrest := fun c hc => hspec c (List.mem_cons_of_mem child hc)
    rw [List.map_cons, childVisit, visitAll, rejectIf_bind_eq_ok, bind_eq_ok] at h
    obtain ⟨-, ⟨found, s'⟩, hvisit, h⟩ := h
    have hfound := hspec child List.mem_cons_self _ _ _ _ _ _ hvisit
    simp only at hfound
    rw [List.flatMap_cons, List.flatMap_cons, ← hfound]
    cases found with
    | file entry =>
      rw [ih hrest h, Found.files, Found.below, List.nil_append]
      simp only [List.append_assoc]
    | subtree entries =>
      rw [ih hrest h, Found.files, Found.below, List.nil_append, List.flatten_append,
        List.flatten_singleton, List.append_assoc directories.flatten]
    | nothing => rw [ih hrest h, Found.files, Found.below, List.nil_append, List.nil_append]

theorem entryAt_under (names : List JsString) (name : JsString) (file : SourceFile) :
    entryAt sha256 names (file.under name) = entryAt sha256 (names ++ [name]) file := by
  rw [entryAt, entryAt, SourceFile.under, List.append_assoc]
  rfl

theorem foundAt_files (names : List JsString) (child : JsString × SourceNode) :
    (foundAt sha256 (names ++ [child.1]) child.1 true child.2).files =
        (filesOf child).1.map (entryAt sha256 names) ∧
      (foundAt sha256 (names ++ [child.1]) child.1 true child.2).below =
        (filesOf child).2.map (entryAt sha256 names) := by
  obtain ⟨name, node⟩ := child
  have hunder : entryAt sha256 names ∘ SourceFile.under name = entryAt sha256 (names ++ [name]) :=
    funext fun file => entryAt_under sha256 names name file
  unfold foundAt filesOf childFiles
  cases hexcluded : hubSourceExcludedNames.contains name with
  | true => exact ⟨rfl, rfl⟩
  | false =>
    simp only [Bool.not_false, Bool.true_and, if_true, Bool.false_eq_true, if_false]
    cases node with
    | file mode bytes => exact ⟨rfl, rfl⟩
    | directory mode children =>
      refine ⟨rfl, ?_⟩
      rw [List.map_map, hunder]
      rfl
    | symbolicLink => exact ⟨rfl, rfl⟩
    | special => exact ⟨rfl, rfl⟩

theorem foundAt_disabled (names : List JsString) (name : JsString) (node : SourceNode) :
    foundAt sha256 names name false node = .nothing := by
  unfold foundAt
  rw [Bool.false_and, if_neg Bool.false_ne_true]

theorem inspectSourceDirectory_ok {children : List (JsString × SourceNode)}
    (hnames : (children.map Prod.fst).Nodup) {again : Bool} {directory : JsString} {mode : Nat}
    {before : List (Dirent × Visit)}
    (h : inspectSourceDirectory readdir again directory mode
      (visitChildren readdir sha256 children) = .ok before) :
    before = (sortByName Prod.fst children).map (childVisit readdir sha256) := by
  have hnodup : ((visitChildren readdir sha256 children).map (·.1.name)).Nodup := by
    rw [visitChildren_names]
    exact hnames
  rw [inspectSourceDirectory, rejectIf_bind_eq_ok, sortByName_list hnodup, visitChildren_eq,
    sortByName_map] at h
  exact (Except.ok.inj h.2).symm

theorem walkDirectory_spec {mode : Nat} {children : List (JsString × SourceNode)}
    (hnames : (children.map Prod.fst).Nodup)
    (hspec : ∀ child ∈ children, VisitSpec readdir sha256 child.2) {directory : JsString}
    {names : List JsString} {catalogEnabled : Bool} {s : WalkState}
    {result : List CatalogEntry × WalkState}
    (h : walkDirectory readdir mode (visitChildren readdir sha256 children) directory names
      catalogEnabled s = .ok result) :
    result.1 = if catalogEnabled then
      (catalogueFiles (.directory mode children)).map (entryAt sha256 names) else [] := by
  rw [walkDirectory, bind_eq_ok] at h
  obtain ⟨before, hbefore, h⟩ := h
  rw [bind_eq_ok] at h
  obtain ⟨walked, hwalked, h⟩ := h
  rw [bind_eq_ok] at h
  obtain ⟨-, -, h⟩ := h
  obtain rfl := Except.ok.inj h
  rw [inspectSourceDirectory_ok readdir sha256 hnames hbefore] at hwalked
  have hsorted : ∀ child ∈ sortByName Prod.fst children, VisitSpec readdir sha256 child.2 :=
    fun child hchild => hspec child ((sortByName_perm Prod.fst children).mem_iff.mp hchild)
  rw [visitAll_spec readdir sha256 hsorted hwalked, List.nil_append, List.flatten_nil,
    List.nil_append]
  cases catalogEnabled with
  | false =>
    simp only [foundAt_disabled, Found.files, Found.below]
    simp
  | true =>
    simp only [foundAt_files, if_true]
    rw [catalogueFiles_directory, List.map_append, List.map_flatMap, List.map_flatMap]

theorem visitChild_spec {node : SourceNode} (h : node.Distinct) :
    VisitSpec readdir sha256 node := by
  induction node using SourceNode.induction with
  | file mode bytes => exact visitFile_spec readdir sha256 mode bytes
  | symbolicLink =>
    intro path names name catalogEnabled s result hvisit
    cases hvisit
  | special =>
    intro path names name catalogEnabled s result hvisit
    cases hvisit
  | directory mode children ih =>
    cases h with
    | directory _ _ hnames hchildren =>
      intro path names name catalogEnabled s result hvisit
      rw [visitChild, rejectIf_bind_eq_ok, bind_eq_ok] at hvisit
      obtain ⟨-, ⟨subtree, s'⟩, hwalk, hvisit⟩ := hvisit
      have hsubtree := walkDirectory_spec readdir sha256 hnames
        (fun child hchild => ih child hchild (hchildren child hchild)) hwalk
      simp only at hsubtree hvisit
      rw [← Except.ok.inj hvisit, hsubtree]
      unfold foundAt
      split
      · rfl
      · rfl

-- An accepted walk returns the entries of the catalogue's files.
theorem walkSource_spec (tree : SourceTree) {directory : JsString} {names : List JsString}
    {s : WalkState} {result : List CatalogEntry × WalkState}
    (h : walkSource readdir sha256 directory names true s tree.node = .ok result) :
    result.1 = (catalogueFiles tree.node).map (entryAt sha256 names) := by
  obtain ⟨node, hdistinct⟩ := tree
  cases hdistinct with
  | file | symbolicLink | special => cases h
  | directory mode children hnames hchildren =>
    exact walkDirectory_spec readdir sha256 hnames
      (fun child hchild => visitChild_spec readdir sha256 (hchildren child hchild)) h

end Run

/-! ## Which files, and in what order -/

theorem mem_filesOf {child : JsString × SourceNode} {file : SourceFile} :
    file ∈ (filesOf child).1 ∨ file ∈ (filesOf child).2 ↔
      child.1 ∉ hubSourceExcludedNames ∧
        ((∃ mode bytes, child.2 = .file mode bytes ∧ file = ⟨[child.1], mode, bytes⟩) ∨
          ∃ below ∈ catalogueFiles child.2, file = below.under child.1) := by
  obtain ⟨name, node⟩ := child
  unfold filesOf childFiles
  cases hexcluded : hubSourceExcludedNames.contains name with
  | true =>
    have hmem : name ∈ hubSourceExcludedNames := List.contains_iff_mem.mp hexcluded
    simp [hmem]
  | false =>
    have hmem : name ∉ hubSourceExcludedNames := fun hmem => by
      rw [List.contains_iff_mem.mpr hmem] at hexcluded
      cases hexcluded
    rw [if_neg Bool.false_ne_true]
    cases node with
    | file mode bytes => simp [hmem, catalogueFiles]
    | directory mode children => simp [hmem, eq_comm]
    | symbolicLink => simp [catalogueFiles]
    | special => simp [catalogueFiles]

theorem mem_catalogueFiles {node : SourceNode} {file : SourceFile} :
    file ∈ catalogueFiles node ↔ node.Holds file ∧ file.Catalogued := by
  induction node using SourceNode.induction generalizing file with
  | file mode bytes => exact iff_of_false (by simp [catalogueFiles]) (fun h => nomatch h.1)
  | symbolicLink => exact iff_of_false (by simp [catalogueFiles]) (fun h => nomatch h.1)
  | special => exact iff_of_false (by simp [catalogueFiles]) (fun h => nomatch h.1)
  | directory mode children ih =>
    have hsorted : ∀ child, child ∈ sortByName Prod.fst children ↔ child ∈ children := fun child =>
      (sortByName_perm Prod.fst children).mem_iff
    have hchild : file ∈ catalogueFiles (.directory mode children) ↔
        ∃ child ∈ children, file ∈ (filesOf child).1 ∨ file ∈ (filesOf child).2 := by
      rw [catalogueFiles_directory, List.mem_append, List.mem_flatMap, List.mem_flatMap]
      simp only [hsorted]
      constructor
      · rintro (⟨child, hmem, hfile⟩ | ⟨child, hmem, hfile⟩)
        · exact ⟨child, hmem, .inl hfile⟩
        · exact ⟨child, hmem, .inr hfile⟩
      · rintro ⟨child, hmem, hfile | hfile⟩
        · exact .inl ⟨child, hmem, hfile⟩
        · exact .inr ⟨child, hmem, hfile⟩
    rw [hchild]
    constructor
    · rintro ⟨⟨name, node⟩, hmem, hfile⟩
      obtain ⟨hname, hfile⟩ := mem_filesOf.mp hfile
      rcases hfile with ⟨fileMode, bytes, hnode, rfl⟩ | ⟨below, hbelow, rfl⟩
      · simp only at hnode hname
        refine ⟨.child (hnode ▸ hmem), fun n hn => ?_⟩
        rw [List.mem_singleton.mp hn]
        exact hname
      · obtain ⟨hholds, hcatalogued⟩ := (ih (name, node) hmem).mp hbelow
        refine ⟨.inside hmem hholds, fun n hn => ?_⟩
        rcases List.mem_cons.mp hn with rfl | hn
        · exact hname
        · exact hcatalogued n hn
    · rintro ⟨hholds, hcatalogued⟩
      cases hholds with
      | @child _ _ name fileMode bytes hmem =>
        refine ⟨(name, .file fileMode bytes), hmem, mem_filesOf.mpr ⟨?_, .inl ⟨fileMode, bytes, rfl, rfl⟩⟩⟩
        exact hcatalogued name List.mem_cons_self
      | @inside _ _ name node below hmem hbelow =>
        refine ⟨(name, node), hmem, mem_filesOf.mpr ⟨?_, .inr ⟨below, ?_, rfl⟩⟩⟩
        · exact hcatalogued name List.mem_cons_self
        · exact (ih (name, node) hmem).mpr
            ⟨hbelow, fun n hn => hcatalogued n (List.mem_cons_of_mem name hn)⟩

theorem names_ne_nil {node : SourceNode} {file : SourceFile} (h : file ∈ catalogueFiles node) :
    file.names ≠ [] := by
  obtain ⟨hholds, -⟩ := mem_catalogueFiles.mp h
  cases hholds with
  | child => exact List.cons_ne_nil _ _
  | inside => exact List.cons_ne_nil _ _

-- What a child is left with: its own name, and names below it.
theorem filesOf_cases {child : JsString × SourceNode} {file : SourceFile} :
    (file ∈ (filesOf child).1 → (filesOf child).1 = [file] ∧ file.names = [child.1]) ∧
      (file ∈ (filesOf child).2 →
        ∃ below ∈ catalogueFiles child.2, file = below.under child.1) := by
  obtain ⟨name, node⟩ := child
  unfold filesOf childFiles
  split
  · exact ⟨(nomatch ·), (nomatch ·)⟩
  · cases node with
    | file mode bytes =>
      refine ⟨fun h => ?_, (nomatch ·)⟩
      rw [List.mem_singleton.mp h]
      exact ⟨rfl, rfl⟩
    | directory mode children =>
      refine ⟨(nomatch ·), fun h => ?_⟩
      obtain ⟨below, hbelow, rfl⟩ := List.mem_map.mp h
      exact ⟨below, hbelow, rfl⟩
    | symbolicLink => exact ⟨(nomatch ·), (nomatch ·)⟩
    | special => exact ⟨(nomatch ·), (nomatch ·)⟩

theorem pairwise_filesOf {child : JsString × SourceNode}
    (h : (catalogueFiles child.2).Pairwise fun file other => ComesBefore file.names other.names) :
    (filesOf child).2.Pairwise fun file other => ComesBefore file.names other.names := by
  obtain ⟨name, node⟩ := child
  unfold filesOf childFiles
  split
  · exact List.Pairwise.nil
  · cases node with
    | file | symbolicLink | special => exact List.Pairwise.nil
    | directory mode children =>
      rw [List.pairwise_map]
      refine List.Pairwise.imp_of_mem (fun hfile hother hbefore => ?_) h
      exact (comesBefore_below (names_ne_nil hfile) (names_ne_nil hother)).mpr (.inr ⟨rfl, hbefore⟩)

theorem pairwise_catalogueFiles {node : SourceNode} (h : node.Distinct) :
    (catalogueFiles node).Pairwise fun file other => ComesBefore file.names other.names := by
  induction node using SourceNode.induction with
  | file | symbolicLink | special => exact List.Pairwise.nil
  | directory mode children ih =>
    cases h with
    | directory _ _ hnames hchildren =>
      have hsorted : (sortByName Prod.fst children).Pairwise fun child other =>
          characterPoints child.1 < characterPoints other.1 := sortByName_pairwise hnames
      rw [catalogueFiles_directory, List.pairwise_append]
      refine ⟨List.pairwise_flatMap.mpr ⟨fun child _ => ?_, hsorted.imp ?_⟩,
        List.pairwise_flatMap.mpr ⟨fun child hmem => ?_, hsorted.imp ?_⟩, ?_⟩
      · rcases hfiles : (filesOf child).1 with _ | ⟨file, files⟩
        · exact List.Pairwise.nil
        · have hfile : file ∈ (filesOf child).1 := by
            rw [hfiles]
            exact List.mem_cons_self
          rw [← hfiles, (filesOf_cases.1 hfile).1]
          exact List.pairwise_singleton _ _
      · intro child other hlt file hfile file' hfile'
        rw [(filesOf_cases.1 hfile).2, (filesOf_cases.1 hfile').2]
        exact hlt
      · have hmem' := (sortByName_perm Prod.fst children).mem_iff.mp hmem
        exact pairwise_filesOf (ih child hmem' (hchildren child hmem'))
      · intro child other hlt file hfile file' hfile'
        obtain ⟨below, hbelow, rfl⟩ := filesOf_cases.2 hfile
        obtain ⟨below', hbelow', rfl⟩ := filesOf_cases.2 hfile'
        exact (comesBefore_below (names_ne_nil hbelow) (names_ne_nil hbelow')).mpr (.inl hlt)
      · intro file hfile file' hfile'
        obtain ⟨child, -, hfile⟩ := List.mem_flatMap.mp hfile
        obtain ⟨child', -, hfile'⟩ := List.mem_flatMap.mp hfile'
        obtain ⟨below, hbelow, rfl⟩ := filesOf_cases.2 hfile'
        rw [(filesOf_cases.1 hfile).2]
        exact comesBefore_file (names_ne_nil hbelow)

/-! ## The text of the digest -/

/-- The tree that an entry's text is the text of. -/
def entryTree (entry : CatalogEntry) : JsonTree Scalar :=
  .object [(js "executable", .leaf (.boolean entry.executable)),
    (js "path", .leaf (.string entry.path)), (js "sha256", .leaf (.string entry.sha256)),
    (js "size", .leaf (.number (decimal entry.size)))]

theorem entryTree_injective : Function.Injective entryTree := by
  intro entry other h
  obtain ⟨executable, path, sha256, size⟩ := entry
  obtain ⟨executable', path', sha256', size'⟩ := other
  simp only [entryTree, JsonTree.object.injEq, List.cons.injEq, Prod.mk.injEq, true_and,
    JsonTree.leaf.injEq, Scalar.boolean.injEq, Scalar.string.injEq, Scalar.number.injEq,
    and_true] at h
  obtain ⟨rfl, rfl, rfl, hsize⟩ := h
  rw [decimal_injective hsize]

/-- A member of an entry's text. -/
def memberOf (key text : JsString) : JsString := stringify key ++ 0x3A :: text

theorem hubSourceEntry_eq (entry : CatalogEntry) :
    hubSourceEntry entry = 0x7B :: (joinComma
      [memberOf (js "executable") (if entry.executable then js "true" else js "false"),
        memberOf (js "path") (pythonAsciiJsonString entry.path),
        memberOf (js "sha256") (pythonAsciiJsonString entry.sha256),
        memberOf (js "size") (decimal entry.size)] ++ [0x7D]) := by
  have hexecutable : js "\x7b\"executable\":" = 0x7B :: (stringify (js "executable") ++ [0x3A]) := by
    decide
  have hpath : js ",\"path\":" = 0x2C :: (stringify (js "path") ++ [0x3A]) := by decide
  have hsha256 : js ",\"sha256\":" = 0x2C :: (stringify (js "sha256") ++ [0x3A]) := by decide
  have hsize : js ",\"size\":" = 0x2C :: (stringify (js "size") ++ [0x3A]) := by decide
  have hclose : js "\x7d" = [0x7D] := by decide
  rw [hubSourceEntry, hexecutable, hpath, hsha256, hsize, hclose]
  simp only [joinComma, memberOf, List.append_assoc, List.cons_append, List.nil_append]

theorem Lexes.memberOf (key : JsString) {text : JsString} {tokens : List Token}
    (h : Lexes text tokens) :
    Lexes (memberOf key text) (.scalar (.string key) :: .colon :: tokens) :=
  (Lexes.string key).append (EndsNumber.cons rfl _) (Lexes.punctuation rfl rfl h)

theorem lexes_hubSourceEntry (entry : CatalogEntry) :
    Lexes (hubSourceEntry entry) (treeTokens (entryTree entry)) := by
  rw [hubSourceEntry_eq, entryTree, treeTokens]
  exact Lexes.punctuation rfl rfl (Lexes.joined (EndsNumber.cons rfl _)
    (Lexes.punctuation rfl rfl Lexes.nil)
    (.cons (Lexes.memberOf _ (Lexes.boolean _))
      (.cons (Lexes.memberOf _ (lexes_pythonAsciiJsonString _))
        (.cons (Lexes.memberOf _ (lexes_pythonAsciiJsonString _))
          (.cons (Lexes.memberOf _ (Lexes.decimal _)) .nil)))))

theorem lexes_hubSourceEntries (entries : List CatalogEntry) :
    List.Forall₂ Lexes (entries.map hubSourceEntry) (itemTokens (entries.map entryTree)) := by
  induction entries with
  | nil => exact .nil
  | cons entry entries ih => exact .cons (lexes_hubSourceEntry entry) ih

-- The text is the JSON of the entries.
theorem parse_hubSourceText (entries : List CatalogEntry) :
    parse (hubSourceText entries) = some (.array (entries.map entryTree)) := by
  refine parse_of_lexes ?_
  rw [hubSourceText, treeTokens]
  exact Lexes.punctuation rfl rfl (Lexes.joined (EndsNumber.cons rfl _)
    (Lexes.punctuation rfl rfl Lexes.nil) (lexes_hubSourceEntries entries))

theorem hubSourceText_injective : Function.Injective hubSourceText := by
  intro entries others h
  have hparse := parse_hubSourceText entries
  rw [h, parse_hubSourceText, Option.some.injEq, JsonTree.array.injEq] at hparse
  exact List.map_injective_iff.mpr entryTree_injective hparse.symm

/-! ## The catalogue and its digest -/

/-- The list has every file that is catalogued, once, and in order. -/
structure IsCatalogue (node : SourceNode) (files : List SourceFile) : Prop where
  holds : ∀ file, file ∈ files ↔ node.Holds file ∧ file.Catalogued
  once : (files.map SourceFile.names).Nodup
  ordered : (files.map SourceFile.names).Pairwise ComesBefore

theorem comesBefore_irrefl (names : List JsString) : ¬ ComesBefore names names := by
  induction names with
  | nil => exact fun h => h
  | cons name names ih =>
    cases names with
    | nil => exact lt_irrefl (characterPoints name)
    | cons next names =>
      rw [comesBefore_below (List.cons_ne_nil _ _) (List.cons_ne_nil _ _)]
      rintro (hlt | ⟨-, hbefore⟩)
      · exact lt_irrefl _ hlt
      · exact ih hbefore

theorem isCatalogue_catalogueFiles (tree : SourceTree) :
    IsCatalogue tree.node (catalogueFiles tree.node) := by
  have hordered : ((catalogueFiles tree.node).map SourceFile.names).Pairwise ComesBefore :=
    List.pairwise_map.mpr (pairwise_catalogueFiles tree.distinct)
  refine ⟨fun file => mem_catalogueFiles, hordered.imp ?_, hordered⟩
  rintro names others hbefore rfl
  exact comesBefore_irrefl names hbefore

-- The catalogue of an accepted tree, the strings in its digest's text, and that text.
theorem sourceCatalogue_exact (sha256 : List UInt8 → JsString) (tree : SourceTree)
    (root : JsString) (s : WalkState) (readdir readdir' : Readdir)
    (result : List CatalogEntry × WalkState)
    (h : walkSource readdir sha256 root [] true s tree.node = .ok result) :
    walkSource readdir' sha256 root [] true s tree.node = .ok result ∧
      (∃ files, IsCatalogue tree.node files ∧ result.1 = files.map (entryAt sha256 [])) ∧
      (∀ value, (∀ u ∈ pythonAsciiJsonString value, IsPrintable u) ∧
        jsonParse (pythonAsciiJsonString value) = some (.leaf (.string value)) ∧
        pythonAsciiJsonString value = ensureAscii (characterPoints value)) ∧
      Function.Injective hubSourceText := by
  refine ⟨?_, ⟨_, isCatalogue_catalogueFiles tree, walkSource_spec readdir sha256 tree h⟩,
    fun value => ⟨printable_pythonAsciiJsonString value, jsonParse_pythonAsciiJsonString value,
      pythonAsciiJsonString_eq value⟩, hubSourceText_injective⟩
  rw [← h]
  exact walkSource_list tree root [] true s

/-- A directory that lists its children backwards the first time. -/
def backwards : Readdir where
  list _ again children := if again then children else children.reverse
  perm _ again children := by
    cases again with
    | true => exact List.Perm.refl _
    | false => exact List.reverse_perm children

/-- Two files, one of them below a directory, and a directory that is left out. -/
def smallTree : SourceTree where
  node := .directory 0o40755 [(js "z", .file 0o100755 [1]),
    (js "a", .directory 0o40755 [(js "b", .file 0o100644 [])]),
    (js "target", .directory 0o40755 [(js "c", .file 0o100644 [2])])]
  distinct := by
    refine .directory _ _ (by decide) fun child hchild => ?_
    simp only [List.mem_cons, List.not_mem_nil, or_false] at hchild
    rcases hchild with rfl | rfl | rfl
    · exact .file _ _
    · refine .directory _ _ (by decide) fun child hchild => ?_
      rw [List.mem_singleton.mp hchild]
      exact .file _ _
    · refine .directory _ _ (by decide) fun child hchild => ?_
      rw [List.mem_singleton.mp hchild]
      exact .file _ _

/-- The walk of the small tree, with the digests left out. -/
def smallResult : List CatalogEntry × WalkState :=
  ([⟨true, js "z", [], 1⟩, ⟨false, js "a/b", [], 0⟩],
    { entries := [⟨js "a/b", 0o644, []⟩, ⟨js "target/c", 0o644, []⟩, ⟨js "z", 0o755, []⟩]
      fileCount := 2
      totalBytes := 1 })

theorem sourceCatalogue_exact_small :
    ∃ files, IsCatalogue smallTree.node files ∧
      smallResult.1 = files.map (entryAt (fun _ => []) []) :=
  (sourceCatalogue_exact (fun _ => []) smallTree (js "/src") {} backwards backwards
    smallResult (by decide +kernel)).2.1

end Scripts
