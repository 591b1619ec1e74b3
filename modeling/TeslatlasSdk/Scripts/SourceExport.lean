import TeslatlasSdk.Json.Compact
import TeslatlasSdk.Scripts.PythonStrings
import TeslatlasSdk.Scripts.TarReader

/-!
# The source catalogue

`sourceExportManifest` walks a directory tree that does not change under it.  All files go into a
manifest; those outside the names that are left out go into the catalogue, whose digest a checker in
Python computes as well.
-/

open Text Core Json

namespace Scripts

/-! ## The tree -/

/-- What there is at a path: modes are those of `lstat`. -/
inductive SourceNode where
  | file (mode : Nat) (bytes : List UInt8)
  | directory (mode : Nat) (children : List (JsString × SourceNode))
  | symbolicLink
  | special

inductive EntryKind where
  | file
  | directory
  | symbolicLink
  | special
  deriving DecidableEq, Repr

def SourceNode.kind : SourceNode → EntryKind
  | .file _ _ => .file
  | .directory _ _ => .directory
  | .symbolicLink => .symbolicLink
  | .special => .special

structure Dirent where
  name : JsString
  kind : EntryKind
  deriving DecidableEq, Repr

/-- In which order a directory lists its children, the first time and again. -/
structure Readdir where
  list : {α : Type} → (directory : JsString) → (again : Bool) → List α → List α
  perm : ∀ {α : Type} (directory : JsString) (again : Bool) (children : List α),
    (list directory again children).Perm children

inductive SourceError where
  | forbiddenPath (path : JsString)
  | linkOrSpecial
  | unsafeMode (path : JsString)
  | exceedsBounds
  | changed
  | noFiles
  deriving DecidableEq, Repr

def SourceError.message (label : JsString) : SourceError → JsString
  | .forbiddenPath path => label ++ js " contains forbidden path " ++ path
  | .linkOrSpecial => label ++ js " contains a link or special entry"
  | .unsafeMode path => label ++ js " contains unsafe mode for " ++ path
  | .exceedsBounds => label ++ js " exceeds Hub bootstrap bounds"
  | .changed => label ++ js " changed while it was inspected"
  | .noFiles => label ++ js " contains no files"

/-! ## Names and paths -/

/-- `HUB_SOURCE_EXCLUDED_NAMES`. -/
def hubSourceExcludedNames : List JsString :=
  [js ".DS_Store", js ".build", js ".git", js ".pytest_cache", js ".ruff_cache", js ".venv",
    js "AGENTS.md", js "__pycache__", js "coverage", js "dist", js "node_modules", js "target"]

def hubMaxSourceFiles : Nat := 50000

def hubMaxSourceBytes : Nat := 1073741824

/-- `join(directory, name)`, for the name of a child. -/
def joinPath (directory name : JsString) : JsString :=
  if directory.getLast? = some slash then directory ++ name else directory ++ slash :: name

/-- `relative(root, path).replaceAll("\\", "/")`, for the names on the way from the root. -/
def relativePath (names : List JsString) : JsString :=
  (List.intercalate [slash] names).map fun u => if u = backslash then slash else u

/-- Whether a child's name or path is one that a source export must not have. -/
def isForbidden (name relativePath : JsString) : Bool :=
  name = js ".git" || name = js ".DS_Store" || name = js ".serena" || name = js "node_modules" ||
    name = js "dist" || (js ".tgz").isSuffixOf name ||
    (relativePath.splitOn slash).any fun part => part = js ".." || part.isEmpty

/-- The mode of a child that is inspected. -/
def isUnsafeMode (mode : Nat) (isDirectory : Bool) : Bool :=
  mode &&& 0o7022 != 0 || mode &&& 0o400 == 0 || (isDirectory && mode &&& 0o100 == 0)

/-! ## The walk -/

structure ManifestEntry where
  path : JsString
  mode : Nat
  sha256 : JsString
  deriving DecidableEq, Repr

structure CatalogEntry where
  executable : Bool
  path : JsString
  sha256 : JsString
  size : Nat
  deriving DecidableEq, Repr

/-- `entries` and `catalogState`. -/
structure WalkState where
  entries : List ManifestEntry := []
  fileCount : Nat := 0
  totalBytes : Nat := 0
  deriving DecidableEq, Repr

/-- What a child adds to the catalogue. -/
inductive Found where
  | file (entry : CatalogEntry)
  | subtree (entries : List CatalogEntry)
  | nothing
  deriving DecidableEq, Repr

/-- The part of the loop from `lstat(path)` on, for the child at a path. -/
abbrev Visit :=
  (path : JsString) → (names : List JsString) → (name : JsString) → (catalogEnabled : Bool) →
    WalkState → Except SourceError (Found × WalkState)

section Walk

variable (readdir : Readdir) (sha256 : List UInt8 → JsString)

/-- `children.sort((left, right) => comparePythonStrings(left.name, right.name))`. -/
def sortByName {α : Type} (name : α → JsString) (children : List α) : List α :=
  children.insertionSort fun left right => comparePythonStrings (name left) (name right) ≤ 0

def sourceDirectoryEntrySignature (entry : Dirent) : JsString :=
  entry.name ++ 0 :: ((js (toString (entry.kind == .file))) ++
    js (toString (entry.kind == .directory)) ++ js (toString (entry.kind == .symbolicLink)))

/-- The children of a directory, sorted, the first time or again. -/
def inspectSourceDirectory {α : Type} (again : Bool) (directory : JsString) (mode : Nat)
    (children : List (Dirent × α)) : Except SourceError (List (Dirent × α)) := do
  let mode := mode &&& 0o7777
  rejectIf (mode &&& 0o7022 ≠ 0 ∨ mode &&& 0o500 ≠ 0o500) (.unsafeMode directory)
  return sortByName (·.1.name) (readdir.list directory again children)

def assertSourceDirectoryStable {α : Type} (directory : JsString) (mode : Nat)
    (children before : List (Dirent × α)) : Except SourceError Unit := do
  let after ← inspectSourceDirectory readdir true directory mode children
  rejectIf (after.map (fun child => sourceDirectoryEntrySignature child.1) ≠
    before.map (fun child => sourceDirectoryEntrySignature child.1)) .changed

/-- The loop over the children, with the catalogue's files and subtrees so far. -/
def visitAll (directory : JsString) (names : List JsString) (catalogEnabled : Bool)
    (catalogFiles : List CatalogEntry) (catalogDirectories : List (List CatalogEntry))
    (s : WalkState) :
    List (Dirent × Visit) → Except SourceError (List CatalogEntry × WalkState)
  | [] => .ok (catalogFiles ++ catalogDirectories.flatten, s)
  | (child, visit) :: children => do
      let path := joinPath directory child.name
      rejectIf (isForbidden child.name (relativePath (names ++ [child.name])) = true)
        (.forbiddenPath (relativePath (names ++ [child.name])))
      match ← visit path (names ++ [child.name]) child.name catalogEnabled s with
      | (.file entry, s) =>
          visitAll directory names catalogEnabled (catalogFiles ++ [entry]) catalogDirectories s
            children
      | (.subtree entries, s) =>
          visitAll directory names catalogEnabled catalogFiles (catalogDirectories ++ [entries]) s
            children
      | (.nothing, s) =>
          visitAll directory names catalogEnabled catalogFiles catalogDirectories s children

def walkDirectory (mode : Nat) (children : List (Dirent × Visit)) (directory : JsString)
    (names : List JsString) (catalogEnabled : Bool) (s : WalkState) :
    Except SourceError (List CatalogEntry × WalkState) := do
  let before ← inspectSourceDirectory readdir false directory mode children
  let result ← visitAll directory names catalogEnabled [] [] s before
  assertSourceDirectoryStable readdir directory mode children before
  return result

/-- The bytes and the mode of a file that is as it was. -/
def readStableSourceFile (mode : Nat) (bytes : List UInt8) (relativePath : JsString) :
    Except SourceError (List UInt8 × Nat) := do
  let mode := mode &&& 0o7777
  rejectIf (mode &&& 0o7022 ≠ 0 ∨ mode &&& 0o400 = 0) (.unsafeMode relativePath)
  return (bytes, mode)

/-- The catalogue's entry of a file. -/
def catalogEntry (path : JsString) (mode : Nat) (bytes : List UInt8) : CatalogEntry :=
  { executable := mode &&& 0o111 != 0, path, sha256 := sha256 bytes, size := bytes.length }

def visitFile (mode : Nat) (bytes : List UInt8) : Visit := fun _ names name catalogEnabled s => do
  rejectIf (isUnsafeMode (mode &&& 0o7777) false = true) (.unsafeMode (relativePath names))
  let (bytes, mode) ← readStableSourceFile mode bytes (relativePath names)
  let entries := s.entries ++ [{ path := relativePath names, mode, sha256 := sha256 bytes }]
  if catalogEnabled && !hubSourceExcludedNames.contains name then do
    let fileCount := s.fileCount + 1
    let totalBytes := s.totalBytes + bytes.length
    rejectIf (fileCount > hubMaxSourceFiles ∨ totalBytes > hubMaxSourceBytes) .exceedsBounds
    return (.file (catalogEntry sha256 (relativePath names) mode bytes),
      { entries, fileCount, totalBytes })
  else return (.nothing, { s with entries })

mutual

def visitChild : SourceNode → Visit
  | .symbolicLink => fun _ _ _ _ _ => .error .linkOrSpecial
  | .special => fun _ _ _ _ _ => .error .linkOrSpecial
  | .file mode bytes => visitFile sha256 mode bytes
  | .directory mode children => fun path names name catalogEnabled s => do
      rejectIf (isUnsafeMode (mode &&& 0o7777) true = true) (.unsafeMode (relativePath names))
      let childCatalogEnabled := catalogEnabled && !hubSourceExcludedNames.contains name
      let (catalogSubtree, s) ← walkDirectory readdir mode (visitChildren children) path names
        childCatalogEnabled s
      return (if childCatalogEnabled then .subtree catalogSubtree else .nothing, s)

def visitChildren : List (JsString × SourceNode) → List (Dirent × Visit)
  | [] => []
  | (name, node) :: children => (⟨name, node.kind⟩, visitChild node) :: visitChildren children

end

/-- `walkSource`, at the directory that the names lead to. -/
def walkSource (directory : JsString) (names : List JsString) (catalogEnabled : Bool)
    (s : WalkState) : SourceNode → Except SourceError (List CatalogEntry × WalkState)
  | .directory mode children =>
      walkDirectory readdir mode (visitChildren readdir sha256 children) directory names
        catalogEnabled s
  | _ => .error .linkOrSpecial

/-- The text of an entry in `hubSourceDigest`. -/
def hubSourceEntry (entry : CatalogEntry) : JsString :=
  js "\x7b\"executable\":" ++ (if entry.executable then js "true" else js "false") ++
    js ",\"path\":" ++ pythonAsciiJsonString entry.path ++ js ",\"sha256\":" ++
    pythonAsciiJsonString entry.sha256 ++ js ",\"size\":" ++ decimal entry.size ++ js "\x7d"

/-- The text that the catalogue's digest is taken of. -/
def hubSourceText (entries : List CatalogEntry) : JsString :=
  0x5B :: (joinComma (entries.map hubSourceEntry) ++ [0x5D])

def hubSourceDigest (entries : List CatalogEntry) : JsString :=
  sha256 (utf8Encode (hubSourceText entries))

structure SourceManifest where
  root : JsString
  fileCount : Nat
  manifestSha256 : JsString
  catalogFileCount : Nat
  catalogManifestSha256 : JsString
  deriving DecidableEq, Repr

/-- The value whose JSON is the manifest. -/
def manifestValue (entries : List ManifestEntry) : Value :=
  .array (entries.map fun entry => .object [(js "path", .leaf (.string entry.path)),
    (js "mode", .leaf (.number (.ofNat entry.mode))),
    (js "sha256", .leaf (.string entry.sha256))])

def sourceExportManifest (root : JsString) (node : SourceNode) :
    Except SourceError SourceManifest := do
  let (catalogEntries, s) ← walkSource readdir sha256 root [] true {} node
  rejectIf (s.entries.length = 0) .noFiles
  let manifestBytes := utf8Encode (stringifyTree (manifestValue s.entries) ++ [0x0A])
  return { root, fileCount := s.entries.length, manifestSha256 := sha256 manifestBytes
           catalogFileCount := catalogEntries.length
           catalogManifestSha256 := hubSourceDigest sha256 catalogEntries }

end Walk

end Scripts
