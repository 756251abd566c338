/-
  WorkflowCatalog/Manifest/Discovery.lean
  =======================================
  **Finding manifests.**  A file is a manifest by the suffix of its name, in capital or
  small letters.  A directory tree is searched from the top, the directories of a
  directory in ascending order of their names.  Links to directories are followed or
  not; in either case a directory is entered once only, by whatever path it is
  reached first.

  The search of a directory goes on inside the search of the directory above it, and
  searches go no more than `maxLevels` deep inside each other.  A tree that is deeper
  cannot be searched, which is no error of the library.
-/
import WorkflowCatalog.Failure
import WorkflowCatalog.FileSystem.Operations
import WorkflowCatalog.Text.CodePoint

namespace WorkflowCatalog.Manifest

open Text (CodeText)

/-! ### Paths -/

/-- The suffix of a file name, with its dot. -/
def suffixOf (name : CodeText) : CodeText := ⟨(Path.cutSuffix (.char '.') name.points).2⟩

/-- Is a file of this name a manifest? -/
def isManifestName (suffixes : List CodeText) (name : CodeText) : Bool :=
  (suffixes.map CodeText.lower).contains (suffixOf name).lower

def isManifest (suffixes : List CodeText) (p : Path) : Bool := isManifestName suffixes p.name

/-- Paths in the order of their texts. -/
def sortPaths (ps : List Path) : List Path := sortBy Path.text ps

/-! ### Events and errors -/

/-- The event of a directory that has been entered before. -/
def repeatedEvent (directory : String) : Log.Event :=
  { source := .discovery, level := .warning, name := "symlink_cycle_skipped"
    fields := [("directory", .text directory)] }

def discoveredEvent (root : Path) (count : Nat) : Log.Event :=
  { source := .discovery, level := .debug, name := "manifests_discovered"
    fields := [("directory", .text root.text), ("count", .count count)] }

def unlistable (directory : String) : Error :=
  .manifestIO "Cannot read manifest directory" directory (some .external)

/-- The error of a root that is no directory. -/
def noDirectory (root : Path) : Error :=
  .manifestIO "Manifest directory not found" root.text none

/-! ### The search -/

/-- What is searched for, and where. -/
structure Search where
  fs : FileSystem
  root : Path
  suffixes : List CodeText
  /-- The greatest number of manifests. -/
  most : Int
  followLinks : Bool

structure Progress where
  /-- The directories that have been entered: the names from each up to the root directory. -/
  entered : List (List String)
  /-- The manifests that have been found, the newest first. -/
  found : List Path

def below (directory name : String) : String :=
  if directory.toList.getLast? = some '/' then directory ++ name else directory ++ "/" ++ name

/-- The real location of a directory, and the names of its entries. -/
def listing (s : Search) (directory : String) : Run (Location × List String) :=
  match s.fs.listDirectory directory with
  | .ok l => pure l
  | .error _ => Run.raise (unlistable directory)

def addManifests (s : Search) (directory : Path) : List String → List Path → Run (List Path)
  | [], found => pure found
  | name :: rest, found =>
    let p := directory / .ofString name
    if isManifest s.suffixes p then
      if s.most < (found.length : Int) + 1 then
        Run.raise (.tooManyManifests s.root.text s.most)
      else addManifests s directory rest (p :: found)
    else addManifests s directory rest found

def onward (s : Search) (here : Location) (names : List String) : List String :=
  if s.followLinks then names else names.filter fun n => !s.fs.isLinkEntry here n

/-- The number of levels that a search can go down, the root being the first.  What is in the
    way is the depth of calls inside each other, which is not quite the same everywhere. -/
def maxLevels : Nat := 950

/-- Searches a directory, for which so many levels are left. -/
def visit (s : Search) : Nat → String → Progress → Run Progress
  | 0, _, _ => throw .tooDeep
  | levels + 1, directory, progress => do
    let (here, names) ← listing s directory
    if progress.entered.contains here.reverse then
      Traced.log (repeatedEvent directory)
      pure progress
    else
      let isDir := fun n => s.fs.isDirectoryEntry here (below directory n) n
      let files := names.filter fun n => !isDir n
      let found ← addManifests s (.ofString directory) (sortTexts files) progress.found
      let dirs := onward s here (sortTexts (names.filter isDir))
      dirs.foldlM (fun progress n => visit s levels (below directory n) progress)
        ⟨here.reverse :: progress.entered, found⟩

/-- The manifests of a directory tree, in the order of their paths. -/
def discover (s : Search) : Run (List Path) := do
  match s.fs.isDirectory s.root.text with
  | .error f => throw (.fault f)
  | .ok false => Run.raise (noDirectory s.root)
  | .ok true =>
    let progress ← visit s maxLevels s.root.text ⟨[], []⟩
    let manifests := sortPaths progress.found
    Traced.log (discoveredEvent s.root manifests.length)
    pure manifests

end WorkflowCatalog.Manifest
