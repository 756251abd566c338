/-
  WorkflowCatalog/FileSystem/Operations.lean
  ==========================================
  **What can be done with a file system.**  Reading leaves it as it is; a `Change` gives
  a new file system even where it fails, because what was done before the failure
  stays done.  The missing directories on a path are made however many they are; that calls
  can only go about `Manifest.maxLevels` deep inside each other is left out here.

  Main statements: of all entries writing changes one only (`entryAt_set_of_ne`), and
  so does removing (`entryAt_erase_of_ne`).
-/
import WorkflowCatalog.FileSystem.Basic
import WorkflowCatalog.Ordered

namespace WorkflowCatalog.FileSystem

/-! ### Laws of single entries -/

theorem entryAt_erase_of_ne {fs : FileSystem} {loc l : Location} (h : l ≠ loc) :
    (fs.erase loc).entryAt? l = fs.entryAt? l := by
  have hup : l.reverse ≠ loc.reverse := mt List.reverse_inj.1 h
  unfold entryAt? entryUp? erase
  split
  · rfl
  · congr 1
    simp only
    induction fs.entries with
    | nil => rfl
    | cons e es ih =>
      by_cases he : e.1 = loc.reverse
      · have hl : (e.1 == l.reverse) = false := by
          rw [beq_eq_false_iff_ne, he]
          exact fun e => hup e.symm
        rw [List.filter_cons, List.find?_cons, hl]
        simpa [he] using ih
      · rw [List.filter_cons]
        simp only [bne_iff_ne, ne_eq, he, not_false_eq_true, if_true, List.find?_cons]
        cases e.1 == l.reverse
        · exact ih
        · rfl

theorem entryAt_erase_self {fs : FileSystem} {loc : Location} (h : loc ≠ []) :
    (fs.erase loc).entryAt? loc = none := by
  simp [entryAt?, entryUp?, erase, h]

theorem entryAt_set_of_ne {fs : FileSystem} {loc l : Location} {e : Entry} (h : l ≠ loc) :
    (fs.set loc e).entryAt? l = fs.entryAt? l := by
  refine Eq.trans ?_ (entryAt_erase_of_ne h)
  have : (loc.reverse == l.reverse) = false := by
    rw [beq_eq_false_iff_ne, ne_eq, List.reverse_inj]
    exact fun e => h e.symm
  simp [entryAt?, entryUp?, set, this]

theorem entryAt_set_self {fs : FileSystem} {loc : Location} {e : Entry} (h : loc ≠ []) :
    (fs.set loc e).entryAt? loc = some e := by
  simp [entryAt?, entryUp?, set, h]

/-! ### Reading -/

def readBytes (fs : FileSystem) (path : String) : Except Fault ByteArray := do
  match ← fs.find true path with
  | (_, .file bytes) => .ok bytes
  | _ => .error .isDirectory

/-- The real location of a directory, and the names of its entries. -/
def listDirectory (fs : FileSystem) (path : String) : Except Fault (Location × List String) := do
  match ← fs.find true path with
  | (loc, .directory) => .ok (loc, fs.namesIn loc)
  | _ => .error .notDirectory

/-- Does the path lead to a directory?  A path that leads nowhere does not; some other
    faults remain faults. -/
def isDirectory (fs : FileSystem) (path : String) : Except Fault Bool :=
  match fs.find true path with
  | .ok (_, .directory) => .ok true
  | .ok _ => .ok false
  | .error .notFound => .ok false
  | .error .notDirectory => .ok false
  | .error .tooManyLinks => .ok false
  | .error .nulInPath => .ok false
  | .error f => .error f

def isDirectoryEntry (fs : FileSystem) (dir : Location) (path name : String) : Bool :=
  match fs.entryAt? (dir ++ [name]) with
  | some .directory => true
  | some (.link _) =>
    match fs.find true path with
    | .ok (_, .directory) => true
    | _ => false
  | _ => false

def isLinkEntry (fs : FileSystem) (dir : Location) (name : String) : Bool :=
  match fs.entryAt? (dir ++ [name]) with
  | some (.link _) => true
  | _ => false

/-- All entries below a directory, by their paths from it and in the order of these. -/
def tree (fs : FileSystem) (dir : Location) : List (String × Entry) :=
  let below := fs.entries.filterMap fun e =>
    let loc := e.1.reverse
    if dir.isPrefixOf loc ∧ loc ≠ dir then
      some (Path.joinNames (loc.drop dir.length), e.2)
    else none
  sortBy (·.1) below

/-! ### Changing -/

/-- A change of a file system, which may fail half way. -/
abbrev Change := ExceptT Fault (StateM FileSystem)

namespace Change

def resolve (followLast : Bool) (path : String) : Change Target := do
  match (← get).resolve followLast path with
  | .ok t => pure t
  | .error f => throw f

/-- Writes a file.  Links are followed; what was in the file is lost. -/
def write (path : String) (bytes : ByteArray) : Change Unit := do
  match ← resolve true path with
  | .present loc (.file _) => modify (·.set loc (.file bytes))
  | .present _ _ => throw .isDirectory
  | .absent dir name => modify (·.set (dir ++ [name]) (.file bytes))

/-- Makes an entry where none is. -/
def create (path : String) (entry : Entry) : Change Unit := do
  match ← resolve false path with
  | .present .. => throw .exists_
  | .absent dir name => modify (·.set (dir ++ [name]) entry)

def makeDirectory (path : String) : Change Unit := create path .directory

/-- Accepts a fault of making a directory if the directory is there. -/
def acceptDirectory (path : String) (f : Fault) : Change Unit := do
  if f = .nulInPath then throw f
  match (← get).isDirectory path with
  | .ok true => pure ()
  | .ok false => throw f
  | .error g => throw g

/-- Makes a directory whose parent is there, unless the directory is there itself. -/
def makeLeaf (path : String) : Change Unit :=
  tryCatch (makeDirectory path) fun f =>
    if f = .notFound then throw f else acceptDirectory path f

/-- Makes a directory and the missing ones above it; `fuel` bounds their number. -/
def makePath : Nat → Path → Change Unit
  | 0, p => makeLeaf p.text
  | fuel + 1, p =>
    tryCatch (makeDirectory p.text) fun f =>
      if f = .notFound then
        if p.parent = p then throw f
        else do
          makePath fuel p.parent
          makeLeaf p.text
      else acceptDirectory p.text f

def makeDirectories (p : Path) : Change Unit := makePath (p.names.length + 1) p

def unlink (path : String) : Change Unit := do
  match ← resolve false path with
  | .present _ .directory => throw .isDirectory
  | .present loc _ => modify (·.erase loc)
  | .absent .. => throw .notFound

/-- Removes a file or a link if it is there. -/
def unlinkIfPresent (path : String) : Change Unit :=
  tryCatch (unlink path) fun f => if f = .notFound then pure () else throw f

/-- Moves a file or a link to another path, where it takes the place of what stands
    there; a directory gives no way. -/
def replace (source target : String) : Change Unit := do
  let s ← resolve false source
  let t ← resolve false target
  match s, t with
  | .absent .., _ => throw .notFound
  | .present _ .directory, _ => throw .isDirectory
  | .present _ _, .present _ .directory => throw .isDirectory
  | .present loc e, .present loc' _ =>
    if loc = loc' then pure () else modify fun fs => (fs.erase loc).set loc' e
  | .present loc e, .absent dir name => modify fun fs => (fs.erase loc).set (dir ++ [name]) e

def removeTree (path : String) : Change Unit := do
  match ← resolve false path with
  | .absent .. => throw .notFound
  | .present loc _ =>
    modify fun fs => { fs with entries := fs.entries.filter fun e => !loc.isPrefixOf e.1.reverse }

/-- Puts a file, a directory or a link where a path says, in a directory that is made
    if it is missing. -/
def put (p : Path) : Entry → Change Unit
  | .directory => makeDirectories p
  | .file bytes => do
    makeDirectories p.parent
    write p.text bytes
  | .link target => do
    makeDirectories p.parent
    create p.text (.link target)

end Change

end WorkflowCatalog.FileSystem
