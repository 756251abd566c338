/-
  WorkflowCatalog/FileSystem/Basic.lean
  =====================================
  **A file system as a value.**  Every entry has a location: the list of names from the
  root directory down to it.  A file system is the list of its entries, and a working
  directory.  The entries are kept with their locations backwards, the name of an entry
  first: of two that are compared, mostly the first names tell them apart.

  `FileSystem.resolve` finds what a path text leads to.  It goes name by name, as the
  names stand: a link on the way is replaced by its target, `..` goes to the directory
  above the one that has been reached, and every name but the last has to lead to a
  directory.  At most `maxLinks` links are followed.

  Main statement: an entry in a directory is looked up by its name and the directory,
  backwards (`entryAt_concat`).

  Left out are permissions, so that nothing fails for want of one, and names that are no
  UTF-8: names are strings.  Also, a directory has one real location here, however long the
  path is that leads to it; a real path that is spelled out gives up its links from
  `maxPathBytes` bytes on, and then one directory can have two.
-/
import WorkflowCatalog.Path.Basic

namespace WorkflowCatalog

abbrev Location := List String

-- bytes are compared as in the core library, whatever else is imported
local instance decidableEqBytes : DecidableEq ByteArray := ByteArray.instDecidableEq

inductive Entry where
  | file (bytes : ByteArray)
  | directory
  /-- A symbolic link, with its target as it is written. -/
  | link (target : String)
  deriving DecidableEq

structure FileSystem where
  /-- Every entry but the root directory, with the names from its own up to the root
      directory. -/
  entries : List (List String × Entry)
  workingDirectory : Location
  deriving DecidableEq

namespace FileSystem

/-- Entries that are given with their locations. -/
def located (entries : List (Location × Entry)) : List (List String × Entry) :=
  entries.map fun e => (e.1.reverse, e.2)

inductive Fault where
  | notFound
  | notDirectory
  | isDirectory
  | exists_
  | tooManyLinks
  | nameTooLong
  | nulInPath
  deriving DecidableEq, Repr

/-! ### Entries -/

/-- The entry with these names up to the root directory. -/
def entryUp? (fs : FileSystem) (names : List String) : Option Entry :=
  (fs.entries.find? (·.1 == names)).map (·.2)

def entryAt? (fs : FileSystem) (loc : Location) : Option Entry :=
  if loc = [] then some .directory else fs.entryUp? loc.reverse

theorem entryAt_concat (fs : FileSystem) (dir : Location) (n : String) :
    fs.entryAt? (dir ++ [n]) = fs.entryUp? (n :: dir.reverse) := by
  unfold entryAt?
  rw [if_neg (by simp), List.reverse_concat]

def erase (fs : FileSystem) (loc : Location) : FileSystem :=
  let up := loc.reverse
  { fs with entries := fs.entries.filter fun e => e.1 != up }

/-- Puts an entry at a location, in the place of the one that stands there. -/
def set (fs : FileSystem) (loc : Location) (e : Entry) : FileSystem :=
  { fs with entries := (loc.reverse, e) :: (fs.erase loc).entries }

/-- The name of an entry that has a directory above it; both are given backwards. -/
def nameBelow? (up : List String) : List String → Option String
  | [] => none
  | n :: above => if above == up then some n else none

def namesIn (fs : FileSystem) (dir : Location) : List String :=
  let up := dir.reverse
  fs.entries.filterMap fun e => nameBelow? up e.1

/-! ### Resolution -/

/-- What a path leads to: an entry that is there, or a place in a directory where no
    entry is. -/
inductive Target where
  | present (loc : Location) (entry : Entry)
  | absent (dir : Location) (name : String)
  deriving DecidableEq

def maxLinks : Nat := 40

def maxNameBytes : Nat := 255

/-- The length in bytes from which on a path is too long. -/
def maxPathBytes : Nat := 4096

/-- The names of a path text.  A slash at the end asks for a directory, like a dot. -/
def pathNames (s : String) : List String :=
  let parts := (Path.components s).filter (· != "")
  if s.toList.getLast? = some '/' then parts ++ ["."] else parts

/-- Goes along names from a directory, which is given backwards.  `onLink` goes on where a
    link leads to. -/
def along (fs : FileSystem) (followLast : Bool)
    (onLink : Location → List String → Except Fault Target) :
    List String → List String → Except Fault Target
  | up, [] => .ok (.present up.reverse .directory)
  | up, n :: rest =>
    if n = "." then along fs followLast onLink up rest
    else if n = ".." then along fs followLast onLink up.tail rest
    else if maxNameBytes < n.utf8ByteSize then .error .nameTooLong
    else
      match fs.entryUp? (n :: up) with
      | none => if rest = [] then .ok (.absent up.reverse n) else .error .notFound
      | some .directory => along fs followLast onLink (n :: up) rest
      | some (.file bytes) =>
        if rest = [] then .ok (.present (n :: up).reverse (.file bytes)) else .error .notDirectory
      | some (.link target) =>
        if rest = [] ∧ followLast = false then .ok (.present (n :: up).reverse (.link target))
        else if target = "" then .error .notFound
        else
          let start := if target.toList.head? = some '/' then [] else up.reverse
          onLink start (pathNames target ++ rest)

/-- Goes along names, following so many links at most. -/
def follow (fs : FileSystem) (followLast : Bool) :
    Nat → Location → List String → Except Fault Target
  | 0, here, names =>
    along fs followLast (fun _ _ => .error .tooManyLinks) here.reverse names
  | n + 1, here, names => along fs followLast (follow fs followLast n) here.reverse names

/-- What a path text leads to.  If the last name is a link, it is followed or not. -/
def resolve (fs : FileSystem) (followLast : Bool) (path : String) : Except Fault Target :=
  if path.toList.contains '\x00' then .error .nulInPath
  else if path = "" then .error .notFound
  else if maxPathBytes ≤ path.utf8ByteSize then .error .nameTooLong
  else
    let start := if path.toList.head? = some '/' then [] else fs.workingDirectory
    follow fs followLast maxLinks start (pathNames path)

def find (fs : FileSystem) (followLast : Bool) (path : String) :
    Except Fault (Location × Entry) := do
  match ← fs.resolve followLast path with
  | .present loc e => .ok (loc, e)
  | .absent .. => .error .notFound

end FileSystem

end WorkflowCatalog
