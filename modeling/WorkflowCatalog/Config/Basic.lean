/-
  WorkflowCatalog/Config/Basic.lean
  =================================
  **The settings of a compilation.**  They say which files are manifests, how strict
  their reading is, how far a run may go and where its artifacts are written.  The
  type holds the limits that every setting keeps.

  `Config.ofJson` reads settings from an object and fills in the usual ones.  A
  manifest suffix is trimmed, put into small letters and given its dot.

  Left out is a name of the schema file with half a surrogate pair in it: the file system
  here has no file under such a name, and so it is no text of these settings either.
-/
import WorkflowCatalog.Validation.Scalar
import WorkflowCatalog.Text.CodePoint

namespace WorkflowCatalog

open Validation
open Text (CodeText)
open Decimal (Binary64)

structure Config where
  /-- The suffixes of manifests. -/
  suffixes : List CodeText
  /-- Is a field of the wrong shape an error? -/
  strictFields : Bool
  /-- Are arguments that share a name an error? -/
  uniqueArguments : Bool
  /-- How many manifests are worked on at a time. -/
  workers : { n : Int // 1 ≤ n ∧ n ≤ 64 }
  /-- The time that the manifests may take, in seconds. -/
  timeLimit : { x : Binary64 // x.isPositive = true }
  /-- The greatest number of manifests. -/
  maxFiles : { n : Int // 1 ≤ n }
  /-- Are links to directories followed? -/
  followLinks : Bool
  outputDirectory : SomeText
  dataFile : SomeText
  typesFile : SomeText
  searchIndexFile : SomeText
  /-- The file of the JSON schema, if one is written. -/
  schemaFile : Option String
  deriving DecidableEq, Repr

namespace Config

/-! ### The usual settings -/

/-- The suffixes of manifests, unless others are set. -/
def usualSuffixes : List CodeText := [".yaml", ".yml"]

/-- The greatest number of manifests, unless another is set. -/
def usualMaxFiles : Int := 10000

/-- The usual time limit: a minute. -/
def usualTimeLimit : { x : Binary64 // x.isPositive = true } := ⟨.ofInt 60, by decide +kernel⟩

def usual : Config where
  suffixes := usualSuffixes
  strictFields := false
  uniqueArguments := false
  workers := ⟨4, by decide⟩
  timeLimit := usualTimeLimit
  maxFiles := ⟨usualMaxFiles, by decide⟩
  followLinks := true
  outputDirectory := ⟨"generated", by decide⟩
  dataFile := ⟨"workflows.ts", by decide⟩
  typesFile := ⟨"types.ts", by decide⟩
  searchIndexFile := ⟨"search-index.json", by decide⟩
  schemaFile := none

/-! ### Suffixes -/

/-- A suffix in its usual form; a blank one has none. -/
def normalizeSuffix? (t : CodeText) : Option CodeText :=
  let t := t.strip.lower
  if t.isEmpty then none
  else if t.points.head? = some (.char '.') then some t
  else some (↑"." ++ t)

/-- The rule that a suffix breaks which is blank. -/
def blankSuffix : Kind := .rule "manifest suffix must not be empty"

def normalizeSuffixes (l : List CodeText) : Checked (List CodeText) :=
  match l.mapM normalizeSuffix? with
  | some l => .ok l
  | none => .problem blankSuffix

/-- Reads suffixes, of which there must be one at least. -/
def suffixesOfJson (v : Json) : Checked (List CodeText) :=
  (tuple 1 codeText v).andThen normalizeSuffixes

/-! ### Settings as JSON -/

/-- The names of the settings, in order. -/
def settingNames : List String :=
  ["manifest_suffixes", "strict_fields", "reject_duplicate_arguments", "max_workers",
    "timeout_seconds", "max_files", "follow_symlinks", "output_dir", "data_artifact_name",
    "types_artifact_name", "search_index_artifact_name", "json_schema_artifact_name"]

/-- Reads settings; one that is left out is as usual. -/
def ofJson (v : Json) : Checked Config :=
  object settingNames v fun ms =>
    Config.mk
      <$> fieldOr ms "manifest_suffixes" usual.suffixes suffixesOfJson
      <*> fieldOr ms "strict_fields" usual.strictFields bool
      <*> fieldOr ms "reject_duplicate_arguments" usual.uniqueArguments bool
      <*> fieldOr ms "max_workers" usual.workers (intBetween 1 64)
      <*> fieldOr ms "timeout_seconds" usual.timeLimit positiveFloat
      <*> fieldOr ms "max_files" usual.maxFiles (intFrom 1)
      <*> fieldOr ms "follow_symlinks" usual.followLinks bool
      <*> fieldOr ms "output_dir" usual.outputDirectory someText
      <*> fieldOr ms "data_artifact_name" usual.dataFile someText
      <*> fieldOr ms "types_artifact_name" usual.typesFile someText
      <*> fieldOr ms "search_index_artifact_name" usual.searchIndexFile someText
      <*> fieldOr ms "json_schema_artifact_name" usual.schemaFile (nullable text)

def toJson (c : Config) : Json :=
  .obj [("manifest_suffixes", .ofTexts c.suffixes), ("strict_fields", .bool c.strictFields),
    ("reject_duplicate_arguments", .bool c.uniqueArguments), ("max_workers", .int c.workers.1),
    ("timeout_seconds", .float c.timeLimit.1), ("max_files", .int c.maxFiles.1),
    ("follow_symlinks", .bool c.followLinks), ("output_dir", .str c.outputDirectory.1),
    ("data_artifact_name", .str c.dataFile.1), ("types_artifact_name", .str c.typesFile.1),
    ("search_index_artifact_name", .str c.searchIndexFile.1),
    ("json_schema_artifact_name", .ofString? c.schemaFile)]

end Config

end WorkflowCatalog
