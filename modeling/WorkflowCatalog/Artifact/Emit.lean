/-
  WorkflowCatalog/Artifact/Emit.lean
  ==================================
  **Writing the artifacts.**  Every artifact is first staged: its text is written to a
  hidden file beside its target.  When all are staged, the targets are replaced one
  after the other, and in the end the staged files that are left are removed,
  whatever has happened.
-/
import WorkflowCatalog.Artifact.Render
import WorkflowCatalog.Session

namespace WorkflowCatalog.Artifact

open Text (CodeText)

/-! ### Places -/

structure Places where
  data : Path
  types : Path
  searchIndex : Path
  schema : Option Path
  deriving DecidableEq, Repr

namespace Places

def inDirectory (config : Config) (directory : Path) : Places where
  data := directory / .ofString config.dataFile.1
  types := directory / .ofString config.typesFile.1
  searchIndex := directory / .ofString config.searchIndexFile.1
  schema := config.schemaFile.map fun n => directory / .ofString n

/-- The paths in the order in which they are written. -/
def paths (p : Places) : List Path := [p.data, p.types, p.searchIndex] ++ p.schema.toList

end Places

/-- The texts in the order in which they are written. -/
def Texts.list (t : Texts) : List CodeText := [t.data, t.types, t.searchIndex] ++ t.schema.toList

/-- The path beside a target where its text is staged; a path without a name has none. -/
def stagingPath? (target : Path) : Option Path :=
  if target.name = "" then none
  else some (target.parent / .ofString ("." ++ target.name ++ ".tmp"))

/-! ### Errors and events -/

def noOutputDirectory (directory : Path) : Error :=
  .artifactWrite "Cannot create output directory" directory.text (some .external)

def notWritten (target : Path) : Error :=
  .artifactWrite "Cannot write artifact" target.text (some .external)

def writtenEvent (directory : Path) (places : Places) : Log.Event :=
  { source := .emitter, level := .info, name := "artifacts_written"
    fields := [("output_dir", .text directory.text),
      ("files", .texts (places.paths.map Path.name))] }

/-! ### Steps -/

def prepare (directory : Path) : Session Unit := do
  match ← Session.attempt (FileSystem.Change.makeDirectories directory) with
  | .ok () => pure ()
  | .error .nulInPath => throw (.fault .nulInPath)
  | .error _ => Session.raise (noOutputDirectory directory)

/-- Stages a text for a target.  What a failed attempt has left is removed. -/
def stage (target : Path) (text : CodeText) : Session Path := do
  match stagingPath? target with
  | none => throw .unnamedPath
  | some staging =>
    match ← Session.writeText staging.text text with
    | .ok () => pure staging
    | .error .nulInPath => throw (.fault .nulInPath)
    | .error _ =>
      Session.change (FileSystem.Change.unlinkIfPresent staging.text)
      Session.raise (notWritten target)

def install (staged : Path × Path) : Session Unit := do
  match ← Session.attempt (FileSystem.Change.replace staged.1.text staged.2.text) with
  | .ok () => pure ()
  | .error _ => Session.raise (notWritten staged.2)

def cleanUp (staged : List Path) : Session Unit :=
  staged.forM fun p => Session.change (FileSystem.Change.unlinkIfPresent p.text)

/-- Stages a text for every target; what is staged comes along even with a failure. -/
def stageEach : List (Path × CodeText) → Session (List (Path × Path) × Option Failure)
  | [] => pure ([], none)
  | (target, text) :: rest => fun w =>
    match (stage target text).run.run w with
    | (.error f, w) => (.ok ([], some f), w)
    | (.ok staging, w) =>
      match (stageEach rest).run.run w with
      | (.ok (staged, f), w) => (.ok ((staging, target) :: staged, f), w)
      | (.error f, w) => (.error f, w)

def writeAll (artifacts : List (Path × CodeText)) : Session Unit := do
  let (staged, failure) ← stageEach artifacts
  let body : Session Unit := match failure with
    | some f => throw f
    | none => staged.forM install
  Session.finallyDo body (cleanUp (staged.map (·.1)))

def emit (config : Config) (c : Collection) (directory : Path) : Session Places := do
  let places := Places.inDirectory config directory
  prepare directory
  writeAll (places.paths.zip (texts config c).list)
  Session.lift (Traced.log (writtenEvent directory places))
  pure places

/-- Writes the JSON schema of a collection to a file, in a directory that is made if it
    is missing. -/
def exportSchema (target : Path) : Session Unit := do
  Session.change (FileSystem.Change.makeDirectories target.parent)
  match ← Session.writeText target.text (Json.document Schema.collectionSchema) with
  | .ok () => pure ()
  | .error f => throw (.fault f)

end WorkflowCatalog.Artifact
