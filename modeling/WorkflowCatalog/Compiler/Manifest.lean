/-
  WorkflowCatalog/Compiler/Manifest.lean
  ======================================
  **From a manifest file to a workflow.**  The file holds UTF-8 text, in which every
  kind of line end counts as one.
-/
import WorkflowCatalog.Config.Basic
import WorkflowCatalog.FileSystem.Operations
import WorkflowCatalog.Manifest.Parse
import WorkflowCatalog.Text.Lines

namespace WorkflowCatalog.Compiler

def event (level : Log.Level) (name : String) (fields : List (String × Log.Field)) : Log.Event :=
  { source := .compiler, level, name, fields := ("component", .text "compiler") :: fields }

def unreadable (p : Path) : Error := .manifestIO "Cannot read manifest" p.text (some .external)

/-- The error of a file that holds no text. -/
def noText (p : Path) : Error :=
  .parse ⟨.unreadable "Manifest is not valid UTF-8 text", p.text, none, none, some .external⟩

def readText (fs : FileSystem) (p : Path) : Run String :=
  match fs.readBytes p.text with
  | .ok bytes =>
    match String.fromUTF8? bytes with
    | some s => pure (String.ofList (Text.unifyLineEnds s.toList))
    | none => Run.raise (noText p)
  | .error .nulInPath => throw (.fault .nulInPath)
  | .error _ => Run.raise (unreadable p)

def parseOptions (config : Config) : Manifest.Options where
  policy := if config.strictFields then .refuse else .drop
  uniqueArguments := config.uniqueArguments

def compileManifest (fs : FileSystem) (config : Config) (p : Path) : Run Workflow := do
  let text ← readText fs p
  let raw ← Manifest.parse (parseOptions config) p.text text
  let workflow ← Run.ofChecked (Workflow.normalize raw p.name)
  Traced.log (event .debug "manifest_parsed"
    [("file", .text p.text), ("slug", .text workflow.slug.text)])
  pure workflow

end WorkflowCatalog.Compiler
