/-
  WorkflowCatalog/Compiler/Build.lean
  ===================================
  **Building: compiling a directory tree and writing the artifacts.**  Nothing is written
  unless the compilation succeeds.
-/
import WorkflowCatalog.Artifact.Emit
import WorkflowCatalog.Compiler.Basic

namespace WorkflowCatalog.Compiler

structure Built where
  collection : Collection
  places : Artifact.Places
  deriving DecidableEq, Repr

def outputDirectory (config : Config) (given : Option String) : Path :=
  .ofString (given.getD config.outputDirectory.1)

def build (config : Config) (directory : Path) (given : Option String) : Session Built := do
  let collection ← Session.reading fun fs => compile fs config directory
  let places ← Artifact.emit config collection (outputDirectory config given)
  pure ⟨collection, places⟩

end WorkflowCatalog.Compiler
