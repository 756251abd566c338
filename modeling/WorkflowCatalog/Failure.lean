/-
  WorkflowCatalog/Failure.lean
  ============================
  **How an operation can end without a result.**  An `Error` is foreseen by the library;
  the other failures are not errors of its own: data that does not fit a model, a
  scalar that has no value under its tag, a file system call that fails outside any
  handling, a path without a name where one is needed, a text that has no UTF-8 form,
  a tree that goes too deep, a wait that would be too long.
-/
import WorkflowCatalog.Error.Basic
import WorkflowCatalog.Yaml.Fault
import WorkflowCatalog.FileSystem.Basic

namespace WorkflowCatalog

inductive Failure where
  | error (e : Error)
  | mismatch (m : Validation.Mismatch)
  | broken (b : Yaml.Breakdown)
  | fault (f : FileSystem.Fault)
  | unnamedPath
  | notEncodable
  /-- A directory tree goes deeper than a search can go down. -/
  | tooDeep
  /-- Answers would have to be waited for longer than it is possible to wait. -/
  | waitTooLong
  deriving DecidableEq, Repr

abbrev Run := Traced Failure

namespace Run

/-- Ends with an error, whose detail is recorded. -/
def raise {α : Type} (e : Error) : Run α := do
  e.record
  throw (.error e)

/-- A result that may be a mismatch. -/
def ofChecked {α : Type} : Except Validation.Mismatch α → Run α
  | .ok a => pure a
  | .error m => throw (.mismatch m)

end Run

end WorkflowCatalog
