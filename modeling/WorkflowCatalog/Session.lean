/-
  WorkflowCatalog/Session.lean
  ============================
  **Operations that may change the file system.**  What an operation has changed before
  it fails stays changed, and so does its journal.
-/
import WorkflowCatalog.Failure
import WorkflowCatalog.FileSystem.Operations

namespace WorkflowCatalog

/-- What an operation works on: the file system, and the journal so far. -/
structure World where
  fs : FileSystem
  journal : List Log.Event

/-- An operation that may change the file system. -/
abbrev Session := ExceptT Failure (StateM World)

namespace Session

/-- An operation that only reads the file system. -/
def reading {α : Type} (f : FileSystem → Run α) : Session α := fun w =>
  let (r, journal) := (f w.fs).run.run w.journal
  (r, { w with journal })

/-- An operation that does not look at the file system. -/
def lift {α : Type} (r : Run α) : Session α := reading fun _ => r

def raise {α : Type} (e : Error) : Session α := lift (Run.raise e)

/-- A change of the file system, whose fault is kept as a value. -/
def attempt {α : Type} (c : FileSystem.Change α) : Session (Except FileSystem.Fault α) := fun w =>
  let (r, fs) := c.run.run w.fs
  (.ok r, { w with fs })

/-- A change of the file system, whose fault ends the operation. -/
def change {α : Type} (c : FileSystem.Change α) : Session α := do
  match ← attempt c with
  | .ok a => pure a
  | .error f => throw (.fault f)

/-- Writes a text to a file in UTF-8.  Opening the file succeeds or not; of a text that
    has no UTF-8 form nothing is written then. -/
def writeText (path : String) (text : Text.CodeText) : Session (Except FileSystem.Fault Unit) := do
  match ← attempt (FileSystem.Change.write path (text.utf8?.getD .empty)) with
  | .ok () => if text.utf8?.isSome then pure (.ok ()) else throw .notEncodable
  | .error f => pure (.error f)

/-- Does one thing and then another, which is done even if the first fails.  If both
    fail, the later failure counts. -/
def finallyDo {α : Type} (body : Session α) (afterwards : Session Unit) : Session α := fun w =>
  let (r, w) := body.run.run w
  let (s, w) := afterwards.run.run w
  match s with
  | .ok () => (r, w)
  | .error f => (.error f, w)

end Session

end WorkflowCatalog
