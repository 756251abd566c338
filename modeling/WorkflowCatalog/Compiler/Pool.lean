/-
  WorkflowCatalog/Compiler/Pool.lean
  ==================================
  **A pool of manifests under work.**  Several manifests may be worked on at a time, and
  their answers arrive in any order.  The pool has a slot for every manifest; an
  answer goes into the slot of its manifest, whenever it comes.

  A failure that spoils one manifest only is kept as its outcome.  Any other failure
  ends the run, and so does an unreadable manifest if the run is to stop for it.
-/
import WorkflowCatalog.Failure
import WorkflowCatalog.Workflow.Basic

namespace WorkflowCatalog.Compiler

/-- What became of a manifest: a workflow, or the error that spoils it. -/
abbrev Outcome := Except Error Workflow

/-- The outcome that an answer amounts to, unless it ends the run. -/
def settle (stopIfUnreadable : Bool) : Except Failure Workflow → Except Failure Outcome
  | .ok w => .ok (.ok w)
  | .error (.error (.parse e)) => .ok (.error (.parse e))
  | .error (.error (.manifestIO reason path detail)) =>
    if stopIfUnreadable then .error (.error (.manifestIO reason path detail))
    else .ok (.error (.manifestIO reason path detail))
  | .error f => .error f

structure Pool where
  /-- The manifests, in order. -/
  paths : List Path
  /-- A slot for each manifest. -/
  slots : List (Option Outcome)
  /-- The numbers of the manifests without an answer. -/
  pending : List Nat

namespace Pool

/-- The pool before the first answer. -/
def start (paths : List Path) : Pool where
  paths
  slots := paths.map fun _ => none
  pending := List.range paths.length

/-- The pool after the answer for a manifest. -/
def accept (stopIfUnreadable : Bool) (pool : Pool) (number : Nat)
    (answer : Except Failure Workflow) : Except Failure Pool := do
  let outcome ← settle stopIfUnreadable answer
  return { pool with
    slots := pool.slots.set number (some outcome)
    pending := pool.pending.erase number }

/-- The manifests that have an outcome, each with it, in order. -/
def outcomes (pool : Pool) : List (Path × Outcome) :=
  (pool.paths.zip pool.slots).filterMap fun p => p.2.map (p.1, ·)

end Pool

end WorkflowCatalog.Compiler
