/-
  WorkflowCatalog/Log.lean
  ========================
  **The journal of a run.**  What the library does that a caller may want to know of
  is recorded as events: who records it, how much it matters, what happened, and
  named details in a fixed order.

  `Traced ε α` is a computation that ends in a value or a failure and keeps its
  journal in either case.
-/
import WorkflowCatalog.Json.Basic

namespace WorkflowCatalog

open Text (CodeText)

namespace Log

inductive Level where
  | debug
  | info
  | warning
  | error
  | critical
  deriving DecidableEq, Repr

/-- The weight of a level; heavier events are shown first. -/
def Level.weight : Level → Nat
  | .debug => 10
  | .info => 20
  | .warning => 30
  | .error => 40
  | .critical => 50

def Level.name : Level → String
  | .debug => "debug"
  | .info => "info"
  | .warning => "warning"
  | .error => "error"
  | .critical => "critical"

/-- The part of the library that records an event. -/
inductive Source where
  | parser
  | discovery
  | compiler
  | emitter
  | errors
  deriving DecidableEq, Repr

def Source.name : Source → String
  | .parser => "workflow_core.compiler.parser"
  | .discovery => "workflow_core.compiler.discovery"
  | .compiler => "workflow_core.compiler.compiler"
  | .emitter => "workflow_core.emitter"
  | .errors => "workflow_core.errors"

/-- Technical detail of a problem: a text that a caller gave, or one that comes from
    below and whose wording is not fixed. -/
inductive Detail where
  | given (text : String)
  | external
  deriving DecidableEq, Repr

/-- The value of a named detail of an event. -/
inductive Field where
  | text (t : CodeText)
  | count (n : Nat)
  | texts (l : List String)
  | detail (d : Detail)
  deriving DecidableEq, Repr

structure Event where
  source : Source
  level : Level
  name : String
  fields : List (String × Field)
  deriving DecidableEq, Repr

/-- A detail as JSON; `external` is the text that stands for one of no fixed
    wording. -/
def Field.json (external : String) : Field → Json
  | .text t => .string t
  | .count n => .int n
  | .texts l => Json.ofStrings l
  | .detail (.given s) => .str s
  | .detail .external => .str external

end Log

/-- A computation with a journal, the newest event last. -/
abbrev Traced (ε : Type) := ExceptT ε (StateM (List Log.Event))

namespace Traced

def log {ε : Type} (e : Log.Event) : Traced ε Unit := modify (· ++ [e])

/-- The outcome and the journal of a computation that starts with an empty one. -/
def runFresh {ε α : Type} (t : Traced ε α) : Except ε α × List Log.Event := t.run.run []

/-- The outcome of a computation, kept as a value; the journal goes on. -/
def attempt {ε δ α : Type} (t : Traced ε α) : Traced δ (Except ε α) :=
  fun journal => let (r, journal) := t.run.run journal; (.ok r, journal)

end Traced

end WorkflowCatalog
