/-
  WorkflowCatalog/Compiler/Basic.lean
  ===================================
  **Compiling and validating a tree of manifests.**  Both work on every manifest, in the
  order of their paths.  `compile` makes a collection of them, unless one cannot be
  used or two collide; `validate` lists what `compile` would complain about.
-/
import WorkflowCatalog.Compiler.Manifest
import WorkflowCatalog.Compiler.Pool
import WorkflowCatalog.Manifest.Discovery
import WorkflowCatalog.Workflow.Collection

namespace WorkflowCatalog.Compiler

open Manifest (sortPaths)

/-! ### Running -/

/-- A time limit below two to this power, in seconds, is over before any manifest has
    been worked on. -/
def instantPower : Int := -16

def isOverAtOnce (config : Config) : Bool := config.timeLimit.1.belowPower instantPower

/-- The longest time that can be waited at once, in millionths of a second: what a machine
    integer holds in thousandths of them. -/
def longestWait : Nat := 9223372036854775

/-- Is the time limit longer than can be waited?  Then the first wait for an answer fails. -/
def isTooLong (config : Config) : Bool := config.timeLimit.1.exceeds longestWait 1000000

def timeIsUp (config : Config) (pool : Pool) : Error :=
  .timeLimit (.exact config.timeLimit.1) pool.pending.length

/-- Works on numbered manifests one after the other. -/
def workOff (answer : Path → Run Workflow) (stopIfUnreadable : Bool) :
    List (Path × Nat) → Pool → Run Pool
  | [], pool => pure pool
  | (p, number) :: rest, pool => do
    let a ← Traced.attempt (answer p)
    match pool.accept stopIfUnreadable number a with
    | .ok pool => workOff answer stopIfUnreadable rest pool
    | .error f => throw f

/-- Paths in order, each once. -/
def arrange (paths : List Path) : List Path := distinct (sortPaths paths)

/-- The outcomes of manifests, in the order of their paths.  The answers are waited for: none
    is there before. -/
def run (fs : FileSystem) (config : Config) (stopIfUnreadable : Bool) (paths : List Path) :
    Run (List (Path × Outcome)) := do
  let ordered := arrange paths
  if ordered.isEmpty then pure []
  else
    let pool := Pool.start ordered
    if isOverAtOnce config then Run.raise (timeIsUp config pool)
    else if isTooLong config then throw .waitTooLong
    else
      let pool ← workOff (compileManifest fs config) stopIfUnreadable ordered.zipIdx pool
      pure pool.outcomes

def discover (fs : FileSystem) (config : Config) (directory : Path) : Run (List Path) :=
  Manifest.discover ⟨fs, directory, config.suffixes, config.maxFiles.1, config.followLinks⟩

/-! ### Outcomes -/

def records (outcomes : List (Path × Outcome)) : List Collection.Record :=
  outcomes.filterMap fun o => o.2.toOption.map (⟨o.1, ·⟩)

def parseErrors (outcomes : List (Path × Outcome)) : List ParseError :=
  outcomes.filterMap fun o =>
    match o.2 with
    | .error (.parse e) => some e
    | _ => none

def failures (outcomes : List (Path × Outcome)) : List (Path × Error) :=
  outcomes.filterMap fun o =>
    match o.2 with
    | .error e => some (o.1, e)
    | .ok _ => none

def collisionError (c : Collection.Collision) : Error :=
  .duplicateSlug c.slug.text c.first.text c.second.text

/-! ### Compiling -/

def failedEvent (failed compiled : Nat) : Log.Event :=
  event .error "compilation_failed" [("failed", .count failed), ("compiled", .count compiled)]

def completeEvent (c : Collection) : Log.Event :=
  event .info "compilation_complete"
    [("workflows", .count c.workflows.length), ("tags", .count c.tags.length)]

def compilePaths (fs : FileSystem) (config : Config) (paths : List Path) : Run Collection := do
  let outcomes ← run fs config true paths
  let good := records outcomes
  let bad := parseErrors outcomes
  if bad.isEmpty then
    match Collection.build good with
    | .error c => Run.raise (collisionError c)
    | .ok c =>
      Traced.log (completeEvent c)
      pure c
  else
    Traced.log (failedEvent bad.length good.length)
    let e ← Run.ofChecked (Error.ofParseErrors bad (good.map fun r => r.workflow.name))
    Run.raise e

def compile (fs : FileSystem) (config : Config) (directory : Path) : Run Collection := do
  compilePaths fs config (← discover fs config directory)

/-! ### Validating -/

def validatedEvent (manifests problems : Nat) : Log.Event :=
  event .info "validation_complete"
    [("manifests", .count manifests), ("problems", .count problems)]

/-- The problems of manifests, in the order of their paths; two manifests with one slug
    are a problem of the later. -/
def problemsOf (outcomes : List (Path × Outcome)) : List (Path × Error) :=
  let collisions := Collection.collisions (records outcomes)
  sortBy (fun p => p.1.text)
    (failures outcomes ++ collisions.map fun c => (c.second, collisionError c))

def validate (fs : FileSystem) (config : Config) (directory : Path) :
    Run (List (Path × Error)) := do
  let outcomes ← run fs config false (← discover fs config directory)
  let problems := problemsOf outcomes
  Traced.log (validatedEvent outcomes.length problems.length)
  pure problems

end WorkflowCatalog.Compiler
