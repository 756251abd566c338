/-
  WorkflowCatalog/Error/Basic.lean
  ================================
  **All errors of the library.**  A `ParseError` spoils one manifest; every other error
  spoils the run.  An error may carry technical detail, which is recorded in the
  journal when the error arises (`Error.event?`) and is not part of the message.
-/
import WorkflowCatalog.Error.Issue
import WorkflowCatalog.Decimal.Layout

namespace WorkflowCatalog

open Validation (Mismatch)
open Decimal (Binary64)
open Text (CodeText)

inductive Seconds where
  | whole (n : Int)
  | exact (x : Binary64)
  deriving DecidableEq, Repr

/-- A time limit in at most six digits. -/
def Seconds.text : Seconds → String
  | .whole n => (Binary64.ofInt n).limitText
  | .exact x => x.limitText

/-- What can go wrong by the rules of the library.  Paths are kept as they were
    given. -/
inductive Error where
  | general (message : String) (detail : Option Log.Detail)
  | configuration (reason : String) (setting : Option String) (detail : Option Log.Detail)
  | parse (e : ParseError)
  | compilation (message : String) (detail : Option Log.Detail)
  /-- Some manifests cannot be used; `compiled` names the workflows of the others. -/
  | manifests (errors : List ParseError) (issues : List Issue) (compiled : List CodeText)
  | duplicateSlug (slug first second : String)
  | tooManyManifests (directory : String) (most : Int)
  | timeLimit (limit : Seconds) (pending : Int)
  | manifestIO (reason path : String) (detail : Option Log.Detail)
  | artifactWrite (reason path : String) (detail : Option Log.Detail)
  deriving DecidableEq, Repr

namespace Error

def message : Error → CodeText
  | .general m _ => m
  | .configuration r s _ =>
    match s with
    | some s => if s = "" then r else ↑(r ++ " (setting '" ++ s ++ "')")
    | none => r
  | .parse e => e.message
  | .compilation m _ => m
  | .manifests errors _ _ =>
    ↑(toString errors.length ++ (if errors.length = 1 then " manifest" else " manifests") ++
      " failed to parse")
  | .duplicateSlug slug first second =>
    ↑("Duplicate workflow slug '" ++ slug ++ "': " ++ first ++ " and " ++ second)
  | .tooManyManifests directory most =>
    ↑("More than " ++ toString most ++ " manifests found under " ++ directory)
  | .timeLimit limit pending =>
    ↑("Compilation exceeded " ++ limit.text ++ "s with " ++ toString pending ++
      " manifests pending")
  | .manifestIO r path _ => ↑(r ++ ": " ++ path)
  | .artifactWrite r path _ => ↑(r ++ ": " ++ path)

def detail? : Error → Option Log.Detail
  | .general _ d => d
  | .configuration _ _ d => d
  | .parse e => e.detail
  | .compilation _ d => d
  | .manifestIO _ _ d => d
  | .artifactWrite _ _ d => d
  | _ => none

/-- The kinds that an error belongs to, the narrowest first. -/
def kindNames : Error → List String
  | .general .. => ["WorkflowError"]
  | .configuration .. => ["ConfigurationError", "WorkflowError"]
  | .parse e =>
    match e.cause with
    | .unreadable _ => ["ParseError", "WorkflowError"]
    | _ => [e.kindName, "ParseError", "WorkflowError"]
  | .compilation .. => ["CompilationError", "WorkflowError"]
  | .manifests .. => ["ManifestParseErrors", "CompilationError", "WorkflowError"]
  | .duplicateSlug .. => ["DuplicateSlugError", "CompilationError", "WorkflowError"]
  | .tooManyManifests .. => ["DiscoveryLimitError", "CompilationError", "WorkflowError"]
  | .timeLimit .. => ["CompilationTimeoutError", "CompilationError", "WorkflowError"]
  | .manifestIO .. => ["ManifestIOError", "WorkflowError"]
  | .artifactWrite .. => ["ArtifactWriteError", "ManifestIOError", "WorkflowError"]

def kindName (e : Error) : String := e.kindNames.headD ""

def hasDetail : Option Log.Detail → Bool
  | some (.given s) => s != ""
  | some .external => true
  | none => false

/-- The event that records the technical detail of an error, if it has any. -/
def event? (e : Error) : Option Log.Event :=
  match e.detail? with
  | some d =>
    if hasDetail (some d) then
      some
        { source := .errors, level := .error, name := "workflow_error"
          fields := [("error_type", .text e.kindName), ("user_message", .text e.message),
            ("internal_details", .detail d)] }
    else none
  | none => none

def record {ε : Type} (e : Error) : Traced ε Unit :=
  match e.event? with
  | some event => Traced.log event
  | none => pure ()

/-- The error of manifests that cannot be used.  Each is shown as an issue. -/
def ofParseErrors (errors : List ParseError) (compiled : List CodeText) :
    Except Mismatch Error := do
  return .manifests errors (← errors.mapM Issue.ofError) compiled

end Error

end WorkflowCatalog
