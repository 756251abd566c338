/-
  WorkflowCatalog/Log/Output.lean
  ===============================
  **What of a journal is written, and how.**  The least level that is written is given
  by name, in capital or small letters, or else by the environment.  Every event from
  this level on becomes one line of JSON.
-/
import WorkflowCatalog.Config.Environment
import WorkflowCatalog.Json.Writer

namespace WorkflowCatalog.Log

open Text (upperString)

/-! ### The least level -/

/-- The levels and their names, the lightest first. -/
def namedLevels : List (String × Level) :=
  [("DEBUG", .debug), ("INFO", .info), ("WARNING", .warning), ("ERROR", .error),
    ("CRITICAL", .critical)]

def levelVariable : String := Config.variableStart ++ "LOG_LEVEL"

/-- The first text that is there and not empty. -/
def firstGiven : List (Option String) → Option String
  | [] => none
  | some s :: rest => if s = "" then firstGiven rest else some s
  | none :: rest => firstGiven rest

/-- The name of the least level, in capital letters. -/
def levelName (level : Option String) (env : Environment) : String :=
  upperString ((firstGiven [level, env.value? levelVariable]).getD "INFO")

/-- The error of a name that is no level. -/
def unknownLevel (name : String) : Error :=
  .configuration
    ("Unknown log level '" ++ name ++ "', expected one of " ++
      String.intercalate ", " (namedLevels.map (·.1)))
    (some levelVariable) none

/-- The least level that is written. -/
def leastLevel (level : Option String) (env : Environment) : Run Level :=
  let name := levelName level env
  match namedLevels.find? (·.1 == name) with
  | some l => pure l.2
  | none => Run.raise (unknownLevel name)

/-! ### Lines -/

/-- The time of an event, if times are written. -/
def stampMember (stamp : Option String) : List (String × Json) :=
  match stamp with
  | some s => [("timestamp", .str s)]
  | none => []

def Event.line (stamp : Option String) (external : String) (e : Event) : String :=
  Json.line (.obj (e.fields.map (fun f => (f.1, f.2.json external)) ++ [("event", .str e.name)] ++
    stampMember stamp ++ [("level", .str e.level.name), ("logger", .str e.source.name)]))

/-- The lines of the events that are not below a level. -/
def lines (least : Level) (stamp : Option String) (external : String) (events : List Event) :
    List String :=
  (events.filter fun e => decide (least.weight ≤ e.level.weight)).map (Event.line stamp external)

end WorkflowCatalog.Log
