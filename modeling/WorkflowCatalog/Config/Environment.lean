/-
  WorkflowCatalog/Config/Environment.lean
  =======================================
  **Settings from the environment.**  Some settings can be given by variables of the
  environment, and values that a caller gives go before them.  A variable that is
  blank counts as missing.  What a variable says about a truth value is read at once,
  in fewer words than elsewhere; everything else is checked together with the values
  of the caller.
-/
import WorkflowCatalog.Config.Basic
import WorkflowCatalog.Failure

namespace WorkflowCatalog

open Validation
open Text (strip isBlank lowerString upperString)

abbrev Environment := List (String × String)

def Environment.value? (env : Environment) (name : String) : Option String :=
  (env.find? (·.1 == name)).map (·.2)

namespace Config

def variableStart : String := "WORKFLOW_CORE_"

/-- A setting that a variable can give. -/
structure Variable where
  setting : String
  /-- Is it a truth value? -/
  isTruth : Bool

/-- The settings that variables can give, in the order in which they are read. -/
def knownVariables : List Variable :=
  [⟨"strict_fields", true⟩, ⟨"reject_duplicate_arguments", true⟩, ⟨"max_workers", false⟩,
    ⟨"timeout_seconds", false⟩, ⟨"max_files", false⟩, ⟨"output_dir", false⟩]

def Variable.name (v : Variable) : String := variableStart ++ upperString v.setting

def truth? (raw : String) : Option Bool :=
  let w := lowerString (strip raw)
  if ["1", "true", "yes", "on"].contains w then some true
  else if ["0", "false", "no", "off"].contains w then some false
  else none

def Variable.read (v : Variable) (raw : String) : Run Json :=
  if v.isTruth then
    match truth? raw with
    | some b => pure (.bool b)
    | none =>
      Run.raise (.configuration ("Expected a boolean, got '" ++ raw ++ "'") (some v.name) none)
  else pure (.str (strip raw))

/-- The settings that the environment gives, in the order of the variables. -/
def readVariables (env : Environment) : List Variable → Run Members
  | [] => pure []
  | v :: rest =>
    match env.value? v.name with
    | none => readVariables env rest
    | some raw =>
      if strip raw = "" then readVariables env rest
      else do
        let value ← v.read raw
        return (v.setting, value) :: (← readVariables env rest)

def placeText (place : List Step) : String :=
  String.intercalate "." (place.map fun
    | .field name => name
    | .index n => toString n)

/-- The error of settings that cannot be used; it names the first that is wrong. -/
def invalid (problems : List Problem) : Error :=
  .configuration "Invalid compiler configuration"
    (problems.head?.map fun p => placeText p.place) (some .external)

def ofEnvironment (env : Environment) (overrides : Members) : Run Config := do
  let given ← readVariables env knownVariables
  match ofJson (.obj (Json.ofAssignments (given ++ overrides))) with
  | .ok c => pure c
  | .bad problems => Run.raise (invalid problems)

end Config

end WorkflowCatalog
