/-
  WorkflowCatalog/Manifest/Parse.lean
  ===================================
  **From the text of a manifest to what it declares.**  The text is a YAML document
  whose top level is a mapping.  On request, arguments that share a name are an error.
-/
import WorkflowCatalog.Manifest.Extraction
import WorkflowCatalog.Yaml.Load

namespace WorkflowCatalog.Manifest

open Text (CodeText)
open Yaml (Value)

/-- The parse error of a text that is no document. -/
def syntaxError (file problem : String) (place : Option Yaml.Mark) : Error :=
  .parse
    { cause := .unreadable ("Invalid YAML syntax: " ++ problem)
      file
      line := place.map fun m => m.line + 1
      column := place.map fun m => m.column + 1
      detail := some .external }

def faultError (file : String) : Yaml.Fault → Failure
  | .unprintable => .error (syntaxError file "could not parse document" none)
  | .invalid p m => .error (syntaxError file p.message (some m))
  | .unusable p =>
    .error (.parse ⟨.unreadable ("Invalid YAML value: " ++ p.message), file, none, none,
      some .external⟩)
  | .broken b => .broken b

def loadValue (file text : String) : Run Value :=
  match Yaml.load text with
  | .ok v => pure v
  | .error f =>
    match faultError file f with
    | .error e => Run.raise e
    | other => throw other

/-- The error of a document whose top level is not a mapping. -/
def malformedError (file : String) (v : Value) : Error :=
  let found := match v with
    | .null => "an empty document"
    | v => v.kindName
  .parse ⟨.malformed ("Manifest top level must be a mapping, got " ++ found), file, none, none, none⟩

/-- The first name that occurs in a list for the second time. -/
def firstRepeated? (seen : List CodeText) : List CodeText → Option CodeText
  | [] => none
  | n :: rest => if seen.contains n then some n else firstRepeated? (n :: seen) rest

/-- The name that two arguments share, if two do. -/
def repeatedArgument? (raw : RawWorkflow) : Option CodeText :=
  firstRepeated? [] ((raw.arguments.getD []).map (·.name))

/-- Fails if two arguments share a name. -/
def checkArguments (file : String) (raw : RawWorkflow) : Run Unit :=
  match repeatedArgument? raw with
  | some n => Run.raise (.parse ⟨.duplicateArgument n, file, none, none, none⟩)
  | none => pure ()

structure Options where
  policy : Policy
  /-- Are arguments that share a name an error? -/
  uniqueArguments : Bool

def parse (options : Options) (file text : String) : Run RawWorkflow := do
  match ← loadValue file text with
  | .mapping fields =>
    let raw ← extract ⟨file, options.policy⟩ fields
    if options.uniqueArguments then checkArguments file raw
    pure raw
  | v => Run.raise (malformedError file v)

end WorkflowCatalog.Manifest
