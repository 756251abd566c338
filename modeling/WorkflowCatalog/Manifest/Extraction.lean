/-
  WorkflowCatalog/Manifest/Extraction.lean
  ========================================
  **The fields of a manifest.**  Every field is optional and unknown fields are passed
  over.  A scalar is taken as its text, whatever kind of scalar it is.

  A field of the wrong shape is treated by a policy: it is dropped and the fact
  recorded, or it is refused and the manifest with it.  Both policies look at the
  fields in one fixed order, so the first field that one of them drops is the one
  that the other refuses.
-/
import WorkflowCatalog.Failure
import WorkflowCatalog.Workflow.Basic
import WorkflowCatalog.Yaml.Value

namespace WorkflowCatalog.Manifest

open Text (CodeText)
open Yaml (Value)

/-- What becomes of a field of the wrong shape. -/
inductive Policy where
  | drop
  | refuse
  deriving DecidableEq, Repr

structure Source where
  /-- Its path, as it was given. -/
  file : String
  policy : Policy

def droppedEvent (file field reason : String) : Log.Event :=
  { source := .parser, level := .warning, name := "manifest_field_dropped"
    fields := [("file", .text file), ("field", .text field), ("reason", .text reason)] }

def fieldError (file field reason : String) : Error :=
  .parse ⟨.fieldType reason field, file, none, none, none⟩

def reject (src : Source) (field reason : String) : Run Unit :=
  match src.policy with
  | .refuse => Run.raise (fieldError src.file field reason)
  | .drop => Traced.log (droppedEvent src.file field reason)

/-- The text of a value, if it is a scalar. -/
def textOf? (v : Value) : Run (Option CodeText) :=
  match v.scalarText? with
  | .ok t => pure t
  | .error b => throw (.broken b)

def scalar (src : Source) (field : String) (v : Value) : Run (Option CodeText) := do
  match v with
  | .null => pure none
  | v =>
    match ← textOf? v with
    | some t => pure (some t)
    | none =>
      reject src field ("Expected a scalar, got " ++ v.kindName)
      pure none

def itemField (field : String) (i : Nat) : String := field ++ "." ++ toString i

/-- The scalars of a list, its first item under the number `i`. -/
def texts (src : Source) (field : String) : Nat → List Value → Run (List CodeText)
  | _, [] => pure []
  | i, v :: rest => do
    match ← textOf? v with
    | some t => return t :: (← texts src field (i + 1) rest)
    | none =>
      reject src (itemField field i) "Expected a scalar list item"
      texts src field (i + 1) rest

def textList (src : Source) (field : String) (v : Value) : Run (Option (List CodeText)) := do
  match v with
  | .null => pure none
  | .list items => some <$> texts src field 0 items
  | v =>
    reject src field ("Expected a list, got " ++ v.kindName)
    pure none

def requiredMark (src : Source) (field : String) (v : Value) : Run (Option Bool) := do
  match v with
  | .null => pure none
  | .bool b => pure (some b)
  | _ =>
    reject src field "Expected a boolean"
    pure none

/-- An argument; one without a name is rejected as a whole. -/
def argument (src : Source) (field : String) (v : Value) : Run (Option RawArgument) := do
  match v with
  | .mapping fields =>
    let name := (← scalar src (field ++ ".name") (Value.field "name" fields)).getD ⟨[]⟩
    if name.isEmpty then
      reject src (field ++ ".name") "Argument name is missing"
      pure none
    else
      let required ← requiredMark src (field ++ ".required") (Value.field "required" fields)
      let description ←
        scalar src (field ++ ".description") (Value.field "description" fields)
      let defaultValue ←
        scalar src (field ++ ".default_value") (Value.field "default_value" fields)
      pure (some ⟨name, description, defaultValue, required⟩)
  | v =>
    reject src field ("Expected a mapping, got " ++ v.kindName)
    pure none

/-- The arguments of a list, its first item under the number `i`. -/
def argumentItems (src : Source) : Nat → List Value → Run (List RawArgument)
  | _, [] => pure []
  | i, v :: rest => do
    match ← argument src (itemField "arguments" i) v with
    | some a => return a :: (← argumentItems src (i + 1) rest)
    | none => argumentItems src (i + 1) rest

def arguments (src : Source) (v : Value) : Run (Option (List RawArgument)) := do
  match v with
  | .null => pure none
  | .list items => some <$> argumentItems src 0 items
  | v =>
    reject src "arguments" ("Expected a list, got " ++ v.kindName)
    pure none

def extract (src : Source) (fields : List (String × Value)) : Run RawWorkflow := do
  let scalarAt (name : String) := scalar src name (Value.field name fields)
  let name ← scalarAt "name"
  let command ← scalarAt "command"
  let description ← scalarAt "description"
  let sourceUrl ← scalarAt "source_url"
  let author ← scalarAt "author"
  let authorUrl ← scalarAt "author_url"
  let tags ← textList src "tags" (Value.field "tags" fields)
  let shells ← textList src "shells" (Value.field "shells" fields)
  let arguments ← arguments src (Value.field "arguments" fields)
  return { name, command, description, tags, arguments, sourceUrl, author, authorUrl, shells }

end WorkflowCatalog.Manifest
