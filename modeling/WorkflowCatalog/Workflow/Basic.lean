/-
  WorkflowCatalog/Workflow/Basic.lean
  ===================================
  **Workflows.**  A manifest says little and leaves much out: what it says is a
  `RawWorkflow`, whose fields are all optional.  A `Workflow` is the canonical record
  made from it: it has a name, a command and a slug, and its arguments have names that
  are strings and not empty.  All other texts may hold halves of surrogate pairs.

  `Workflow.normalize` fills in what a manifest leaves out.  An argument list that is
  missing stays missing; only the `required` mark of an argument that is there gets a
  value.
-/
import WorkflowCatalog.Slug
import WorkflowCatalog.Text.CodePoint
import WorkflowCatalog.Validation.Basic

namespace WorkflowCatalog

open Text (CodeText)
open Validation (Mismatch Checked)

/-! ### What a manifest says -/

/-- An argument as a manifest declares it. -/
structure RawArgument where
  name : CodeText
  description : Option CodeText
  defaultValue : Option CodeText
  /-- Absent if the manifest does not say. -/
  required : Option Bool
  deriving DecidableEq, Repr

/-- A workflow as a manifest declares it. -/
structure RawWorkflow where
  name : Option CodeText
  command : Option CodeText
  description : Option CodeText
  tags : Option (List CodeText)
  arguments : Option (List RawArgument)
  sourceUrl : Option CodeText
  author : Option CodeText
  authorUrl : Option CodeText
  shells : Option (List CodeText)
  deriving DecidableEq, Repr

/-! ### Canonical records -/

structure WorkflowArgument where
  name : String
  description : Option CodeText
  defaultValue : Option CodeText
  required : Option Bool
  name_ne : name ≠ ""
  deriving DecidableEq, Repr

structure Workflow where
  name : CodeText
  command : CodeText
  description : Option CodeText
  tags : Option (List CodeText)
  arguments : Option (List WorkflowArgument)
  sourceUrl : Option CodeText
  author : Option CodeText
  authorUrl : Option CodeText
  shells : Option (List CodeText)
  slug : Slug
  deriving DecidableEq, Repr

namespace Workflow

/-! ### Normalisation -/

/-- A name that no argument can have. -/
def argumentNameMismatch (k : Validation.Kind) : Mismatch :=
  ⟨"WorkflowArgument", [⟨k, [.field "name"]⟩]⟩

/-- An argument that does not say whether it is required is required.  Its name must be
    a string that is not empty. -/
def normalizeArgument (a : RawArgument) : Except Mismatch WorkflowArgument :=
  match a.name.toString? with
  | none => .error (argumentNameMismatch .notUnicode)
  | some name =>
    if h : name = "" then .error (argumentNameMismatch .textTooShort)
    else
      .ok ⟨name, a.description, a.defaultValue, some (a.required.getD true), h⟩

/-- The arguments of a list, up to the first that cannot have its name. -/
def normalizeArguments : List RawArgument → Except Mismatch (List WorkflowArgument)
  | [] => .ok []
  | a :: rest => do
    let a ← normalizeArgument a
    return a :: (← normalizeArguments rest)

/-- The workflow of the manifest with a file name.  The slug comes from the file name
    alone, and it stands in for a missing name; a missing command is empty. -/
def normalize (raw : RawWorkflow) (filename : String) : Except Mismatch Workflow := do
  let arguments ← match raw.arguments with
    | some args => some <$> normalizeArguments args
    | none => pure none
  let slug := Slug.ofFilename filename
  return {
    name := raw.name.getD slug.text
    command := raw.command.getD ""
    description := raw.description
    tags := raw.tags
    arguments
    sourceUrl := raw.sourceUrl
    author := raw.author
    authorUrl := raw.authorUrl
    shells := raw.shells
    slug }

end Workflow

end WorkflowCatalog
