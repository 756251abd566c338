/-
  WorkflowCatalog/Workflow/Json.lean
  ==================================
  **Workflows and their collection as JSON.**  Every record is an object that lists all
  of its fields, in a fixed order, with null for what is absent.

  `ofJson` reads the same objects.  It is more generous: fields that may be absent may
  be left out, and truth values may be given as numbers or words.
-/
import WorkflowCatalog.Workflow.Collection
import WorkflowCatalog.Validation.Scalar

namespace WorkflowCatalog

open Text (CodeText)
open Validation

/-! ### What a manifest says -/

def RawArgument.toJson (a : RawArgument) : Json :=
  .obj [("name", .string a.name), ("description", .ofText? a.description),
    ("default_value", .ofText? a.defaultValue), ("required", .ofBool? a.required)]

def RawArgument.ofJson (v : Json) : Checked RawArgument :=
  object ["name", "description", "default_value", "required"] v fun ms =>
    RawArgument.mk
      <$> field ms "name" codeText
      <*> fieldOr ms "description" none (nullable codeText)
      <*> fieldOr ms "default_value" none (nullable codeText)
      <*> fieldOr ms "required" none (nullable bool)

/-- The fields of a manifest, in order. -/
def RawWorkflow.fieldNames : List String :=
  ["name", "command", "description", "tags", "arguments", "source_url", "author", "author_url",
    "shells"]

def RawWorkflow.toJson (w : RawWorkflow) : Json :=
  .obj [("name", .ofText? w.name), ("command", .ofText? w.command),
    ("description", .ofText? w.description), ("tags", .ofTexts? w.tags),
    ("arguments", match w.arguments with
      | some l => .arr (l.map RawArgument.toJson)
      | none => .null),
    ("source_url", .ofText? w.sourceUrl), ("author", .ofText? w.author),
    ("author_url", .ofText? w.authorUrl), ("shells", .ofTexts? w.shells)]

def RawWorkflow.ofJson (v : Json) : Checked RawWorkflow :=
  object RawWorkflow.fieldNames v fun ms =>
    RawWorkflow.mk
      <$> fieldOr ms "name" none (nullable codeText)
      <*> fieldOr ms "command" none (nullable codeText)
      <*> fieldOr ms "description" none (nullable codeText)
      <*> fieldOr ms "tags" none (nullable (list codeText))
      <*> fieldOr ms "arguments" none (nullable (list RawArgument.ofJson))
      <*> fieldOr ms "source_url" none (nullable codeText)
      <*> fieldOr ms "author" none (nullable codeText)
      <*> fieldOr ms "author_url" none (nullable codeText)
      <*> fieldOr ms "shells" none (nullable (list codeText))

/-! ### Workflows -/

def WorkflowArgument.toJson (a : WorkflowArgument) : Json :=
  .obj [("name", .str a.name), ("description", .ofText? a.description),
    ("default_value", .ofText? a.defaultValue), ("required", .ofBool? a.required)]

/-- Reads an argument, which must have a name. -/
def WorkflowArgument.ofJson (v : Json) : Checked WorkflowArgument :=
  object ["name", "description", "default_value", "required"] v fun ms =>
    (fun (n : SomeText) d value r => WorkflowArgument.mk n.1 d value r n.2)
      <$> field ms "name" someText
      <*> fieldOr ms "description" none (nullable codeText)
      <*> fieldOr ms "default_value" none (nullable codeText)
      <*> fieldOr ms "required" none (nullable bool)

def Slug.ofJson (v : Json) : Checked Slug :=
  (Validation.text v).andThen fun s =>
    match Slug.ofString? s with
    | some slug => .ok slug
    | none => .problem .textPattern

def Workflow.toJson (w : Workflow) : Json :=
  .obj [("name", .string w.name), ("command", .string w.command),
    ("description", .ofText? w.description), ("tags", .ofTexts? w.tags),
    ("arguments", match w.arguments with
      | some l => .arr (l.map WorkflowArgument.toJson)
      | none => .null),
    ("source_url", .ofText? w.sourceUrl), ("author", .ofText? w.author),
    ("author_url", .ofText? w.authorUrl), ("shells", .ofTexts? w.shells),
    ("slug", .str w.slug.text)]

def Workflow.ofJson (v : Json) : Checked Workflow :=
  object (RawWorkflow.fieldNames ++ ["slug"]) v fun ms =>
    Workflow.mk
      <$> field ms "name" codeText
      <*> field ms "command" codeText
      <*> fieldOr ms "description" none (nullable codeText)
      <*> fieldOr ms "tags" none (nullable (list codeText))
      <*> fieldOr ms "arguments" none (nullable (list WorkflowArgument.ofJson))
      <*> fieldOr ms "source_url" none (nullable codeText)
      <*> fieldOr ms "author" none (nullable codeText)
      <*> fieldOr ms "author_url" none (nullable codeText)
      <*> fieldOr ms "shells" none (nullable (list codeText))
      <*> field ms "slug" Slug.ofJson

/-! ### Collections -/

def SearchEntry.toJson (e : SearchEntry) : Json :=
  .obj [("slug", .string e.slug), ("name", .string e.name),
    ("description", .string e.description), ("tags", .ofTexts e.tags),
    ("command", .string e.command), ("author", .ofText? e.author),
    ("searchable_text", .string e.searchableText)]

def SearchEntry.ofJson (v : Json) : Checked SearchEntry :=
  object ["slug", "name", "description", "tags", "command", "author", "searchable_text"] v fun ms =>
    SearchEntry.mk
      <$> field ms "slug" codeText
      <*> field ms "name" codeText
      <*> fieldOr ms "description" "" codeText
      <*> fieldOr ms "tags" [] (list codeText)
      <*> field ms "command" codeText
      <*> fieldOr ms "author" none (nullable codeText)
      <*> field ms "searchable_text" codeText

namespace Collection

def workflowsJson (c : Collection) : Json := .arr (c.workflows.map Workflow.toJson)

def searchIndexJson (c : Collection) : Json := .arr (c.searchIndex.map SearchEntry.toJson)

def toJson (c : Collection) : Json :=
  .obj [("workflows", c.workflowsJson), ("search_index", c.searchIndexJson),
    ("tags", .ofTexts c.tags)]

def ofJson (v : Json) : Checked Collection :=
  object ["workflows", "search_index", "tags"] v fun ms =>
    Collection.mk
      <$> fieldOr ms "workflows" [] (list Workflow.ofJson)
      <*> fieldOr ms "search_index" [] (list SearchEntry.ofJson)
      <*> fieldOr ms "tags" [] (list codeText)

end Collection

end WorkflowCatalog
