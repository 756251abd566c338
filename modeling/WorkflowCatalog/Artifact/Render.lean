/-
  WorkflowCatalog/Artifact/Render.lean
  ====================================
  **The texts of the artifacts.**  A collection is written as a data module with its
  workflows, its search index and its tags as constants and with functions that
  look things up; next to it stand a module of type declarations, the search index
  on its own and, on request, the JSON schema of the collection.

  The data module is a fixed text with three JSON documents and the name of the types
  module in it.
-/
import WorkflowCatalog.Config.Basic
import WorkflowCatalog.Json.Writer
import WorkflowCatalog.Path.Basic
import WorkflowCatalog.Schema.Catalog
import WorkflowCatalog.Workflow.Json

namespace WorkflowCatalog.Artifact

open Text (CodeText)

structure Texts where
  data : CodeText
  types : CodeText
  searchIndex : CodeText
  /-- Absent if no schema is written. -/
  schema : Option CodeText
  deriving DecidableEq, Repr

/-! ### The data module -/

/-- The name under which the types module is imported. -/
def typesModule (config : Config) : String := "./" ++ (Path.ofString config.typesFile.1).stem

def importLine (config : Config) : String :=
  Schema.generatedHeader ++
    "import type \x7b SearchIndexEntry, Workflow, WorkflowCollection \x7d from \"" ++
    typesModule config ++ "\";"

def constant (name type : String) (value : Json) : CodeText :=
  ↑("export const " ++ name ++ ": " ++ type ++ " = ") ++ value.text ++ ↑";"

def collectionConstant : String :=
  "export const WORKFLOW_COLLECTION: WorkflowCollection = \x7b\n" ++
    "  workflows: WORKFLOWS,\n" ++
    "  search_index: SEARCH_INDEX,\n" ++
    "  tags: WORKFLOW_TAGS,\n" ++
    "\x7d;"

def lookupFunctions : List String :=
  ["export function getWorkflowBySlug(slug: string): Workflow | undefined \x7b\n" ++
      "  return WORKFLOWS.find((w) => w.slug === slug);\n" ++
      "\x7d",
    "export function getWorkflowsByTag(tag: string): Workflow[] \x7b\n" ++
      "  return WORKFLOWS.filter((w) => w.tags?.includes(tag) ?? false);\n" ++
      "\x7d",
    "export function searchWorkflows(query: string): Workflow[] \x7b\n" ++
      "  const lowerQuery = query.toLowerCase();\n" ++
      "  const matches = new Set(\n" ++
      "    SEARCH_INDEX.filter((entry) => entry.searchable_text.includes(lowerQuery)).map(\n" ++
      "      (entry) => entry.slug,\n" ++
      "    ),\n" ++
      "  );\n" ++
      "  return WORKFLOWS.filter((w) => matches.has(w.slug));\n" ++
      "\x7d"]

def dataSections (config : Config) (c : Collection) : List CodeText :=
  [↑(importLine config),
    constant "WORKFLOWS" "Workflow[]" c.workflowsJson,
    constant "SEARCH_INDEX" "SearchIndexEntry[]" c.searchIndexJson,
    constant "WORKFLOW_TAGS" "string[]" (.ofTexts c.tags),
    ↑collectionConstant] ++ lookupFunctions.map .ofString

def dataModule (config : Config) (c : Collection) : CodeText :=
  CodeText.join "\n\n" (dataSections config c) ++ ↑"\n"

/-! ### All artifacts -/

def texts (config : Config) (c : Collection) : Texts where
  data := dataModule config c
  types := Schema.declarations Schema.entities
  searchIndex := Json.document c.searchIndexJson
  schema := config.schemaFile.map fun _ => Json.document Schema.collectionSchema

end WorkflowCatalog.Artifact
