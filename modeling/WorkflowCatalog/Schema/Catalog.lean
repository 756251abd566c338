/-
  WorkflowCatalog/Schema/Catalog.lean
  ===================================
  **The entities of a collection, and the documents that describe them.**  The list of
  entities is kept by hand, apart from the records themselves, so that what others
  rely on does not change by accident.

  `declarations` is a module of type declarations; `collectionSchema` is a JSON schema
  whose root is the collection and which holds the schema of every entity.
-/
import WorkflowCatalog.Schema.Basic

namespace WorkflowCatalog.Schema

/-! ### Entities -/

def textOrNull : ValueType := .text true

def texts : ValueType := .listOf (.text false)

def argumentEntity : Entity where
  name := "WorkflowArgument"
  description := "A named parameter accepted by a workflow."
  fields :=
    [⟨"name", .text false, "Argument name"⟩,
      ⟨"description", textOrNull, "Argument description"⟩,
      ⟨"default_value", textOrNull, "Default value"⟩,
      ⟨"required", .truth true, "Whether the argument must be supplied"⟩]

def workflowEntity : Entity where
  name := "Workflow"
  description := "A compiled workflow."
  fields :=
    [⟨"name", .text false, "Display name"⟩,
      ⟨"command", .text false, "Command template"⟩,
      ⟨"description", textOrNull, "Description"⟩,
      ⟨"tags", texts.orNull, "Tags"⟩,
      ⟨"arguments", .list (.reference "WorkflowArgument" false) true, "Accepted arguments"⟩,
      ⟨"source_url", textOrNull, "Source link"⟩,
      ⟨"author", textOrNull, "Author"⟩,
      ⟨"author_url", textOrNull, "Author link"⟩,
      ⟨"shells", texts.orNull, "Compatible shells"⟩,
      ⟨"slug", .text false, "Unique identifier"⟩]

def searchEntryEntity : Entity where
  name := "SearchIndexEntry"
  description := "Search projection of a workflow."
  fields :=
    [⟨"slug", .text false, "Workflow slug"⟩,
      ⟨"name", .text false, "Display name"⟩,
      ⟨"description", .text false, "Description"⟩,
      ⟨"tags", texts, "Tags"⟩,
      ⟨"command", .text false, "Command template"⟩,
      ⟨"author", textOrNull, "Author"⟩,
      ⟨"searchable_text", .text false, "Lower-cased search text"⟩]

def collectionEntity : Entity where
  name := "WorkflowCollection"
  description := "Every compiled workflow with its search index and tags."
  fields :=
    [⟨"workflows", .listOf (.reference "Workflow" false), "Compiled workflows"⟩,
      ⟨"search_index", .listOf (.reference "SearchIndexEntry" false), "Search index entries"⟩,
      ⟨"tags", texts, "Unique tags"⟩]

/-- All entities; one that another refers to comes before it. -/
def entities : List Entity := [argumentEntity, workflowEntity, searchEntryEntity, collectionEntity]

/-! ### Declarations -/

/-- The first line of every artifact that is a module. -/
def generatedHeader : String := "// Auto-generated by workflow-core. Do not edit.\n"

def declarations (es : List Entity) : String :=
  generatedHeader ++ "\n" ++ String.intercalate "\n\n" (es.map Entity.declaration) ++ "\n"

/-! ### The schema of a collection -/

def definitions : List (String × Json) := entities.map fun e => (e.name, e.schema)

def collectionSchema : Json :=
  .obj ([("$schema", .str "https://json-schema.org/draft/2020-12/schema"),
      ("$id", .str "https://workflow-core.dev/schemas/workflow-collection.schema.json"),
      ("title", .str collectionEntity.name)] ++
    collectionEntity.schemaMembers ++ [("$defs", .obj definitions)])

end WorkflowCatalog.Schema
