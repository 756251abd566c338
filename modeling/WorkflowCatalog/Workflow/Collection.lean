/-
  WorkflowCatalog/Workflow/Collection.lean
  ========================================
  **The collection: what a compilation produces.**  It holds the workflows in the
  order of their manifests, one search entry for each, and the tags in use.

  A collection is built from records, each a workflow and the path of its manifest.
  Two manifests that give the same slug collide, and then nothing is built
  (`Collection.build`); `collisions` lists all of them, each against the manifest that
  had the slug first.
-/
import WorkflowCatalog.Workflow.Search
import WorkflowCatalog.Ordered

namespace WorkflowCatalog

open Text (CodeText)

structure Collection where
  workflows : List Workflow
  searchIndex : List SearchEntry
  tags : List CodeText
  deriving DecidableEq, Repr

namespace Collection

/-- The collection without workflows. -/
def empty : Collection := ⟨[], [], []⟩

/-! ### Questions -/

/-- The first workflow with a slug. -/
def bySlug? (c : Collection) (slug : CodeText) : Option Workflow :=
  c.workflows.find? (CodeText.ofString ·.slug.text == slug)

/-- The workflows with a tag, in order. -/
def byTag (c : Collection) (tag : CodeText) : List Workflow :=
  c.workflows.filter fun w => (w.tags.getD []).contains tag

/-- The workflows whose search text holds the small form of a query, in order. -/
def search (c : Collection) (query : CodeText) : List Workflow :=
  let needle := query.lower
  let slugs := (c.searchIndex.filter fun e => needle.occursIn e.searchableText).map (·.slug)
  c.workflows.filter fun w => slugs.contains ↑w.slug.text

/-! ### Building -/

/-- A workflow and the path of its manifest. -/
structure Record where
  path : Path
  workflow : Workflow
  deriving DecidableEq, Repr

structure Collision where
  slug : Slug
  /-- The manifest that had the slug first. -/
  first : Path
  second : Path
  deriving DecidableEq, Repr

/-- The collisions of records, given the slugs that are taken and their owners. -/
def collisionsFrom (owners : List (Slug × Path)) : List Record → List Collision
  | [] => []
  | r :: rest =>
    match owners.find? (·.1 == r.workflow.slug) with
    | some (slug, owner) =>
      if owner = r.path then collisionsFrom owners rest
      else ⟨slug, owner, r.path⟩ :: collisionsFrom owners rest
    | none => collisionsFrom (owners ++ [(r.workflow.slug, r.path)]) rest

/-- Every record whose slug belongs to another path, in order. -/
def collisions (records : List Record) : List Collision := collisionsFrom [] records

/-- The tags of workflows, each once, in ascending order. -/
def collectTags (ws : List Workflow) : List CodeText :=
  -- lists are ordered as in the core library, whatever else is imported
  @sortBy _ _ List.instLE List.decidableLE CodeText.numbers
    (distinct (ws.flatMap fun w => w.tags.getD []))

/-- The collection of workflows without a collision. -/
def ofWorkflows (ws : List Workflow) : Collection :=
  ⟨ws, Workflow.searchIndex ws, collectTags ws⟩

/-- Builds the collection of records; the first collision stops it. -/
def build (records : List Record) : Except Collision Collection :=
  match collisions records with
  | c :: _ => .error c
  | [] => .ok (ofWorkflows (records.map (·.workflow)))

end Collection

end WorkflowCatalog
