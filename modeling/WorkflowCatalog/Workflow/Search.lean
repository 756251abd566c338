/-
  WorkflowCatalog/Workflow/Search.lean
  ====================================
  **The search projection of a workflow.**  A workflow is searched by one text in small
  letters: name, description, tags, command and author with single spaces between
  them, in this order; what is missing counts as empty.
-/
import WorkflowCatalog.Workflow.Basic

namespace WorkflowCatalog

open Text (CodeText)

/-- What the search knows of a workflow. -/
structure SearchEntry where
  slug : CodeText
  name : CodeText
  description : CodeText
  tags : List CodeText
  command : CodeText
  author : Option CodeText
  searchableText : CodeText
  deriving DecidableEq, Repr

namespace Workflow

def searchedFields (w : Workflow) : CodeText :=
  CodeText.join " "
    [w.name, w.description.getD "", CodeText.join " " (w.tags.getD []), w.command,
     w.author.getD ""]

/-- The text by which a workflow is found. -/
def searchableText (w : Workflow) : CodeText := w.searchedFields.lower

def searchEntry (w : Workflow) : SearchEntry where
  slug := w.slug.text
  name := w.name
  description := w.description.getD ""
  tags := w.tags.getD []
  command := w.command
  author := w.author
  searchableText := w.searchableText

/-- One entry for each workflow, in order. -/
def searchIndex (ws : List Workflow) : List SearchEntry := ws.map searchEntry

end Workflow

end WorkflowCatalog
