/-
  WorkflowCatalog/Error/Parse.lean
  ================================
  **The failure of one manifest.**  The cause says what kind of failure it is;
  `ParseError.reason` puts it into words and `ParseError.message` adds the place.  The
  name of an argument stands in the reason as the manifest has it, halves of
  surrogate pairs included.
-/
import WorkflowCatalog.Log
import WorkflowCatalog.Path.Basic

namespace WorkflowCatalog

open Text (CodeText)

inductive ParseCause where
  /-- Its text cannot be read. -/
  | unreadable (reason : String)
  /-- Its top level is not a mapping. -/
  | malformed (reason : String)
  /-- A field has the wrong shape. -/
  | fieldType (reason field : String)
  /-- Two arguments have one name. -/
  | duplicateArgument (name : CodeText)
  deriving DecidableEq, Repr

structure ParseError where
  cause : ParseCause
  /-- The path of the manifest, as it was given. -/
  file : String
  line : Option Int
  column : Option Int
  detail : Option Log.Detail
  deriving DecidableEq, Repr

namespace ParseError

def reason (e : ParseError) : CodeText :=
  match e.cause with
  | .unreadable r => r
  | .malformed r => r
  | .fieldType r f => ↑(r ++ ": field '" ++ f ++ "'")
  | .duplicateArgument n => ↑"Duplicate argument name '" ++ n ++ ↑"'"

def message (e : ParseError) : CodeText :=
  let place := ["in " ++ e.file] ++
    (e.line.map fun n => "line " ++ toString n).toList ++
    (e.column.map fun n => "column " ++ toString n).toList
  e.reason ++ ↑(" (" ++ String.intercalate ", " place ++ ")")

def path (e : ParseError) : Path := .ofString e.file

def kindName (e : ParseError) : String :=
  match e.cause with
  | .unreadable _ => "ParseError"
  | .malformed _ => "MalformedManifestError"
  | .fieldType .. => "FieldTypeError"
  | .duplicateArgument _ => "DuplicateArgumentError"

end ParseError

end WorkflowCatalog
