/-
  WorkflowCatalog/Schema/Basic.lean
  =================================
  **Types of values and entities.**  A `ValueType` is a text, a truth value, a list or
  an entity by its name, and it may admit null.  An `Entity` is an object type: a list
  of fields with their types.

  A type has two renderings, one as a type expression (`ValueType.expression`) and
  one as a JSON schema (`ValueType.schema`); an entity has the corresponding two.
-/
import WorkflowCatalog.Json.Basic

namespace WorkflowCatalog.Schema

inductive ValueType where
  | text (nullable : Bool)
  | truth (nullable : Bool)
  | list (items : ValueType) (nullable : Bool)
  | reference (entity : String) (nullable : Bool)
  deriving DecidableEq, Repr, Inhabited

structure Field where
  name : String
  type : ValueType
  description : String
  deriving DecidableEq, Repr

structure Entity where
  name : String
  description : String
  /-- The fields in the order in which they are written. -/
  fields : List Field
  deriving DecidableEq, Repr

namespace ValueType

def nullable : ValueType → Bool
  | .text n => n
  | .truth n => n
  | .list _ n => n
  | .reference _ n => n

def orNull : ValueType → ValueType
  | .text _ => .text true
  | .truth _ => .truth true
  | .list items _ => .list items true
  | .reference e _ => .reference e true

def listOf (items : ValueType) : ValueType := .list items false

/-! ### Type expressions -/

/-- What follows a type expression if null is admitted. -/
def nullSuffix (nullable : Bool) : String := if nullable then " | null" else ""

def expression : ValueType → String
  | .text n => "string" ++ nullSuffix n
  | .truth n => "boolean" ++ nullSuffix n
  | .list items n => "Array<" ++ expression items ++ ">" ++ nullSuffix n
  | .reference e n => e ++ nullSuffix n

/-! ### JSON schemas -/

def namedSchema (name : String) (nullable : Bool) : List (String × Json) :=
  if nullable then [("type", .ofStrings [name, "null"])] else [("type", .str name)]

def schemaOrNull (schema : List (String × Json)) (nullable : Bool) : List (String × Json) :=
  if nullable then [("anyOf", .arr [.obj schema, .obj [("type", .str "null")]])] else schema

def entityPointer (name : String) : String := "#/$defs/" ++ name

def schemaMembers : ValueType → List (String × Json)
  | .text n => namedSchema "string" n
  | .truth n => namedSchema "boolean" n
  | .list items n =>
    schemaOrNull [("type", .str "array"), ("items", .obj (schemaMembers items))] n
  | .reference e n => schemaOrNull [("$ref", .str (entityPointer e))] n

def schema (t : ValueType) : Json := .obj t.schemaMembers

end ValueType

/-! ### Entities -/

/-- A description as a member of a schema; an empty one is left out. -/
def descriptionMember (description : String) : List (String × Json) :=
  if description = "" then [] else [("description", .str description)]

def Field.schema (f : Field) : Json := .obj (f.type.schemaMembers ++ descriptionMember f.description)

namespace Entity

/-- The names of the fields, in order. -/
def fieldNames (e : Entity) : List String := e.fields.map (·.name)

def fieldLine (f : Field) : String := "  " ++ f.name ++ ": " ++ f.type.expression ++ ";"

def declarationLines (e : Entity) : List String :=
  (if e.description = "" then [] else ["/** " ++ e.description ++ " */"]) ++
    ["export interface " ++ e.name ++ " \x7b"] ++ e.fields.map fieldLine ++ ["\x7d"]

def declaration (e : Entity) : String := String.intercalate "\n" e.declarationLines

/-- The members of the schema of an entity: an object with all of the fields and no
    others. -/
def schemaMembers (e : Entity) : List (String × Json) :=
  [("type", .str "object")] ++ descriptionMember e.description ++
    [("properties", .obj (Json.ofAssignments (e.fields.map fun f => (f.name, f.schema)))),
      ("required", .ofStrings e.fieldNames), ("additionalProperties", .bool false)]

def schema (e : Entity) : Json := .obj e.schemaMembers

end Entity

end WorkflowCatalog.Schema
