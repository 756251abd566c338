/-
  WorkflowCatalog/Schema/Json.lean
  ================================
  **Types and entities as JSON.**  A type is an object that names its kind.  Only a list
  has a type of items and only a reference the name of an entity; the rule about the
  items is checked first.

  A type may have `maxLevels` levels, itself among them, when it is read and when it is
  made an object.
-/
import WorkflowCatalog.Schema.Basic
import WorkflowCatalog.Validation.Scalar

namespace WorkflowCatalog.Schema

open Text (CodeText)
open Validation

/-- The kind of a type, apart from what it is made of. -/
inductive Shape where
  | text
  | truth
  | list
  | reference
  deriving DecidableEq, Repr

def Shape.name : Shape → String
  | .text => "string"
  | .truth => "boolean"
  | .list => "array"
  | .reference => "reference"

def Shape.ofJson : Json → Checked Shape
  | .string t =>
    match [Shape.text, .truth, .list, .reference].find? (CodeText.ofString ·.name == t) with
    | some k => .ok k
    | none => .problem .notInEnumeration
  | _ => .problem .notInEnumeration

namespace ValueType

/-- The greatest number of levels of a type that is read or made an object. -/
def maxLevels : Nat := 255

def levels : ValueType → Nat
  | .list items _ => levels items + 1
  | _ => 1

def object (shape : Shape) (nullable : Bool) (items entity : Json) : Json :=
  .obj [("kind", .str shape.name), ("nullable", .bool nullable), ("items", items), ("ref", entity)]

def toJson : ValueType → Json
  | .text n => object .text n .null .null
  | .truth n => object .truth n .null .null
  | .list items n => object .list n (toJson items) .null
  | .reference e n => object .reference n .null (.str e)

/-- A type as an object, unless it has too many levels. -/
def object? (t : ValueType) : Option Json :=
  if t.levels ≤ maxLevels then some t.toJson else none

/-- The rule about items. -/
def itemsRule : Kind := .rule "items is required for arrays and only allowed on arrays"

/-- The rule about the name of an entity. -/
def entityRule : Kind := .rule "ref is required for references and only allowed on references"

/-- Puts a type together; only a list has items and only a reference an entity. -/
def ofParts (shape : Shape) (nullable : Bool) :
    Option ValueType → Option String → Checked ValueType
  | none, none =>
    match shape with
    | .text => .ok (.text nullable)
    | .truth => .ok (.truth nullable)
    | .list => .problem itemsRule
    | .reference => .problem entityRule
  | some items, none =>
    match shape with
    | .list => .ok (.list items nullable)
    | _ => .problem itemsRule
  | none, some e =>
    match shape with
    | .reference => .ok (.reference e nullable)
    | .list => .problem itemsRule
    | _ => .problem entityRule
  | some _, some _ =>
    match shape with
    | .list => .problem entityRule
    | _ => .problem itemsRule

def partNames : List String := ["kind", "nullable", "items", "ref"]

def isNull : Json → Bool
  | .null => true
  | _ => false

mutual

def ofJsonAt (above : Nat) : Json → Checked ValueType
  | .obj ms =>
    if maxLevels ≤ above then .problem .tooDeep
    else
      let parts := Prod.mk
        <$> (Prod.mk
          <$> field ms "kind" Shape.ofJson
          <*> fieldOr ms "nullable" false bool)
        <*> (Prod.mk
          <$> itemsOfMembers (above + 1) ms
          <*> fieldOr ms "ref" none (Validation.nullable Validation.text))
      let unknown := ms.filter fun m => !partNames.contains m.1
      (parts.withProblems (unknown.map fun m => ⟨.unknownField, [.field m.1]⟩)).andThen fun p =>
        ofParts p.1.1 p.1.2 p.2.1 p.2.2
  | _ => .problem (if maxLevels ≤ above then .tooDeep else .notObject)

def itemsOfMembers (above : Nat) : List (String × Json) → Checked (Option ValueType)
  | [] => .ok none
  | (k, v) :: rest =>
    if k = "items" then
      if isNull v then .ok none else ((ofJsonAt above v).map some).under (.field "items")
    else itemsOfMembers above rest

end

def ofJson (v : Json) : Checked ValueType := ofJsonAt 0 v

end ValueType

/-! ### Entities -/

def Field.ofJson (v : Json) : Checked Field :=
  object ["name", "type", "description"] v fun ms =>
    (fun (name : SomeText) type description => Field.mk name.1 type description)
      <$> field ms "name" someText
      <*> field ms "type" ValueType.ofJson
      <*> fieldOr ms "description" "" text

def Field.toJson (f : Field) : Json :=
  .obj [("name", .str f.name), ("type", f.type.toJson), ("description", .str f.description)]

def Entity.ofJson (v : Json) : Checked Entity :=
  Validation.object ["name", "description", "fields"] v fun ms =>
    (fun (name : SomeText) description fields => Entity.mk name.1 description fields)
      <$> field ms "name" someText
      <*> fieldOr ms "description" "" text
      <*> field ms "fields" (tuple 0 Field.ofJson)

def Entity.toJson (e : Entity) : Json :=
  .obj [("name", .str e.name), ("description", .str e.description),
    ("fields", .arr (e.fields.map Field.toJson))]

end WorkflowCatalog.Schema
