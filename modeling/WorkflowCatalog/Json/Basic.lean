/-
  WorkflowCatalog/Json/Basic.lean
  ===============================
  **JSON values.**  An object is a list of members, because the order of its keys
  is the order of the text it is written as.  A string may hold halves of surrogate
  pairs; a key is a string without any.
-/
import WorkflowCatalog.Decimal.Binary64
import WorkflowCatalog.Text.CodePoint

namespace WorkflowCatalog

open Decimal (Binary64)
open Text (CodeText)

inductive Json where
  | null
  | bool (b : Bool)
  | int (n : Int)
  | float (x : Binary64)
  | string (t : CodeText)
  | arr (items : List Json)
  | obj (members : List (String × Json))
  deriving Repr, Inhabited, BEq

namespace Json

/-- The value of a key in a list of members: the first member with that key. -/
def lookup (key : String) (members : List (String × Json)) : Option Json :=
  (members.find? (·.1 == key)).map (·.2)

/-- Replaces the value of a key where it stands, or adds the member at the end. -/
def insert (key : String) (value : Json) : List (String × Json) → List (String × Json)
  | [] => [(key, value)]
  | (k, v) :: rest => if k = key then (k, value) :: rest else (k, v) :: insert key value rest

/-- The members that a sequence of assignments leaves: each key once, at its first
    place, with its last value. -/
def ofAssignments (assignments : List (String × Json)) : List (String × Json) :=
  assignments.foldl (fun members kv => insert kv.1 kv.2 members) []

/-- A string without halves of surrogate pairs. -/
def str (s : String) : Json := .string s

def ofText? : Option CodeText → Json
  | some t => .string t
  | none => .null

def ofInt? : Option Int → Json
  | some n => .int n
  | none => .null

def ofBool? : Option Bool → Json
  | some b => .bool b
  | none => .null

def ofTexts (texts : List CodeText) : Json := .arr (texts.map .string)

def ofTexts? : Option (List CodeText) → Json
  | some texts => ofTexts texts
  | none => .null

def ofStrings (texts : List String) : Json := .arr (texts.map str)

def ofString? (s : Option String) : Json := ofText? (s.map .ofString)

theorem lookup_insert_self (key : String) (value : Json) (members : List (String × Json)) :
    lookup key (insert key value members) = some value := by
  induction members with
  | nil => simp [insert, lookup]
  | cons m rest ih =>
    obtain ⟨k, v⟩ := m
    by_cases h : k = key
    · simp [insert, lookup, h]
    · simp only [lookup] at ih
      simp [insert, lookup, h, ih]

end Json

end WorkflowCatalog
