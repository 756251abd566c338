/-
  WorkflowCatalog/Yaml/Value.lean
  ===============================
  **The values of documents.**  A mapping keeps the entries whose key is a string, each
  key once: no other key can be asked for.  Binary data, sets and the pairs of an
  ordered mapping are told apart by their kind alone.

  `Value.scalarText?` is the text of a scalar: truth values as `true` and `false`,
  numbers with the fewest digits, points in time in one fixed form.  An integer with
  more than 4300 digits has no text.
-/
import WorkflowCatalog.Yaml.Timestamp
import WorkflowCatalog.Decimal.Layout

namespace WorkflowCatalog.Yaml

open Decimal (Binary64 maxIntegerDigits)
open Text (CodeText)

inductive Value where
  | null
  | bool (b : Bool)
  | int (n : Int)
  | float (x : Binary64)
  | text (t : CodeText)
  | time (t : Timestamp)
  | bytes
  | list (items : List Value)
  | mapping (fields : List (String × Value))
  | set
  | pair
  deriving Repr, Inhabited

namespace Value

def kindName : Value → String
  | .null => "NoneType"
  | .bool _ => "bool"
  | .int _ => "int"
  | .float _ => "float"
  | .text _ => "str"
  | .time t => if t.time.isSome then "datetime" else "date"
  | .bytes => "bytes"
  | .list _ => "list"
  | .mapping _ => "dict"
  | .set => "set"
  | .pair => "tuple"

def isKey : Value → Bool
  | .list _ => false
  | .mapping _ => false
  | .set => false
  | _ => true

/-- The value of a field; a mapping has null where it has no such field. -/
def field (name : String) (fields : List (String × Value)) : Value :=
  ((fields.find? (·.1 == name)).map (·.2)).getD .null

def isTooLong (n : Int) : Bool := decide (Nat.pow 10 maxIntegerDigits ≤ n.natAbs)

def scalarText? : Value → Except Breakdown (Option CodeText)
  | .text t => .ok (some t)
  | .bool b => .ok (some (.ofString (if b then "true" else "false")))
  | .int n => if isTooLong n then .error .integerTooLong else .ok (some (.ofString (toString n)))
  | .float x => .ok (some (.ofString x.text))
  | .time t => .ok (some (.ofString t.text))
  | _ => .ok none

end Value

end WorkflowCatalog.Yaml
