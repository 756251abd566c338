/-
  WorkflowCatalog/Yaml/Graph/Basic.lean
  =====================================
  **The nodes of a document.**  An alias is the node of its anchor once more, and a
  collection may hold itself, so nodes refer to each other by number.
-/
import WorkflowCatalog.Yaml.Fault
import WorkflowCatalog.Yaml.Tag
import WorkflowCatalog.Yaml.Timestamp

namespace WorkflowCatalog.Yaml

open Text (CodeText)

inductive Content where
  | scalar (text : CodeText)
  | sequence (items : List Nat)
  | mapping (entries : List (Nat × Nat))
  deriving DecidableEq, Repr

def Content.kind : Content → NodeKind
  | .scalar _ => .scalar
  | .sequence _ => .sequence
  | .mapping _ => .mapping

/-- A node: its tag, the place where it begins, and what it holds. -/
structure Node where
  tag : Tag
  start : Mark
  content : Content
  deriving Repr

abbrev Graph := Array Node

/-- The node with a number; a number that is not in use stands for an empty text. -/
def Graph.node (g : Graph) (n : Nat) : Node := g.getD n ⟨.text, ⟨0, 0⟩, .scalar ⟨[]⟩⟩

/-- The tag that a scalar gets by its form.  The first character decides which forms
    are tried, and a line end at the end does not count. -/
def Tag.ofChars (all : List Char) : Tag :=
  let cs := Plain.dropLastBreak all
  match all with
  | [] => .null
  | c :: _ =>
    if "yYnNtTfFoO".toList.contains c && Plain.isBool cs then .bool
    else if "-+0123456789.".toList.contains c && Plain.isFloat cs then .float
    else if "-+0123456789".toList.contains c && Plain.isInt cs then .int
    else if c == '<' && cs == ['<', '<'] then .merge
    else if "~nN".toList.contains c && Plain.isNull cs then .null
    else if Text.isAsciiDigit c && Timestamp.isPlain cs then .timestamp
    else if c == '=' && cs == ['='] then .value
    else .text

/-- The tag that a scalar gets by its form; no form but that of a text holds one half
    of a surrogate pair. -/
def Tag.ofPlain (text : CodeText) : Tag := (text.chars?.map Tag.ofChars).getD .text

end WorkflowCatalog.Yaml
