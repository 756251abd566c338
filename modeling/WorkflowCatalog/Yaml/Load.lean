/-
  WorkflowCatalog/Yaml/Load.lean
  ==============================
  **Reading a document.**  First every character is looked at, then the structure of
  the whole text is read, and only then scalars are given their values; the first
  fault in this order is reported.
-/
import WorkflowCatalog.Yaml.Graph.Build

namespace WorkflowCatalog.Yaml

def isDocumentChar (c : Char) : Bool :=
  let n := c.toNat
  n == 0x9 || n == 0xa || n == 0xd || (0x20 ≤ n && n ≤ 0x7e) || n == 0x85 ||
    (0xa0 ≤ n && n ≤ 0xd7ff) || (0xe000 ≤ n && n ≤ 0xfffd) || 0x10000 ≤ n

/-- The value of a text; an empty text has none, which counts as null. -/
def load (text : String) : Read Value := do
  let cs := text.toList
  if !cs.all isDocumentChar then throw .unprintable
  let (g, top) ← Graph.ofText cs
  match top with
  | none => .ok .null
  | some n => g.value n

end WorkflowCatalog.Yaml
