/-
  WorkflowCatalog/Yaml/Token/Basic.lean
  =====================================
  **The tokens of a document.**  A token has a place where it begins and one where it
  ends; the messages about a document name the places.
-/
import WorkflowCatalog.Yaml.Cursor

namespace WorkflowCatalog.Yaml

/-- A line that speaks about the document that follows. -/
inductive Directive where
  /-- The version of the language. -/
  | version (major minor : Nat)
  /-- A short form for the beginning of tags. -/
  | tag (handle start : String)
  /-- Any other directive; it is passed over. -/
  | other
  deriving DecidableEq, Repr

inductive TokenBody where
  | streamEnd
  | directive (d : Directive)
  | documentStart
  | documentEnd
  | blockSequenceStart
  | blockMappingStart
  | blockEnd
  | flowSequenceStart
  | flowSequenceEnd
  | flowMappingStart
  | flowMappingEnd
  | blockEntry
  | flowEntry
  | key
  | value
  | alias (name : String)
  | anchor (name : String)
  /-- A tag with its handle, if it is written with one. -/
  | tag (handle : Option String) (rest : String)
  /-- A scalar; a plain one stands without quotes and outside a block. -/
  | scalar (text : Text.CodeText) (plain : Bool)
  deriving DecidableEq, Repr

def TokenBody.kind : TokenBody → TokenKind
  | .streamEnd => .streamEnd
  | .directive _ => .directive
  | .documentStart => .documentStart
  | .documentEnd => .documentEnd
  | .blockSequenceStart => .blockSequenceStart
  | .blockMappingStart => .blockMappingStart
  | .blockEnd => .blockEnd
  | .flowSequenceStart => .flowSequenceStart
  | .flowSequenceEnd => .flowSequenceEnd
  | .flowMappingStart => .flowMappingStart
  | .flowMappingEnd => .flowMappingEnd
  | .blockEntry => .blockEntry
  | .flowEntry => .flowEntry
  | .key => .key
  | .value => .value
  | .alias _ => .alias
  | .anchor _ => .anchor
  | .tag .. => .tag
  | .scalar .. => .scalar

structure Token where
  body : TokenBody
  start : Mark
  finish : Mark
  deriving Repr

def Token.kind (t : Token) : TokenKind := t.body.kind

end WorkflowCatalog.Yaml
