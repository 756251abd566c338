/-
  WorkflowCatalog/Yaml/Token/Stream.lean
  ======================================
  **The token stream of a document.**

  A mapping key need not be announced: `name: x` is a key because a colon follows.
  So every token that may begin such a key is remembered (`PossibleKey`), and when
  the colon comes the tokens that open the key are put in front of it.  A possible
  key must stay on its line and within 1024 characters; one that stands where only
  a key can stand must be followed by its colon.

  Tokens wait in a queue as long as something may still be put in front of them.
  `Tokenizer.run` gives the tokens that leave the queue, in order, and the fault that
  ended scanning, if there was one: what is read from the stream up to a fault does
  not depend on what comes after it.
-/
import WorkflowCatalog.Yaml.Token.Property

namespace WorkflowCatalog.Yaml

open Text

/-- A token that may turn out to begin a mapping key. -/
structure PossibleKey where
  /-- Nesting of flow collections at the token. -/
  level : Nat
  /-- Number of the token in the stream. -/
  number : Nat
  /-- Can nothing but a key stand there? -/
  required : Bool
  index : Nat
  mark : Mark

structure Tokenizer where
  cursor : Cursor
  /-- Nesting of flow collections. -/
  level : Nat
  /-- Tokens that wait. -/
  queue : List Token
  /-- Number of tokens that have left the queue. -/
  taken : Nat
  /-- Column of the block collection around this place; -1 outside all of them. -/
  indent : Int
  /-- Columns of the collections around that one, the nearest first. -/
  outer : List Int
  /-- May a mapping key begin here? -/
  keyAllowed : Bool
  /-- Possible keys, the one of the outermost level first. -/
  keys : List PossibleKey
  /-- Is the end of the document reached? -/
  done : Bool

namespace Tokenizer

def start (text : List Char) : Tokenizer :=
  ⟨.start text, 0, [], 0, -1, [], true, [], false⟩

/-- Adds a token that covers no text. -/
def pushHere (s : Tokenizer) (body : TokenBody) : Tokenizer :=
  { s with queue := s.queue ++ [⟨body, s.cursor.mark, s.cursor.mark⟩] }

def push (s : Tokenizer) (t : Token) (after : Cursor) : Tokenizer :=
  { s with queue := s.queue ++ [t], cursor := after }

/-- Adds a token of `n` characters. -/
def pushWidth (s : Tokenizer) (body : TokenBody) (n : Nat) : Tokenizer :=
  let after := s.cursor.advanceBy n
  s.push ⟨body, s.cursor.mark, after.mark⟩ after

/-! ### Indentation -/

/-- Closes the block collections that stand deeper than a column. -/
def closeFrom (column : Int) : List Int → Tokenizer → Tokenizer
  | outer, s =>
    if s.level = 0 && decide (column < s.indent) then
      match outer with
      | [] => { s.pushHere .blockEnd with indent := -1, outer := [] }
      | i :: rest => closeFrom column rest { s.pushHere .blockEnd with indent := i, outer := rest }
    else s

/-- Closes the block collections that stand deeper than a column. -/
def closeTo (s : Tokenizer) (column : Int) : Tokenizer := closeFrom column s.outer s

/-- Opens a block collection at a column, unless one is open there already. -/
def indentTo (s : Tokenizer) (column : Nat) : Bool × Tokenizer :=
  if s.indent < column then (true, { s with indent := column, outer := s.indent :: s.outer })
  else (false, s)

/-! ### Possible keys -/

/-- The greatest number of characters of a key that is not announced. -/
def maxKeyLength : Nat := 1024

/-- Drops the possible keys that can no longer be keys. -/
def dropStaleKeys (s : Tokenizer) : Read Tokenizer :=
  let isStale (k : PossibleKey) :=
    k.mark.line != s.cursor.mark.line || decide (maxKeyLength < s.cursor.index - k.index)
  if s.keys.any fun k => isStale k && k.required then s.cursor.fail .missingColon
  else .ok { s with keys := s.keys.filter fun k => !isStale k }

/-- Drops the possible key of this level. -/
def dropKey (s : Tokenizer) : Read Tokenizer :=
  if s.keys.any fun k => k.level == s.level && k.required then s.cursor.fail .missingColon
  else .ok { s with keys := s.keys.filter fun k => k.level != s.level }

/-- Remembers that the next token may begin a key. -/
def rememberKey (s : Tokenizer) : Read Tokenizer :=
  if s.keyAllowed then do
    let required := s.level == 0 && s.indent == (s.cursor.column : Int)
    let s ← s.dropKey
    let key := ⟨s.level, s.taken + s.queue.length, required, s.cursor.index, s.cursor.mark⟩
    .ok { s with keys := s.keys ++ [key] }
  else .ok s

def insertAt (s : Tokenizer) (number : Nat) (tokens : List Token) : Tokenizer :=
  let i := number - s.taken
  { s with queue := s.queue.take i ++ tokens ++ s.queue.drop i }

/-! ### One token -/

/-- Passes over spaces, comments and line ends.  In a block a key may begin on a new
    line. -/
def skipToToken : Nat → Tokenizer → Tokenizer
  | 0, s => s
  | fuel + 1, s =>
    let c := s.cursor.skipSpaces
    let c := if c.peek == '#' then c.skipLine else c
    if isBreak c.peek then
      skipToToken fuel
        { s with cursor := c.takeBreak.2, keyAllowed := s.keyAllowed || s.level == 0 }
    else { s with cursor := c }

/-- Passes over a byte order mark at the start of the document. -/
def skipByteOrderMark (s : Tokenizer) : Tokenizer :=
  if s.cursor.index == 0 && s.cursor.peek == '\ufeff' then { s with cursor := s.cursor.advance }
  else s

def addEnd (s : Tokenizer) : Read Tokenizer := do
  let s ← (s.closeTo (-1)).dropKey
  .ok { s.pushHere .streamEnd with keyAllowed := false, keys := [], done := true }

def addDirective (s : Tokenizer) : Read Tokenizer := do
  let s ← (s.closeTo (-1)).dropKey
  let (t, after) ← scanDirective s.cursor
  .ok { s.push t after with keyAllowed := false }

def addSeparator (s : Tokenizer) (body : TokenBody) : Read Tokenizer := do
  let s ← (s.closeTo (-1)).dropKey
  .ok { s.pushWidth body 3 with keyAllowed := false }

def addFlowStart (s : Tokenizer) (body : TokenBody) : Read Tokenizer := do
  let s ← s.rememberKey
  .ok { s.pushWidth body 1 with level := s.level + 1, keyAllowed := true }

def addFlowEnd (s : Tokenizer) (body : TokenBody) : Read Tokenizer := do
  let s ← s.dropKey
  .ok { s.pushWidth body 1 with level := s.level - 1, keyAllowed := false }

def addFlowEntry (s : Tokenizer) : Read Tokenizer := do
  let s ← s.dropKey
  .ok { s.pushWidth .flowEntry 1 with keyAllowed := true }

/-- In a block, opens a collection where a dash or a question mark stands. -/
def openBlock (s : Tokenizer) (body : TokenBody) (refusal : Problem) : Read Tokenizer :=
  if s.level != 0 then .ok s
  else if !s.keyAllowed then s.cursor.fail refusal
  else
    let (opened, s) := s.indentTo s.cursor.column
    .ok (if opened then s.pushHere body else s)

def addBlockEntry (s : Tokenizer) : Read Tokenizer := do
  let s ← s.openBlock .blockSequenceStart .entryNotAllowed
  let s ← s.dropKey
  .ok { s.pushWidth .blockEntry 1 with keyAllowed := true }

def addKey (s : Tokenizer) : Read Tokenizer := do
  let s ← s.openBlock .blockMappingStart .keyNotAllowed
  let s ← s.dropKey
  .ok { s.pushWidth .key 1 with keyAllowed := s.level == 0 }

/-- A colon.  If a possible key precedes it on this level, that becomes the key. -/
def addValue (s : Tokenizer) : Read Tokenizer := do
  match s.keys.find? fun k => k.level == s.level with
  | some k =>
    let s := { s with keys := s.keys.filter fun k => k.level != s.level }
    let (opened, s) := if s.level == 0 then s.indentTo k.mark.column else (false, s)
    let opening := if opened then [⟨.blockMappingStart, k.mark, k.mark⟩] else []
    let s := s.insertAt k.number (opening ++ [⟨.key, k.mark, k.mark⟩])
    .ok { s.pushWidth .value 1 with keyAllowed := false }
  | none =>
    let s ← s.openBlock .blockMappingStart .valueNotAllowed
    let s ← s.dropKey
    .ok { s.pushWidth .value 1 with keyAllowed := s.level == 0 }

def addProperty (s : Tokenizer) (scan : Cursor → Read (Token × Cursor)) : Read Tokenizer := do
  let s ← s.rememberKey
  let (t, after) ← scan s.cursor
  .ok { s.push t after with keyAllowed := false }

def pushScalar (s : Tokenizer) (x : ScannedScalar) (plain : Bool) : Tokenizer :=
  { s.push ⟨.scalar ⟨x.text⟩ plain, s.cursor.mark, x.finish⟩ x.cursor with
    keyAllowed := x.keyAllowed }

def addBlockScalar (s : Tokenizer) (folded : Bool) : Read Tokenizer := do
  let s ← s.dropKey
  let x ← scanBlock folded s.indent s.cursor
  .ok (s.pushScalar x false)

def addQuoted (s : Tokenizer) (double : Bool) : Read Tokenizer := do
  let s ← s.rememberKey
  let x ← scanQuoted double s.cursor
  .ok (s.pushScalar x false)

def addPlain (s : Tokenizer) : Read Tokenizer := do
  let s ← s.rememberKey
  .ok (s.pushScalar (scanPlain (s.level != 0) s.indent s.cursor) true)

def startsPlain (inFlow : Bool) (c next : Char) : Bool :=
  !(isBlankOrEnd c || "-?:,[]{}#&*!|>'\"%@\x60".toList.contains c) ||
    (!isBlankOrEnd next && (c == '-' || (!inFlow && (c == '?' || c == ':'))))

/-- The next token, with all that has to be closed or opened in front of it. -/
def addNext (s : Tokenizer) : Read Tokenizer := do
  let s := s.skipByteOrderMark
  let s := skipToToken (s.cursor.rest.length + 1) s
  let s ← s.dropStaleKeys
  let s := s.closeTo s.cursor.column
  let c := s.cursor
  let x := c.peek
  let next := c.peekAt 1
  let inFlow := s.level != 0
  if c.rest.isEmpty then s.addEnd
  else if x == '%' && c.column == 0 then s.addDirective
  else if x == '-' && c.column == 0 && c.atSeparator then s.addSeparator .documentStart
  else if x == '.' && c.column == 0 && c.atSeparator then s.addSeparator .documentEnd
  else if x == '[' then s.addFlowStart .flowSequenceStart
  else if x == '{' then s.addFlowStart .flowMappingStart
  else if x == ']' then s.addFlowEnd .flowSequenceEnd
  else if x == '}' then s.addFlowEnd .flowMappingEnd
  else if x == ',' then s.addFlowEntry
  else if x == '-' && isBlankOrEnd next then s.addBlockEntry
  else if x == '?' && (inFlow || isBlankOrEnd next) then s.addKey
  else if x == ':' && (inFlow || isBlankOrEnd next) then s.addValue
  else if x == '*' then s.addProperty (scanAnchor .alias)
  else if x == '&' then s.addProperty (scanAnchor .anchor)
  else if x == '!' then s.addProperty scanTag
  else if x == '|' && !inFlow then s.addBlockScalar false
  else if x == '>' && !inFlow then s.addBlockScalar true
  else if x == '\'' then s.addQuoted false
  else if x == '"' then s.addQuoted true
  else if startsPlain inFlow x next then s.addPlain
  else c.fail (.noTokenStart x)

/-! ### The stream -/

/-- The tokens that need not wait any longer, and the state without them. -/
def release (s : Tokenizer) : List Token × Tokenizer :=
  let free :=
    if s.done then s.queue.length
    else match (s.keys.map (·.number)).min? with
      | some n => n - s.taken
      | none => s.queue.length
  (s.queue.take free, { s with queue := s.queue.drop free, taken := s.taken + free })

def run : Nat → Tokenizer → List Token × Option Fault
  | 0, _ => ([], none)
  | fuel + 1, s =>
    match (do (← s.addNext).dropStaleKeys : Read Tokenizer) with
    | .error e => ([], some e)
    | .ok s =>
      let (tokens, s) := s.release
      if s.done then (tokens, none)
      else
        let (more, e) := run fuel s
        (tokens ++ more, e)

end Tokenizer

def Token.stream (text : List Char) : List Token × Option Fault :=
  Tokenizer.run (text.length + 2) (.start text)

end WorkflowCatalog.Yaml
