/-
  WorkflowCatalog/Yaml/Graph/OfTokens.lean
  ========================================
  **From the tokens of a document to its nodes.**  A text holds one document; the
  nodes are numbered in the order in which they begin, so a collection stands before
  what it holds and an alias inside a collection can refer to it.

  Reading never looks further ahead than one token.  When the tokens are used up, the
  fault that ended the token stream is the fault of the document.

  The functions take one unit of fuel a call.  Two calls, one inside the other, have
  taken at least one token every third time, so three units a token are enough; a
  document that nests deeper than `maxNesting` is refused before that.
-/
import WorkflowCatalog.Yaml.Token.Stream
import WorkflowCatalog.Yaml.Graph.Basic

namespace WorkflowCatalog.Yaml

structure NodeReader where
  tokens : List Token
  /-- The fault behind the last token. -/
  fault : Fault
  graph : Graph
  /-- The anchors of the document and their nodes. -/
  anchors : List (String × Nat)
  /-- The handles of the document and what they stand for. -/
  handles : List (String × String)

abbrev NodeRead := StateT NodeReader Read

def maxNesting : Nat := 480

namespace NodeReader

/-! ### Tokens -/

/-- The next token, left where it is. -/
def peek : NodeRead Token := do
  match (← get).tokens with
  | t :: _ => pure t
  | [] => throw (← get).fault

def next : NodeRead Token := do
  let t ← peek
  modify fun s => { s with tokens := s.tokens.drop 1 }
  pure t

def nextIs (kinds : List TokenKind) : NodeRead Bool := do
  pure (kinds.contains (← peek).kind)

/-- The document breaks a rule at a place. -/
def fail {α : Type} (p : Problem) (m : Mark) : NodeRead α := throw (.invalid p m)

/-! ### Nodes -/

/-- Adds a node and, if it has an anchor, remembers its number. -/
def addNode (anchor : Option String) (node : Node) : NodeRead Nat := do
  let s ← get
  let n := s.graph.size
  let anchors := match anchor with
    | some a => (a, n) :: s.anchors
    | none => s.anchors
  set { s with graph := s.graph.push node, anchors }
  pure n

def setContent (n : Nat) (content : Content) : NodeRead Unit :=
  modify fun s => { s with graph := s.graph.setIfInBounds n { s.graph.node n with content } }

/-- A node without any text. -/
def emptyNode (m : Mark) : NodeRead Nat := addNode none ⟨.null, m, .scalar ⟨[]⟩⟩

structure Properties where
  anchor : Option String
  tag : Option String
  /-- The place where the properties begin, if there are any. -/
  start : Option Mark

/-- The full name of a tag.  `start` is the place of the tag itself. -/
def tagName (handle : Option String) (rest : String) (start : Mark) : NodeRead String := do
  match handle with
  | none => pure rest
  | some h =>
    match (← get).handles.find? (·.1 == h) with
    | some e => pure (e.2 ++ rest)
    | none => fail (.undefinedHandle h) start

/-- The anchor and the tag in front of a node, in either order. -/
def properties : NodeRead Properties := do
  let t ← peek
  match t.body with
  | .anchor a => do
    discard next
    let u ← peek
    match u.body with
    | .tag h r => do
      discard next
      pure ⟨some a, some (← tagName h r u.start), some t.start⟩
    | _ => pure ⟨some a, none, some t.start⟩
  | .tag h r => do
    discard next
    let u ← peek
    match u.body with
    | .anchor a => do
      discard next
      pure ⟨some a, some (← tagName h r t.start), some t.start⟩
    | _ => pure ⟨none, some (← tagName h r t.start), some t.start⟩
  | _ => pure ⟨none, none, none⟩

/-- The tag of a scalar: the one it is written with, or the one of its form. -/
def scalarTag (tag : Option String) (plain : Bool) (text : Text.CodeText) : Tag :=
  match tag with
  | none => if plain then Tag.ofPlain text else .text
  | some t => if t == "!" then Tag.ofPlain text else Tag.ofName t

def collectionTag (tag : Option String) (fallback : Tag) : Tag :=
  match tag with
  | none => fallback
  | some t => if t == "!" then fallback else Tag.ofName t

/-- An anchor may be set once in a document. -/
def checkAnchor (anchor : Option String) (m : Mark) : NodeRead Unit := do
  match anchor with
  | some a => if (← get).anchors.any (·.1 == a) then fail .secondAnchor m
  | none => pure ()

/-- Where a node stands: in a block, as a value of a block mapping, where a sequence
    need not be indented, or in a flow collection. -/
inductive Place where
  | block
  | blockValue
  | flow
  deriving DecidableEq

/-- No content follows: with properties in front the node is empty, without any it is
    missing. -/
def withoutContent (p : Properties) (u : Token) (empty : NodeRead Nat) : NodeRead Nat :=
  if p.start.isSome then empty else fail (.contentExpected u.kind) u.start

mutual

def node (place : Place) (depth : Nat) : Nat → NodeRead Nat
  | 0 => throw (.unusable .nesting)
  | fuel + 1 => do
    if maxNesting < depth then throw (.unusable .nesting)
    let t ← peek
    match t.body with
    | .alias a => do
      discard next
      match (← get).anchors.find? (·.1 == a) with
      | some e => pure e.2
      | none => fail (.undefinedAlias a) t.start
    | _ => do
      let p ← properties
      let u ← peek
      let start := p.start.getD u.start
      let scalar (plain : Bool) (text : Text.CodeText) : NodeRead Nat := do
        checkAnchor p.anchor start
        addNode p.anchor ⟨scalarTag p.tag plain text, start, .scalar text⟩
      let sequence (items : NodeRead (List Nat)) : NodeRead Nat := do
        checkAnchor p.anchor start
        let n ← addNode p.anchor ⟨collectionTag p.tag .sequence, start, .sequence []⟩
        setContent n (.sequence (← items))
        pure n
      let mapping (entries : NodeRead (List (Nat × Nat))) : NodeRead Nat := do
        checkAnchor p.anchor start
        let n ← addNode p.anchor ⟨collectionTag p.tag .mapping, start, .mapping []⟩
        setContent n (.mapping (← entries))
        pure n
      match u.body, place with
      | .blockEntry, .blockValue => sequence (looseItems (depth + 1) fuel)
      | .scalar text plain, _ => do
        discard next
        scalar plain text
      | .flowSequenceStart, _ => sequence do
        discard next
        flowItems true (depth + 1) fuel
      | .flowMappingStart, _ => mapping do
        discard next
        flowEntries true (depth + 1) fuel
      | .blockSequenceStart, .flow => withoutContent p u (scalar true ⟨[]⟩)
      | .blockSequenceStart, _ => sequence do
        discard next
        blockItems (depth + 1) fuel
      | .blockMappingStart, .flow => withoutContent p u (scalar true ⟨[]⟩)
      | .blockMappingStart, _ => mapping do
        discard next
        blockEntries (depth + 1) fuel
      | _, _ => withoutContent p u (scalar true ⟨[]⟩)
termination_by structural fuel => fuel

/-- The items of a block sequence, up to its end. -/
def blockItems (depth : Nat) : Nat → NodeRead (List Nat)
  | 0 => throw (.unusable .nesting)
  | fuel + 1 => do
    let t ← next
    match t.kind with
    | .blockEntry => do
      let n ←
        if ← nextIs [.blockEntry, .blockEnd] then emptyNode t.finish
        else node .block depth fuel
      return n :: (← blockItems depth fuel)
    | .blockEnd => pure []
    | k => fail (.blockEndExpected k) t.start
termination_by structural fuel => fuel

/-- The items of a sequence that is not indented; it has no end of its own. -/
def looseItems (depth : Nat) : Nat → NodeRead (List Nat)
  | 0 => throw (.unusable .nesting)
  | fuel + 1 => do
    if ← nextIs [.blockEntry] then
      let t ← next
      let n ←
        if ← nextIs [.blockEntry, .key, .value, .blockEnd] then emptyNode t.finish
        else node .block depth fuel
      return n :: (← looseItems depth fuel)
    else pure []
termination_by structural fuel => fuel

/-- The entries of a block mapping, up to its end.  Either part of an entry may be
    missing. -/
def blockEntries (depth : Nat) : Nat → NodeRead (List (Nat × Nat))
  | 0 => throw (.unusable .nesting)
  | fuel + 1 => do
    let t ← next
    match t.kind with
    | .key => do
      let k ←
        if ← nextIs [.key, .value, .blockEnd] then emptyNode t.finish
        else node .blockValue depth fuel
      let v ←
        if ← nextIs [.value] then do
          let u ← next
          if ← nextIs [.key, .value, .blockEnd] then emptyNode u.finish
          else node .blockValue depth fuel
        else emptyNode (← peek).start
      return (k, v) :: (← blockEntries depth fuel)
    | .blockEnd => pure []
    | k => fail (.blockEndExpected k) t.start
termination_by structural fuel => fuel

/-- The items of a flow sequence, up to its end.  An entry with a colon is a mapping
    of its own. -/
def flowItems (first : Bool) (depth : Nat) : Nat → NodeRead (List Nat)
  | 0 => throw (.unusable .nesting)
  | fuel + 1 => do
    if ← nextIs [.flowSequenceEnd] then
      discard next
      return []
    if !first then
      let t ← peek
      if t.kind == .flowEntry then discard next
      else fail (.sequenceGoesOn t.kind) t.start
    let t ← peek
    match t.kind with
    | .flowSequenceEnd => do
      discard next
      pure []
    | .key => do
      let pair ← addNode none ⟨.mapping, t.start, .mapping []⟩
      discard next
      let k ←
        if ← nextIs [.value, .flowEntry, .flowSequenceEnd] then emptyNode t.finish
        else node .flow (depth + 1) fuel
      let v ←
        if ← nextIs [.value] then do
          let u ← next
          if ← nextIs [.flowEntry, .flowSequenceEnd] then emptyNode u.finish
          else node .flow (depth + 1) fuel
        else emptyNode (← peek).start
      setContent pair (.mapping [(k, v)])
      return pair :: (← flowItems false depth fuel)
    | _ => do
      let n ← node .flow depth fuel
      return n :: (← flowItems false depth fuel)
termination_by structural fuel => fuel

/-- The entries of a flow mapping, up to its end. -/
def flowEntries (first : Bool) (depth : Nat) : Nat → NodeRead (List (Nat × Nat))
  | 0 => throw (.unusable .nesting)
  | fuel + 1 => do
    if ← nextIs [.flowMappingEnd] then
      discard next
      return []
    if !first then
      let t ← peek
      if t.kind == .flowEntry then discard next
      else fail (.mappingGoesOn t.kind) t.start
    let t ← peek
    match t.kind with
    | .flowMappingEnd => do
      discard next
      pure []
    | .key => do
      discard next
      let k ←
        if ← nextIs [.value, .flowEntry, .flowMappingEnd] then emptyNode t.finish
        else node .flow depth fuel
      let v ←
        if ← nextIs [.value] then do
          let u ← next
          if ← nextIs [.flowEntry, .flowMappingEnd] then emptyNode u.finish
          else node .flow depth fuel
        else emptyNode (← peek).start
      return (k, v) :: (← flowEntries false depth fuel)
    | _ => do
      let k ← node .flow depth fuel
      let v ← emptyNode (← peek).start
      return (k, v) :: (← flowEntries false depth fuel)
termination_by structural fuel => fuel

end

/-! ### Documents -/

/-- The handles that need no directive. -/
def defaultHandles : List (String × String) := [("!", "!"), ("!!", Tag.core)]

def directives : Nat → Bool → List (String × String) → NodeRead (List (String × String))
  | 0, _, handles => pure handles
  | fuel + 1, versioned, handles => do
    let t ← peek
    match t.body with
    | .directive d => do
      discard next
      match d with
      | .version major _ =>
        if versioned then fail .secondVersion t.start
        else if major != 1 then fail .wrongVersion t.start
        else directives fuel true handles
      | .tag h s =>
        if handles.any (·.1 == h) then fail (.secondHandle h) t.start
        else directives fuel versioned (handles ++ [(h, s)])
      | .other => directives fuel versioned handles
    | _ => pure handles

def skipEnds : Nat → NodeRead Unit
  | 0 => pure ()
  | fuel + 1 => do
    if ← nextIs [.documentEnd] then
      discard next
      skipEnds fuel

/-- The head of a document that is announced: its directives and its three dashes.
    The result is the place where the head begins, or nothing at the end of the
    text. -/
def documentHead : NodeRead (Option Mark) := do
  let fuel := (← get).tokens.length + 1
  skipEnds fuel
  if ← nextIs [.streamEnd] then pure none
  else
    let t ← peek
    let own ← directives fuel false []
    let missing := defaultHandles.filter fun e => !own.any (·.1 == e.1)
    modify fun s => { s with handles := own ++ missing }
    let u ← next
    if u.kind == .documentStart then pure (some t.start)
    else fail (.documentStartExpected u.kind) u.start

/-- The only document of a text: its top node, or nothing if the text is empty. -/
def document : NodeRead (Option Nat) := do
  let fuel := 3 * (← get).tokens.length + 10
  let first ←
    if ← nextIs [.directive, .documentStart, .streamEnd] then do
      match ← documentHead with
      | none => pure none
      | some _ =>
        if ← nextIs [.directive, .documentStart, .documentEnd, .streamEnd] then
          some <$> emptyNode (← peek).start
        else some <$> node .block 0 fuel
    else some <$> node .block 0 fuel
  if first.isNone then return none
  if ← nextIs [.documentEnd] then discard next
  match ← documentHead with
  | none => pure first
  | some m => fail .secondDocument m

end NodeReader

def Graph.ofText (text : List Char) : Read (Graph × Option Nat) := do
  let (tokens, fault) := Token.stream text
  let state : NodeReader :=
    ⟨tokens, fault.getD .unprintable, #[], [], NodeReader.defaultHandles⟩
  let (top, s) ← NodeReader.document.run state
  .ok (s.graph, top)

end WorkflowCatalog.Yaml
