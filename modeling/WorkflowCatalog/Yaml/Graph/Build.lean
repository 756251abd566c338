/-
  WorkflowCatalog/Yaml/Graph/Build.lean
  =====================================
  **From nodes to values.**  Nodes are visited breadth first: a collection is begun
  when it is met, and filled after everything met before it.  So of several faults
  in a document the one nearest to the top is reported.

  A key `<<` merges other mappings in: their entries come in front of the own ones,
  and of entries with one key the last counts.  What is merged in has its own keys
  `<<` replaced first.  A key is taken out before it is followed, so a mapping may
  merge itself: what it then merges in are the entries it has at that time.

  A collection may hold itself, so a value is unfolded to a fixed depth; what is
  deeper is shown by its kind.
-/
import WorkflowCatalog.Yaml.Graph.OfTokens
import WorkflowCatalog.Yaml.Scalar

namespace WorkflowCatalog.Yaml

open Text (CodeText)

inductive Built where
  | scalar (v : Value)
  | list (items : List Nat)
  /-- A list of `count` pairs. -/
  | pairs (count : Nat)
  | fields (fields : List (String × Nat))
  | set

def Built.isKey : Built → Bool
  | .scalar v => v.isKey
  | _ => false

structure Builder where
  graph : Graph
  /-- What has been made so far, by node. -/
  built : Array (Option Built)
  /-- Collections that wait to be filled, the first to come first. -/
  waiting : List Nat

abbrev Build := StateT Builder Read

namespace Builder

def nodeAt (n : Nat) : Build Node := do pure ((← get).graph.node n)

def setNode (n : Nat) (node : Node) : Build Unit :=
  modify fun s => { s with graph := s.graph.setIfInBounds n node }

def setBuilt (n : Nat) (b : Built) : Build Unit :=
  modify fun s => { s with built := s.built.setIfInBounds n (some b) }

/-- The document breaks a rule at a node. -/
def failAt {α : Type} (n : Node) (p : Problem) : Build α := throw (.invalid p n.start)

/-! ### Scalars -/

/-- The text of a scalar.  A mapping with a key `=` stands for the value of that
    key; such mappings may stand inside each other to a depth. -/
def scalarText : Nat → Nat → Build CodeText
  | 0, _ => throw (.unusable .nesting)
  | fuel + 1, n => do
    let node ← nodeAt n
    match node.content with
    | .scalar text => pure text
    | .sequence _ => failAt node (.scalarNodeExpected .sequence)
    | .mapping entries =>
      let g := (← get).graph
      match entries.find? fun e => (g.node e.1).tag == .value with
      | some e => scalarText fuel e.2
      | none => failAt node (.scalarNodeExpected .mapping)

/-- Makes the value of a node, or begins it if the node is a collection.  A node is
    made once. -/
def make (n : Nat) : Build Built := do
  let s ← get
  match s.built.getD n none with
  | some b => pure b
  | none =>
    let node := s.graph.node n
    let begin_ (b : Built) : Build Built := do
      setBuilt n b
      modify fun s => { s with waiting := s.waiting ++ [n] }
      pure b
    match node.tag with
    | .sequence => begin_ (.list [])
    | .orderedMap => begin_ (.pairs 0)
    | .pairs => begin_ (.pairs 0)
    | .mapping => begin_ (.fields [])
    | .set => begin_ .set
    | .merge => failAt node (.unknownTag node.tag.name)
    | .value => failAt node (.unknownTag node.tag.name)
    | .other name => failAt node (.unknownTag name)
    | tag =>
      let text ← scalarText maxNesting n
      if tag == .timestamp && node.content.kind != .scalar then throw (.broken .timeOnMapping)
      match Scalar.value? tag text node.start with
      | some r =>
        let v ← (r : Read Value)
        setBuilt n (.scalar v)
        pure (.scalar v)
      | none => failAt node (.unknownTag tag.name)

/-! ### Merging -/

def entriesOf (n : Nat) : Build (List (Nat × Nat)) := do
  match (← nodeAt n).content with
  | .mapping entries => pure entries
  | _ => pure []

def setEntries (n : Nat) (entries : List (Nat × Nat)) : Build Unit := do
  setNode n { ← nodeAt n with content := .mapping entries }

def countEntries (n : Nat) : Build Nat := do pure (← entriesOf n).length

/-- A key `=` that is passed on the way counts as a text from then on. -/
def settleKey (k : Nat) : Build Unit := do
  let key ← nodeAt k
  if key.tag == .value then setNode k { key with tag := .text }

def flattenItem (flatten : Nat → Build Unit) (i : Nat) : Build (List (Nat × Nat)) := do
  let item ← nodeAt i
  match item.content with
  | .mapping _ => do
    flatten i
    entriesOf i
  | c => failAt item (.mergeItem c.kind)

/-- The entries that the value of a key `<<` stands for; of a list, the last mapping
    comes first. -/
def mergedEntries (flatten : Nat → Build Unit) (v : Nat) : Build (List (Nat × Nat)) := do
  let value ← nodeAt v
  match value.content with
  | .mapping _ => do
    flatten v
    entriesOf v
  | .sequence items => do
    let groups ← items.mapM (flattenItem flatten)
    pure groups.reverse.flatten
  | .scalar _ => failAt value (.mergeValue .scalar)

/-- Replaces the keys `<<` among the entries of a mapping from an index on by what they
    stand for.  `merged` has been collected before, and `flatten` does the same with
    another mapping.  A round takes one key out and none is ever put in, so the number
    of entries is enough fuel. -/
def flattenFrom (flatten : Nat → Build Unit) (n : Nat) :
    Nat → Nat → List (Nat × Nat) → Build Unit
  | 0, _, _ => pure ()
  | fuel + 1, index, merged => do
    let entries ← entriesOf n
    let g := (← get).graph
    let ahead := entries.drop index
    let passed := ahead.takeWhile fun e => (g.node e.1).tag != .merge
    passed.forM fun e => settleKey e.1
    match ahead.drop passed.length with
    | [] => if !merged.isEmpty then setEntries n (merged ++ entries)
    | e :: _ => do
      let here := index + passed.length
      setEntries n (entries.eraseIdx here)
      let more ← mergedEntries flatten e.2
      flattenFrom flatten n fuel here (merged ++ more)

/-- Replaces the keys `<<` of a mapping by what they stand for, and those of the
    mappings they lead to, up to a depth. -/
def flatten : Nat → Nat → Build Unit
  | 0, _ => throw (.unusable .nesting)
  | depth + 1, n => do flattenFrom (flatten depth) n ((← countEntries n) + 1) 0 []

/-! ### Collections -/

/-- Sets a field: a field that is there keeps its place. -/
def setField (name : String) (n : Nat) : List (String × Nat) → List (String × Nat)
  | [] => [(name, n)]
  | (k, v) :: rest => if k = name then (k, n) :: rest else (k, v) :: setField name n rest

def makeEntries (node : Node) :
    List (Nat × Nat) → List (String × Nat) → Build (List (String × Nat))
  | [], fields => pure fields
  | (k, v) :: rest, fields => do
    let key ← make k
    if !key.isKey then failAt (← nodeAt k) .unhashableKey
    discard (make v)
    let fields := match key with
      | .scalar (.text t) =>
        match t.toString? with
        | some s => setField s v fields
        | none => fields
      | _ => fields
    makeEntries node rest fields

def fieldsOf (n : Nat) : Build (List (String × Nat)) := do
  let node ← nodeAt n
  match node.content with
  | .mapping _ => do
    flatten maxNesting n
    makeEntries node (← entriesOf n) []
  | c => failAt node (.mappingNodeExpected c.kind)

def makePairs : List Nat → Build Unit
  | [] => pure ()
  | i :: rest => do
    let item ← nodeAt i
    match item.content with
    | .mapping [(k, v)] => do
      discard (make k)
      discard (make v)
      makePairs rest
    | .mapping entries => failAt item (.singlePairExpected entries.length)
    | c => failAt item (.pairExpected c.kind)

def fill (n : Nat) : Build Unit := do
  let node ← nodeAt n
  match node.tag with
  | .sequence =>
    match node.content with
    | .sequence items => do
      items.forM fun i => discard (make i)
      setBuilt n (.list items)
    | c => failAt node (.sequenceNodeExpected c.kind)
  | .mapping => do setBuilt n (.fields (← fieldsOf n))
  | .set => discard (fieldsOf n)
  | _ =>
    match node.content with
    | .sequence items => do
      makePairs items
      setBuilt n (.pairs items.length)
    | c => failAt node (.sequenceExpected c.kind)

/-- Fills the collections that wait, and those that are met meanwhile.  Each node is
    filled once. -/
def fillAll : Nat → Build Unit
  | 0 => pure ()
  | fuel + 1 => do
    match (← get).waiting with
    | [] => pure ()
    | n :: rest => do
      modify fun s => { s with waiting := rest }
      fill n
      fillAll fuel

end Builder

/-! ### Values -/

/-- The depth to which a value is unfolded. -/
def valueDepth : Nat := 4

/-- The value of a node, unfolded to a depth. -/
def unfoldValue (built : Array (Option Built)) : Nat → Nat → Value
  | depth, n =>
    match built.getD n none with
    | none => .null
    | some (.scalar v) => v
    | some (.pairs k) => .list (List.replicate k .pair)
    | some .set => .set
    | some (.list items) =>
      match depth with
      | 0 => .list []
      | d + 1 => .list (items.map (unfoldValue built d))
    | some (.fields fields) =>
      match depth with
      | 0 => .mapping []
      | d + 1 => .mapping (fields.map fun f => (f.1, unfoldValue built d f.2))

def Graph.value (g : Graph) (top : Nat) : Read Value := do
  let state : Builder := ⟨g, Array.replicate g.size none, []⟩
  let work : Build Unit := do
    discard (Builder.make top)
    Builder.fillAll (g.size + 1)
  let ((), s) ← work.run state
  .ok (unfoldValue s.built valueDepth top)

end WorkflowCatalog.Yaml
