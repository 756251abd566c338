/-
  WorkflowCatalog/Validation/Basic.lean
  =====================================
  **Checking data against a model, with every problem reported.**

  `Checked α` is a value or a list of problems; its `<*>` goes on after a problem and
  gathers those of all parts.  A model is read from an object field by field, in the
  order of the model, and then the keys that it does not know are reported in the
  order of the object.

  Main statement: a result without a problem has none in its parts
  (`Checked.seq_eq_ok`).
-/
import WorkflowCatalog.Json.Basic

namespace WorkflowCatalog.Validation

/-! ### Problems -/

/-- One step of the way from a whole to a part. -/
inductive Step where
  | field (name : String)
  | index (n : Nat)
  deriving DecidableEq, Repr

inductive Kind where
  | missing
  | unknownField
  | notObject
  | notText
  /-- A text with halves of surrogate pairs where a string is asked for. -/
  | notUnicode
  | textTooShort
  | textPattern
  | notList
  | notTuple
  | tooFewItems
  | notPath
  | notBool
  | boolText
  | notInt
  | intText
  | intTextSize
  | intFromFloat
  | notFinite
  | notFloat
  | floatText
  | belowLeast
  | aboveGreatest
  | notAbove
  | notInEnumeration
  | tooDeep
  /-- The part breaks a rule of its own. -/
  | rule (message : String)
  deriving DecidableEq, Repr

def Kind.code : Kind → String
  | .missing => "missing"
  | .unknownField => "extra_forbidden"
  | .notObject => "model_type"
  | .notText => "string_type"
  | .notUnicode => "string_unicode"
  | .textTooShort => "string_too_short"
  | .textPattern => "string_pattern_mismatch"
  | .notList => "list_type"
  | .notTuple => "tuple_type"
  | .tooFewItems => "too_short"
  | .notPath => "path_type"
  | .notBool => "bool_type"
  | .boolText => "bool_parsing"
  | .notInt => "int_type"
  | .intText => "int_parsing"
  | .intTextSize => "int_parsing_size"
  | .intFromFloat => "int_from_float"
  | .notFinite => "finite_number"
  | .notFloat => "float_type"
  | .floatText => "float_parsing"
  | .belowLeast => "greater_than_equal"
  | .aboveGreatest => "less_than_equal"
  | .notAbove => "greater_than"
  | .notInEnumeration => "enum"
  | .tooDeep => "recursion_loop"
  | .rule _ => "value_error"

/-- A problem and the way to the part that has it. -/
structure Problem where
  kind : Kind
  place : List Step
  deriving DecidableEq, Repr

/-- The data does not fit a model. -/
structure Mismatch where
  model : String
  problems : List Problem
  deriving DecidableEq, Repr

/-! ### Checked values -/

/-- A value, or the problems of the data. -/
inductive Checked (α : Type) where
  | ok (a : α)
  | bad (problems : List Problem)
  deriving Repr

namespace Checked

variable {α β : Type}

def map (f : α → β) : Checked α → Checked β
  | .ok a => .ok (f a)
  | .bad ps => .bad ps

/-- Puts two parts together; the problems of both are kept. -/
def seq : Checked (α → β) → Checked α → Checked β
  | .ok f, .ok a => .ok (f a)
  | .ok _, .bad ps => .bad ps
  | .bad ps, .ok _ => .bad ps
  | .bad ps, .bad qs => .bad (ps ++ qs)

def andThen (c : Checked α) (f : α → Checked β) : Checked β :=
  match c with
  | .ok a => f a
  | .bad ps => .bad ps

instance : Functor Checked := ⟨map, fun a => map fun _ => a⟩

instance : Applicative Checked where
  pure := .ok
  seq c d := seq c (d ())

def problem (k : Kind) : Checked α := .bad [⟨k, []⟩]

def under (s : Step) : Checked α → Checked α
  | .ok a => .ok a
  | .bad ps => .bad (ps.map fun p => { p with place := s :: p.place })

def withProblems (c : Checked α) (more : List Problem) : Checked α :=
  match c, more with
  | c, [] => c
  | .ok _, ps => .bad ps
  | .bad ps, qs => .bad (ps ++ qs)

def result (model : String) : Checked α → Except Mismatch α
  | .ok a => .ok a
  | .bad ps => .error ⟨model, ps⟩

theorem map_eq_ok {f : α → β} {c : Checked α} {b : β} :
    map f c = .ok b ↔ ∃ a, c = .ok a ∧ f a = b := by
  cases c <;> simp [map]

theorem seq_eq_ok {f : Checked (α → β)} {c : Checked α} {b : β} :
    seq f c = .ok b ↔ ∃ g a, f = .ok g ∧ c = .ok a ∧ g a = b := by
  cases f <;> cases c <;> simp [seq]

end Checked

/-! ### Objects -/

abbrev Members := List (String × Json)

def field {α : Type} (members : Members) (name : String) (check : Json → Checked α) :
    Checked α :=
  (match Json.lookup name members with
    | some v => check v
    | none => .problem .missing).under (.field name)

/-- A field that has a value of its own when it is left out. -/
def fieldOr {α : Type} (members : Members) (name : String) (fallback : α)
    (check : Json → Checked α) : Checked α :=
  match Json.lookup name members with
  | some v => (check v).under (.field name)
  | none => .ok fallback

/-- An object whose keys are all among the known ones. -/
def object {α : Type} (known : List String) (v : Json) (read : Members → Checked α) :
    Checked α :=
  match v with
  | .obj members =>
    let unknown := members.filter fun m => !known.contains m.1
    (read members).withProblems (unknown.map fun m => ⟨.unknownField, [.field m.1]⟩)
  | _ => .problem .notObject

/-! ### Lists -/

/-- The items of a list, each checked, the first under the index `i`. -/
def items {α : Type} (check : Json → Checked α) (i : Nat) : List Json → Checked (List α)
  | [] => .ok []
  | v :: vs => Checked.seq (((check v).under (.index i)).map List.cons) (items check (i + 1) vs)

def list {α : Type} (check : Json → Checked α) : Json → Checked (List α)
  | .arr vs => items check 0 vs
  | _ => .problem .notList

def passes {α : Type} (check : Json → Checked α) (v : Json) : Bool :=
  match check v with
  | .ok _ => true
  | .bad _ => false

/-- A list of fixed shape with at least so many items; items with a problem do not
    count. -/
def tuple {α : Type} (least : Nat) (check : Json → Checked α) : Json → Checked (List α)
  | .arr vs =>
    (items check 0 vs).withProblems
      (if (vs.filter (passes check)).length < least then [⟨.tooFewItems, []⟩] else [])
  | _ => .problem .notTuple

/-- A value that may also be null. -/
def nullable {α : Type} (check : Json → Checked α) : Json → Checked (Option α)
  | .null => .ok none
  | v => (check v).map some

end WorkflowCatalog.Validation
