/-
  WorkflowCatalog/Path/Basic.lean
  ===============================
  **Slash-separated paths, in lexical normal form.**  A path is an anchor and a list
  of names.  Reading a path drops empty components and single dots, so `a//b/./c/`
  and `a/b/c` are one path; `..` is a name like any other, because what it means
  depends on links.  Exactly two slashes in front are an anchor of their own.

  Main statement: a path is determined by its text (`Path.text_inj`, in
  `WorkflowCatalog.Path.Lemmas`), so paths can be compared and sorted by it.
-/
import WorkflowCatalog.Text.Split

namespace WorkflowCatalog

inductive Anchor where
  /-- At the working directory. -/
  | relative
  /-- At the root directory. -/
  | root
  /-- At the root directory, written with two slashes. -/
  | doubleRoot
  deriving DecidableEq, Repr

def Anchor.text : Anchor → String
  | .relative => ""
  | .root => "/"
  | .doubleRoot => "//"

def IsName (s : String) : Prop := s ≠ "" ∧ s ≠ "." ∧ '/' ∉ s.toList

instance (s : String) : Decidable (IsName s) := inferInstanceAs (Decidable (_ ∧ _ ∧ _))

structure Path where
  anchor : Anchor
  names : List String
  names_ok : ∀ n ∈ names, IsName n
  deriving DecidableEq, Repr

namespace Path

/-! ### Reading and writing -/

def anchorOf : List Char → Anchor
  | '/' :: '/' :: '/' :: _ => .root
  | '/' :: '/' :: _ => .doubleRoot
  | '/' :: _ => .root
  | _ => .relative

def components (s : String) : List String := (Text.splitOn '/' s.toList).map String.ofList

def ofString (s : String) : Path where
  anchor := anchorOf s.toList
  names := (components s).filter fun n => decide (IsName n)
  names_ok := by
    intro n h
    simpa using (List.mem_filter.1 h).2

def joinNames : List String → String
  | [] => ""
  | [n] => n
  | n :: ns => n ++ "/" ++ joinNames ns

/-- The text of a path; the empty relative path is a single dot. -/
def text (p : Path) : String :=
  match p.anchor, p.names with
  | .relative, [] => "."
  | a, ns => a.text ++ joinNames ns

/-! ### Parts -/

/-- The last name, or the empty text if there is none. -/
def name (p : Path) : String := p.names.getLast?.getD ""

/-- A name cut before its last dot, unless the dot stands at either end: what is
    in front, and the rest with the dot. -/
def cutSuffix {α : Type} [BEq α] (dot : α) (name : List α) : List α × List α :=
  let back := name.reverse
  let after := back.takeWhile (· != dot)
  let front := (back.dropWhile (· != dot)).tail.reverse
  if after.isEmpty || front.isEmpty || !name.contains dot then (name, [])
  else (front, dot :: after.reverse)

/-- The last name without its suffix. -/
def stem (p : Path) : String := String.ofList (cutSuffix '.' p.name.toList).1

/-- The path without its last name; a path without names is its own parent. -/
def parent (p : Path) : Path where
  anchor := p.anchor
  names := p.names.dropLast
  names_ok := fun n h => p.names_ok n (List.dropLast_subset _ h)

/-- The second path, taken from the first one unless it has an anchor of its own. -/
def join (p q : Path) : Path :=
  match q.anchor with
  | .relative =>
    { anchor := p.anchor
      names := p.names ++ q.names
      names_ok := by
        intro n h
        rcases List.mem_append.1 h with h | h
        · exact p.names_ok n h
        · exact q.names_ok n h }
  | _ => q

instance : Div Path := ⟨join⟩

end Path

end WorkflowCatalog
