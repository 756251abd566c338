/-
  WorkflowCatalog/Text/Split.lean
  ===============================
  **Cutting a text, or any list, at a separator.**  `splitOn` gives the parts between the
  separators, one more than there are separators; `splitOn_append` is its law.
-/
namespace WorkflowCatalog.Text

variable {α : Type} [DecidableEq α]

def splitOn (sep : α) : List α → List (List α)
  | [] => [[]]
  | c :: cs =>
    if c = sep then [] :: splitOn sep cs
    else match splitOn sep cs with
      | p :: ps => (c :: p) :: ps
      | [] => [[c]]

theorem splitOn_ne_nil (sep : α) (cs : List α) : splitOn sep cs ≠ [] := by
  induction cs with
  | nil => simp [splitOn]
  | cons c cs ih =>
    unfold splitOn
    split
    · simp
    · split <;> simp

/-- A list without the separator is one part. -/
theorem splitOn_of_notMem {sep : α} {cs : List α} (h : sep ∉ cs) :
    splitOn sep cs = [cs] := by
  induction cs with
  | nil => rfl
  | cons c cs ih =>
    have hc : c ≠ sep := fun e => h (by simp [e])
    simp [splitOn, hc, ih fun e => h (by simp [e])]

/-- A part in front of the first separator is cut off as it is. -/
theorem splitOn_append {sep : α} {p : List α} (h : sep ∉ p) (cs : List α) :
    splitOn sep (p ++ sep :: cs) = p :: splitOn sep cs := by
  induction p with
  | nil => simp [splitOn]
  | cons c p ih =>
    have hc : c ≠ sep := fun e => h (by simp [e])
    simp [splitOn, hc, ih fun e => h (by simp [e])]

end WorkflowCatalog.Text
