/-
  WorkflowCatalog/Text/Lines.lean
  ===============================
  **Line ends of a text that is read from a file.**  A carriage return, alone or
  before a line feed, is read as one line feed.
-/
namespace WorkflowCatalog.Text

def unifyLineEnds : List Char → List Char
  | '\r' :: '\n' :: cs => '\n' :: unifyLineEnds cs
  | '\r' :: cs => '\n' :: unifyLineEnds cs
  | c :: cs => c :: unifyLineEnds cs
  | [] => []

/-- A text without carriage returns is left alone. -/
theorem unifyLineEnds_eq_self {cs : List Char} (h : '\r' ∉ cs) : unifyLineEnds cs = cs := by
  induction cs with
  | nil => rfl
  | cons c cs ih =>
    have hc : c ≠ '\r' := fun e => h (by simp [e])
    rw [unifyLineEnds, ih fun e => h (by simp [e])]
    · intro _ e; exact absurd e hc
    · exact fun e => absurd e hc

end WorkflowCatalog.Text
