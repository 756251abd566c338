/-
  WorkflowCatalog/Text/Infix.lean
  ===============================
  **One text inside another.**  `isInfix` decides whether a list occurs in another
  without a gap; `isInfix_iff` says so.
-/
namespace WorkflowCatalog.Text

variable {α : Type} [BEq α]

/-- Does the first list occur in the second without a gap? -/
def isInfix (needle : List α) : List α → Bool
  | [] => needle.isEmpty
  | c :: cs => needle.isPrefixOf (c :: cs) || isInfix needle cs

theorem isInfix_iff [LawfulBEq α] {needle cs : List α} :
    isInfix needle cs = true ↔ needle <:+: cs := by
  induction cs with
  | nil => simp [isInfix]
  | cons c cs ih => simp [isInfix, ih, List.infix_cons_iff]

end WorkflowCatalog.Text
