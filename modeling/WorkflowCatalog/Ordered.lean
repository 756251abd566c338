/-
  WorkflowCatalog/Ordered.lean
  ============================
  **Sorting.**  `sortBy` orders a list by a key and keeps the order of items with equal
  keys.  Main statements: the result holds the same items (`sortBy_perm`) in ascending
  order of the keys (`sortBy_pairwise`).
-/
namespace WorkflowCatalog

section

variable {α κ : Type} [LE κ] [DecidableLE κ] (key : α → κ)

/-- Puts an item in front of the first item with a greater key. -/
def insertBy (a : α) : List α → List α
  | [] => [a]
  | b :: bs => if key a ≤ key b then a :: b :: bs else b :: insertBy a bs

/-- The items in the order of their keys. -/
def sortBy : List α → List α
  | [] => []
  | a :: as => insertBy key a (sortBy as)

theorem insertBy_perm (a : α) (bs : List α) : (insertBy key a bs).Perm (a :: bs) := by
  induction bs with
  | nil => exact .refl _
  | cons b bs ih =>
    unfold insertBy
    split
    · exact .refl _
    · exact (ih.cons b).trans (.swap a b bs)

theorem sortBy_perm (as : List α) : (sortBy key as).Perm as := by
  induction as with
  | nil => exact .refl _
  | cons a as ih => exact (insertBy_perm key a _).trans (ih.cons a)

variable [Std.IsLinearPreorder κ]

theorem insertBy_pairwise (a : α) {bs : List α}
    (h : bs.Pairwise fun x y => key x ≤ key y) :
    (insertBy key a bs).Pairwise fun x y => key x ≤ key y := by
  induction bs with
  | nil => simp [insertBy]
  | cons b bs ih =>
    rw [List.pairwise_cons] at h
    unfold insertBy
    split
    · rename_i hab
      refine List.pairwise_cons.2 ⟨?_, List.pairwise_cons.2 h⟩
      intro x hx
      rcases List.mem_cons.1 hx with rfl | hx
      · exact hab
      · exact Std.le_trans hab (h.1 x hx)
    · rename_i hab
      refine List.pairwise_cons.2 ⟨?_, ih h.2⟩
      intro x hx
      rcases List.mem_cons.1 ((insertBy_perm key a bs).mem_iff.1 hx) with rfl | hx
      · exact (Std.le_total (a := key b) (b := key x)).resolve_right hab
      · exact h.1 x hx

theorem sortBy_pairwise (as : List α) :
    (sortBy key as).Pairwise fun x y => key x ≤ key y := by
  induction as with
  | nil => exact .nil
  | cons a as ih => exact insertBy_pairwise key a ih

end

/-- A list of texts in ascending order. -/
def sortTexts (l : List String) : List String := sortBy id l

/-- The items of a list at their first place each. -/
def distinct {α : Type} [BEq α] : List α → List α
  | [] => []
  | a :: as => a :: (distinct as).filter (· != a)

end WorkflowCatalog
