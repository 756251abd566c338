/-
  WorkflowCatalog/Path/Lemmas.lean
  ================================
  **A path is determined by its text.**  Main statement: reading the text of a path
  gives the path back (`Path.ofString_text`), so different paths have different texts
  (`Path.text_inj`) and sorting by the text puts them into one order only.
-/
import WorkflowCatalog.Path.Basic

namespace WorkflowCatalog.Path

open Text

/-! ### Names -/

theorem ne_nil_of_isName {n : String} (h : IsName n) : n.toList ≠ [] := by
  intro e
  exact h.1 (String.toList_eq_nil_iff.1 e)

theorem splitOn_joinNames {ns : List String} (h : ∀ n ∈ ns, IsName n) (hne : ns ≠ []) :
    splitOn '/' (joinNames ns).toList = ns.map String.toList := by
  induction ns with
  | nil => exact absurd rfl hne
  | cons n rest ih =>
    have hn : '/' ∉ n.toList := (h n (by simp)).2.2
    cases rest with
    | nil => simpa [joinNames] using splitOn_of_notMem hn
    | cons m ms =>
      have hrest := ih (fun x hx => h x (List.mem_cons_of_mem _ hx)) (by simp)
      rw [joinNames, String.toList_append, String.toList_append]
      · simp only [List.append_assoc]
        change splitOn '/' (n.toList ++ '/' :: (joinNames (m :: ms)).toList) = _
        rw [splitOn_append hn, hrest]
        rfl
      · simp

/-- Joined names do not begin with a slash. -/
theorem head_joinNames {ns : List String} (h : ∀ n ∈ ns, IsName n) (hne : ns ≠ []) :
    ∃ c cs, (joinNames ns).toList = c :: cs ∧ c ≠ '/' := by
  cases ns with
  | nil => exact absurd rfl hne
  | cons n rest =>
    have hn := h n (by simp)
    obtain ⟨c, cs, e⟩ := List.exists_cons_of_ne_nil (ne_nil_of_isName hn)
    have hc : c ≠ '/' := fun hc => hn.2.2 (by rw [e, hc]; simp)
    cases rest with
    | nil => exact ⟨c, cs, by simpa [joinNames] using e, hc⟩
    | cons m ms =>
      refine ⟨c, cs ++ '/' :: (joinNames (m :: ms)).toList, ?_, hc⟩
      rw [joinNames, String.toList_append, String.toList_append, e]
      · simp
      · simp

/-! ### The round trip -/

/-- Blank components are no names. -/
theorem filter_isName_map {ns : List String} (h : ∀ n ∈ ns, IsName n) :
    (ns.filter fun n => decide (IsName n)) = ns :=
  List.filter_eq_self.2 fun n hn => by simpa using h n hn

theorem components_joinNames {ns : List String} (h : ∀ n ∈ ns, IsName n) (hne : ns ≠ []) :
    components (joinNames ns) = ns := by
  simp [components, splitOn_joinNames h hne, Function.comp_def]

theorem components_slash (s : String) : components ("/" ++ s) = "" :: components s := by
  unfold components
  rw [String.toList_append]
  change ((splitOn '/' ('/' :: s.toList)).map String.ofList) = _
  simp [splitOn]

/-- The anchor and the names that the text of a path gives are those of the path. -/
theorem ofString_text (p : Path) : ofString p.text = p := by
  obtain ⟨a, ns, h⟩ := p
  by_cases hne : ns = []
  · subst hne
    cases a
    · exact (by decide +kernel : ofString "." = ⟨.relative, [], nofun⟩)
    · exact (by decide +kernel : ofString "/" = ⟨.root, [], nofun⟩)
    · exact (by decide +kernel : ofString "//" = ⟨.doubleRoot, [], nofun⟩)
  · obtain ⟨c, cs, e, hc⟩ := head_joinNames h hne
    have hparts := components_joinNames h hne
    have hblank : ¬ IsName "" := fun hb => hb.1 rfl
    cases a
    · have ht : text ⟨.relative, ns, h⟩ = joinNames ns := by
        cases ns with
        | nil => exact absurd rfl hne
        | cons n rest => simp [text, Anchor.text]
      simp only [ofString, ht, hparts, filter_isName_map h, e]
      congr 1
      unfold anchorOf
      split <;> simp_all
    · have ht : text ⟨.root, ns, h⟩ = "/" ++ joinNames ns := rfl
      simp only [ofString, ht, components_slash, hparts]
      rw [String.toList_append, e]
      congr 1
      · change anchorOf ('/' :: c :: cs) = _
        unfold anchorOf
        split <;> simp_all
      · simp [hblank, filter_isName_map h]
    · have ht : text ⟨.doubleRoot, ns, h⟩ = "/" ++ ("/" ++ joinNames ns) := by
        rw [← String.append_assoc]; rfl
      simp only [ofString, ht, components_slash, hparts]
      rw [String.toList_append, String.toList_append, e]
      congr 1
      · change anchorOf ('/' :: '/' :: c :: cs) = _
        simp [anchorOf, hc]
      · simp [hblank, filter_isName_map h]

theorem text_inj {p q : Path} (h : p.text = q.text) : p = q := by
  rw [← ofString_text p, h, ofString_text]

/-! ### Plain names as paths -/

/-- A plain name as a path. -/
theorem ofString_name {n : String} (h : IsName n) :
    ofString n = ⟨.relative, [n], by simpa using h⟩ := by
  have hone : ∀ m ∈ [n], IsName m := by simpa using h
  exact ofString_text ⟨.relative, [n], hone⟩

theorem name_ofString {n : String} (h : IsName n) : (ofString n).name = n := by
  rw [ofString_name h]
  rfl

/-- A name is cut before its last dot if something stands in front of it and behind. -/
theorem cutSuffix_append {α : Type} [BEq α] [LawfulBEq α] {dot : α} {front after : List α}
    (hfront : front ≠ []) (hafter : after ≠ []) (h : dot ∉ after) :
    cutSuffix dot (front ++ dot :: after) = (front, dot :: after) := by
  have hne : ∀ c ∈ after.reverse, (c != dot) = true := by
    intro c hc
    rw [bne_iff_ne]
    rintro rfl
    exact h (List.mem_reverse.1 hc)
  have hback : (front ++ dot :: after).reverse = after.reverse ++ dot :: front.reverse := by simp
  have htake : (after.reverse ++ dot :: front.reverse).takeWhile (· != dot) = after.reverse := by
    rw [List.takeWhile_append_of_pos hne]
    simp
  have hdrop : (after.reverse ++ dot :: front.reverse).dropWhile (· != dot) =
      dot :: front.reverse := by
    rw [List.dropWhile_append_of_pos hne]
    simp
  unfold cutSuffix
  simp only [hback, htake, hdrop]
  simp [hfront, hafter]

/-- A name without dots is not cut. -/
theorem cutSuffix_of_notMem {name : List Char} (h : '.' ∉ name) :
    cutSuffix '.' name = (name, []) := by
  unfold cutSuffix
  simp [h]

end WorkflowCatalog.Path
