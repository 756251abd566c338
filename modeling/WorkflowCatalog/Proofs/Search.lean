/-
  WorkflowCatalog/Proofs/Search.lean
  ==================================
  **What a search finds.**  A search goes through the search entries, keeps the slugs of
  those whose text holds the small form of the query, and gives the workflows with these
  slugs.  Where no two workflows share a slug, these are the workflows whose own text
  holds it, and no others (`search_eq_filter`).

  A query that is a part of a text of a workflow need not be found: the query is lowered
  on its own, the text with what stands around the query in it, and a capital sigma can
  have two lower cases.  Main statement: a part of a text is found if its capital sigmas
  end words exactly where they do so in the part alone, and the queries that are found
  wherever they are parts are those that keep their forms between any neighbours
  (`finds_parts_iff`).
-/
import Mathlib.Data.List.Nodup
import Mathlib.Data.List.Infix
import WorkflowCatalog.Proofs.Collection
import WorkflowCatalog.Proofs.Lowering

namespace WorkflowCatalog

open Text

namespace Workflow

/-! ### Workflows and queries -/

/-- The small form of the query occurs in the text by which the workflow is found. -/
def Matches (w : Workflow) (q : CodeText) : Prop :=
  q.lower.points <:+: w.searchableText.points

theorem occursIn_iff {w : Workflow} {q : CodeText} :
    q.lower.occursIn w.searchableText = true ↔ w.Matches q := Text.isInfix_iff

instance (w : Workflow) (q : CodeText) : Decidable (w.Matches q) :=
  decidable_of_iff _ occursIn_iff

/-- The texts of a workflow that can be searched for. -/
def searchedTexts (w : Workflow) : List CodeText :=
  w.name :: w.description.toList ++ w.tags.getD [] ++ w.command :: w.author.toList

/-- Each of the texts occurs, lowered on its own, in the text by which the workflow is
    found. -/
theorem infix_searchableText {w : Workflow} {t : CodeText} (h : t ∈ w.searchedTexts) :
    t.lower.points <:+: w.searchableText.points := by
  have hfield : ∀ u ∈ [w.name, w.description.getD "", CodeText.join " " (w.tags.getD []),
      w.command, w.author.getD ""], u.lower.points <:+: w.searchableText.points := by
    intro u hu
    rw [searchableText, searchedFields, CodeText.lower_join_blank]
    exact CodeText.infix_join (List.mem_map_of_mem hu)
  unfold searchedTexts at h
  rw [List.mem_append, List.mem_append, List.mem_cons, List.mem_cons, Option.mem_toList,
    Option.mem_toList] at h
  rcases h with ((rfl | hdescription) | htag) | (rfl | hauthor)
  · exact hfield _ (by simp)
  · exact hfield _ (by simp [Option.mem_def.1 hdescription])
  · refine List.IsInfix.trans ?_ (hfield (CodeText.join " " (w.tags.getD [])) (by simp))
    rw [CodeText.lower_join_blank]
    exact CodeText.infix_join (List.mem_map_of_mem htag)
  · exact hfield _ (by simp)
  · exact hfield _ (by simp [Option.mem_def.1 hauthor])

end Workflow

namespace Collection

variable {records : List Record} {c : Collection} {q : CodeText} {w : Workflow}

/-! ### Search by slugs -/

theorem eq_of_build (h : build records = .ok c) :
    c = ofWorkflows (records.map (·.workflow)) ∧ collisions records = [] := by
  unfold build at h
  cases hcol : collisions records with
  | nil =>
    rw [hcol] at h
    exact ⟨(Except.ok.inj h).symm, rfl⟩
  | cons d ds =>
    rw [hcol] at h
    cases h

/-- A search gives the workflows whose slug is that of a workflow that matches. -/
theorem mem_search (h : build records = .ok c) :
    w ∈ c.search q ↔ w ∈ c.workflows ∧ ∃ v ∈ c.workflows, v.Matches q ∧ v.slug = w.slug := by
  obtain ⟨rfl, -⟩ := eq_of_build h
  rw [search, List.mem_filter]
  refine and_congr_right fun _ => ?_
  rw [List.contains_iff_mem, List.mem_map]
  constructor
  · rintro ⟨e, he, hslug⟩
    obtain ⟨he, hmatch⟩ := List.mem_filter.1 he
    obtain ⟨v, hv, rfl⟩ := List.mem_map.1 he
    exact ⟨v, hv, Workflow.occursIn_iff.1 hmatch, slugText_inj hslug⟩
  · rintro ⟨v, hv, hmatch, hslug⟩
    refine ⟨v.searchEntry, List.mem_filter.2 ⟨List.mem_map_of_mem hv, ?_⟩, ?_⟩
    · exact Workflow.occursIn_iff.2 hmatch
    · exact congrArg (fun s : Slug => CodeText.ofString s.text) hslug

/-- **A search gives exactly the workflows that match**, in their order and each once, if
    every record has a path of its own. -/
theorem search_eq_filter (hpaths : (records.map (·.path)).Nodup) (h : build records = .ok c)
    (q : CodeText) :
    c.workflows = records.map (·.workflow) ∧
      c.search q = c.workflows.filter (fun w => decide (w.Matches q)) ∧ (c.search q).Nodup := by
  obtain ⟨hc, hcol⟩ := eq_of_build h
  have hslugs : (c.workflows.map (·.slug)).Nodup := by
    rw [hc]
    change ((records.map (·.workflow)).map (·.slug)).Nodup
    rw [List.map_map]
    exact nodup_slugs_of_collisions hpaths hcol
  have hsearch : c.search q = c.workflows.filter (fun w => decide (w.Matches q)) := by
    have hmem := fun w => @mem_search _ _ q w h
    unfold search at hmem ⊢
    refine List.filter_congr fun w hw => ?_
    rw [Bool.eq_iff_iff, decide_eq_true_iff]
    refine Iff.trans (Iff.symm ?_) ((hmem w).trans ?_)
    · rw [List.mem_filter]
      exact and_iff_right hw
    · constructor
      · rintro ⟨-, v, hv, hmatch, hslug⟩
        rwa [← List.inj_on_of_nodup_map hslugs hv hw hslug]
      · intro hmatch
        exact ⟨hw, w, hw, hmatch, rfl⟩
  refine ⟨by rw [hc]; rfl, hsearch, ?_⟩
  rw [hsearch]
  exact hslugs.of_map.filter _

/-- Two workflows, one with the tag of the other's name. -/
def namedAndTagged : List Record :=
  [⟨.ofString "a/Git.yaml", ⟨"Git", "git log", none, none, none, none, none, none, none,
      Slug.ofFilename "Git.yaml"⟩⟩,
    ⟨.ofString "b/hub.yml", ⟨"Hub", "hub", none, some ["GIT"], none, none, none, none, none,
      Slug.ofFilename "hub.yml"⟩⟩]

/-- Both are found by the name, one of them by its command. -/
theorem search_eq_filter_namedAndTagged :
    (namedAndTagged.map (·.path)).Nodup ∧
      ∃ c, build namedAndTagged = .ok c ∧
        c.search "gIT" = c.workflows.filter (fun w => decide (w.Matches "gIT")) ∧
        (c.search "gIT").map (·.slug.text) = ["git", "hub"] ∧
        (c.search "LOG").map (·.slug.text) = ["git"] := by
  have hpaths : (namedAndTagged.map (·.path)).Nodup := by decide +kernel
  have hbuild : build namedAndTagged = .ok (ofWorkflows (namedAndTagged.map (·.workflow))) := by
    decide +kernel
  exact ⟨hpaths, _, hbuild, (search_eq_filter hpaths hbuild "gIT").2.1, by decide +kernel,
    by decide +kernel⟩

/-! ### Parts of texts -/

/-- A workflow that holds no text but its name. -/
def nameOnly (name : CodeText) : Workflow :=
  ⟨name, "", none, none, none, none, none, none, none, Slug.ofFilename "name.yaml"⟩

/-- It is the workflow of one manifest. -/
def nameRecords (name : CodeText) : List Record := [⟨.ofString "name.yaml", nameOnly name⟩]

theorem build_nameRecords (name : CodeText) :
    build (nameRecords name) = .ok (ofWorkflows [nameOnly name]) := rfl

theorem searchableText_nameOnly (name : CodeText) :
    (nameOnly name).searchableText.points =
      name.lower.points ++ [.char ' ', .char ' ', .char ' ', .char ' '] := by
  rw [Workflow.searchableText, Workflow.searchedFields, CodeText.lower_join_blank]
  rfl

/-- A workflow that does not match is not found, if it is the only one. -/
theorem not_mem_search_nameRecords {name : CodeText} (h : ¬ (nameOnly name).Matches q) :
    nameOnly name ∉ (ofWorkflows [nameOnly name]).search q := by
  rw [mem_search (build_nameRecords name)]
  rintro ⟨-, v, hv, hmatch, -⟩
  rw [List.mem_singleton.1 hv] at hmatch
  exact h hmatch

/-- **A part that does not keep its forms everywhere is not found everywhere**: with a letter
    on one side it is the name of a workflow that does not match. -/
theorem exists_not_matches {before behind : List CodePoint}
    (h : ¬ KeepsForms before q.points behind) :
    ∃ name : CodeText, q.points <:+: name.points ∧ ¬ (nameOnly name).Matches q := by
  have hq : q.lower.points = lowerAmid false false q.points := lowerPoints_eq _
  rcases inners_lt_or_finals_lt h with hlt | hlt
  · refine ⟨⟨.char 'a' :: q.points⟩, (List.suffix_cons _ _).isInfix, fun hmatch => ?_⟩
    refine Nat.not_le_of_lt hlt ?_
    calc inners (lowerAmid false false q.points)
        = inners q.lower.points := by rw [hq]
      _ ≤ inners (nameOnly ⟨.char 'a' :: q.points⟩).searchableText.points :=
        hmatch.sublist.count_le _
      _ = inners (lowerAmid true false q.points) := by
        rw [searchableText_nameOnly, CodeText.lower, lowerPoints_cons_a]
        simp [inners]
  · refine ⟨⟨q.points ++ [CodePoint.char 'a']⟩, (List.prefix_append _ _).isInfix, fun hmatch => ?_⟩
    refine Nat.not_le_of_lt hlt ?_
    calc finals (lowerAmid false false q.points)
        = finals q.lower.points := by rw [hq]
      _ ≤ finals (nameOnly ⟨q.points ++ [CodePoint.char 'a']⟩).searchableText.points :=
        hmatch.sublist.count_le _
      _ = finals (lowerAmid false true q.points) := by
        rw [searchableText_nameOnly, CodeText.lower, lowerPoints_concat_a]
        simp [finals]

/-- A part of a text that keeps its forms there is lowered as on its own. -/
theorem lower_infix_of_keepsForms {t : CodeText} {before part behind : List CodePoint}
    (ht : t.points = before ++ part ++ behind) (h : KeepsForms before part behind) :
    (CodeText.mk part).lower.points <:+: t.lower.points := by
  have hlower : t.lower.points = lowerAmid false false (before ++ (part ++ behind)) := by
    rw [← List.append_assoc, ← ht]
    exact lowerPoints_eq _
  have hpart : (CodeText.mk part).lower.points = lowerAmid false false part := lowerPoints_eq _
  rw [hlower, hpart, lowerAmid_append, lowerAmid_append, lowerAmid_eq_of_keepsForms h,
    ← List.append_assoc]
  exact List.infix_append _ _ _

/-- **Which parts of texts are found.**  A query that is a part of a text of a workflow is
    found if its capital sigmas end words there exactly where they do so in the query alone.
    It is found in every collection wherever it is a part, exactly if it keeps its forms
    whatever stands before and behind it. -/
theorem finds_parts_iff (q : CodeText) :
    (∀ records c w t before behind, build records = .ok c → w ∈ c.workflows →
      t ∈ w.searchedTexts → t.points = before ++ q.points ++ behind →
      KeepsForms before q.points behind → w ∈ c.search q) ∧
    ((∀ records c w t, build records = .ok c → w ∈ c.workflows → t ∈ w.searchedTexts →
        q.points <:+: t.points → w ∈ c.search q) ↔
      ∀ before behind, KeepsForms before q.points behind) := by
  have hfinds : ∀ records c w t before behind, build records = .ok c → w ∈ c.workflows →
      t ∈ w.searchedTexts → t.points = before ++ q.points ++ behind →
      KeepsForms before q.points behind → w ∈ c.search q := by
    intro records c w t before behind hbuild hw ht hpart hforms
    have hmatch : w.Matches q :=
      (lower_infix_of_keepsForms hpart hforms).trans (Workflow.infix_searchableText ht)
    exact (mem_search hbuild).2 ⟨hw, w, hw, hmatch, rfl⟩
  refine ⟨hfinds, fun h before behind => ?_, ?_⟩
  · by_contra hforms
    obtain ⟨name, hinfix, hnot⟩ := exists_not_matches hforms
    refine not_mem_search_nameRecords hnot ?_
    exact h _ _ _ name (build_nameRecords name) List.mem_cons_self List.mem_cons_self hinfix
  · rintro hforms records c w t hbuild hw ht ⟨before, behind, hpart⟩
    exact hfinds records c w t before behind hbuild hw ht hpart.symm (hforms before behind)

/-- A street, found by the end of its name: its last sigma ends a word, alone and in the
    name. -/
theorem finds_parts_street :
    KeepsForms [.char 'Ο'] [.char 'Δ', .char 'Ο', .char 'Σ'] [.char ' ', .char '5'] ∧
      (nameOnly "ΟΔΟΣ 5").name ∈ (nameOnly "ΟΔΟΣ 5").searchedTexts ∧
      nameOnly "ΟΔΟΣ 5" ∈ (ofWorkflows [nameOnly "ΟΔΟΣ 5"]).search "ΔΟΣ" := by
  have hforms : KeepsForms [.char 'Ο'] [.char 'Δ', .char 'Ο', .char 'Σ']
      [.char ' ', .char '5'] := by
    intro left right hpart
    rcases left with _ | ⟨p, _ | ⟨p', _ | ⟨p'', left⟩⟩⟩
    · cases hpart
    · cases hpart
    · cases hpart
      decide +kernel
    · cases left <;> cases hpart
  exact ⟨hforms, List.mem_cons_self, (finds_parts_iff "ΔΟΣ").1 _ _ _ _ _ _
    (build_nameRecords "ΟΔΟΣ 5") List.mem_cons_self List.mem_cons_self rfl hforms⟩

/-- The name begins with the query, but the sigma ends a word in the query only. -/
theorem not_finds_parts_middle :
    build (nameRecords "ΜΕΣΟ") = .ok (ofWorkflows [nameOnly "ΜΕΣΟ"]) ∧
      (nameOnly "ΜΕΣΟ").name ∈ (nameOnly "ΜΕΣΟ").searchedTexts ∧
      (CodeText.ofString "ΜΕΣ").points <:+: (nameOnly "ΜΕΣΟ").name.points ∧
      nameOnly "ΜΕΣΟ" ∉ (ofWorkflows [nameOnly "ΜΕΣΟ"]).search "ΜΕΣ" :=
  ⟨build_nameRecords _, List.mem_cons_self, ⟨[], [.char 'Ο'], rfl⟩, by decide +kernel⟩

end Collection

end WorkflowCatalog
