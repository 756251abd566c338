/-
  WorkflowCatalog/Proofs/Collection.lean
  ======================================
  **What holds of every collection.**  A collection that a compilation gives has one
  workflow for every path, in the order of the paths; no two workflows share a slug,
  so a slug leads to its workflow and to no other; and the tags are those of the
  workflows, each once, in ascending order (`Collection.Describes`).

  Collisions are found by comparing paths: two records with one slug and one path do
  not collide.  So the slugs differ only because the paths of a run do
  (`nodup_slugs_of_collisions`).

  Main statement: `describes_of_compilePaths`.
-/
import Mathlib.Data.List.Nodup
import WorkflowCatalog.Proofs.Runs

namespace WorkflowCatalog

open Text (CodeText CodePoint)

/-! ### Texts are told apart by their numbers -/

theorem Text.CodePoint.number_inj {p q : CodePoint} (h : p.number = q.number) : p = q := by
  -- the numbers of halves are those that no character has
  have hhalf : ∀ (c : Char) (n : Fin 0x800), c.toNat ≠ 0xd800 + n := by
    intro c n hc
    have hvalid : c.toNat < 0xd800 ∨ 0xdfff < c.toNat ∧ c.toNat < 0x110000 := c.valid
    omega
  cases p with
  | char c =>
    cases q with
    | char d => exact congrArg CodePoint.char (Char.toNat_inj.1 h)
    | half n => exact absurd h (hhalf c n)
  | half m =>
    cases q with
    | char d => exact absurd h.symm (hhalf d m)
    | half n =>
      have hmn : m = n := Fin.ext (Nat.add_left_cancel h)
      rw [hmn]

theorem Text.CodeText.numbers_inj (s t : CodeText) (h : s.numbers = t.numbers) : s = t := by
  obtain ⟨ps⟩ := s
  obtain ⟨qs⟩ := t
  have hpoints : ps = qs :=
    List.map_injective_iff.2 (fun _ _ => CodePoint.number_inj) h
  rw [hpoints]

namespace Collection

/-! ### Collisions -/

/-- Without a collision no record has a slug that is taken, and no two records share a
    slug, if every record has a path of its own. -/
theorem nodup_slugs_of_collisionsFrom {owners : List (Slug × Path)} {rs : List Record}
    (hpaths : (rs.map (·.path)).Nodup) (howners : ∀ o ∈ owners, o.2 ∉ rs.map (·.path))
    (h : collisionsFrom owners rs = []) :
    (rs.map (·.workflow.slug)).Nodup ∧
      ∀ o ∈ owners, o.1 ∉ rs.map (·.workflow.slug) := by
  induction rs generalizing owners with
  | nil => exact ⟨.nil, fun _ _ => List.not_mem_nil⟩
  | cons r rest ih =>
    rw [List.map_cons, List.nodup_cons] at hpaths
    unfold collisionsFrom at h
    cases hfind : owners.find? (·.1 == r.workflow.slug) with
    | some o =>
      -- the owner has another path, so there would be a collision
      have hother : o.2 ≠ r.path := by
        intro he
        exact howners o (List.mem_of_find?_eq_some hfind) (he ▸ List.mem_cons_self)
      rw [hfind] at h
      dsimp only at h
      rw [if_neg hother] at h
      cases h
    | none =>
      rw [hfind] at h
      have hfree : ∀ o ∈ owners, o.1 ≠ r.workflow.slug := by
        intro o ho
        simpa using List.find?_eq_none.1 hfind o ho
      have hnext : ∀ o ∈ owners ++ [(r.workflow.slug, r.path)], o.2 ∉ rest.map (·.path) := by
        intro o ho
        rcases List.mem_append.1 ho with ho | ho
        · intro hmem
          exact howners o ho (List.mem_cons_of_mem _ hmem)
        · rw [List.mem_singleton.1 ho]
          exact hpaths.1
      obtain ⟨hnodup, hfresh⟩ := ih hpaths.2 hnext h
      have hslug : r.workflow.slug ∉ rest.map (·.workflow.slug) :=
        hfresh (r.workflow.slug, r.path) (List.mem_append_right _ List.mem_cons_self)
      refine ⟨List.nodup_cons.2 ⟨hslug, hnodup⟩, ?_⟩
      intro o ho hmem
      rcases List.mem_cons.1 hmem with he | hmem
      · exact hfree o ho he
      · exact hfresh o (List.mem_append_left _ ho) hmem

theorem nodup_slugs_of_collisions {rs : List Record} (hpaths : (rs.map (·.path)).Nodup)
    (h : collisions rs = []) : (rs.map (·.workflow.slug)).Nodup :=
  (nodup_slugs_of_collisionsFrom hpaths (fun _ ho => absurd ho List.not_mem_nil) h).1

/-! ### Tags -/

theorem collectTags_perm (ws : List Workflow) :
    (collectTags ws).Perm (distinct (ws.flatMap fun w => w.tags.getD [])) :=
  @sortBy_perm _ _ List.instLE List.decidableLE CodeText.numbers _

theorem mem_collectTags {t : CodeText} {ws : List Workflow} :
    t ∈ collectTags ws ↔ ∃ w ∈ ws, t ∈ w.tags.getD [] := by
  rw [(collectTags_perm ws).mem_iff, mem_distinct, List.mem_flatMap]

theorem pairwise_collectTags (ws : List Workflow) :
    (collectTags ws).Pairwise fun s t => s.numbers < t.numbers := by
  have hle := @sortBy_pairwise _ _ List.instLE List.decidableLE CodeText.numbers
  refine @pairwise_lt_of_le _ _ List.instLE _ _ _ _ CodeText.numbers_inj _ (hle _) ?_
  exact (collectTags_perm ws).nodup_iff.2 (nodup_distinct _)

/-! ### Questions -/

theorem slugText_inj {s t : Slug} (h : (s.text : CodeText) = t.text) : s = t := by
  have htext : s.text = t.text := CodeText.ofString_inj h
  obtain ⟨s, hs⟩ := s
  obtain ⟨t, ht⟩ := t
  cases htext
  rfl

/-- A slug that no two workflows share leads to its workflow. -/
theorem bySlug?_eq_some {c : Collection} (h : (c.workflows.map (·.slug)).Nodup) {w : Workflow}
    (hw : w ∈ c.workflows) : c.bySlug? w.slug.text = some w := by
  unfold bySlug?
  cases hfind : c.workflows.find? (CodeText.ofString ·.slug.text == w.slug.text) with
  | none =>
    have hnone := List.find?_eq_none.1 hfind w hw
    simp at hnone
  | some v =>
    have hslug : v.slug = w.slug := slugText_inj (by simpa using List.find?_some hfind)
    have hv : v ∈ c.workflows := List.mem_of_find?_eq_some hfind
    rw [List.inj_on_of_nodup_map h hv hw hslug]

theorem bySlug?_eq_none {c : Collection} {slug : CodeText}
    (h : ∀ w ∈ c.workflows, CodeText.ofString w.slug.text ≠ slug) : c.bySlug? slug = none := by
  refine List.find?_eq_none.2 ?_
  intro w hw
  simpa using h w hw

theorem byTag_ne_nil {c : Collection} {t : CodeText} :
    c.byTag t ≠ [] ↔ ∃ w ∈ c.workflows, t ∈ w.tags.getD [] := by
  unfold byTag
  rw [ne_eq, List.filter_eq_nil_iff]
  simp

/-! ### Collections of runs -/

/-- What holds of the collection of the manifests at paths. -/
structure Describes (c : Collection) (paths : List Path) : Prop where
  /-- One workflow for each path, in order, with the slug of the file name. -/
  slugs : c.workflows.map (·.slug) = paths.map fun p => Slug.ofFilename p.name
  nodup : (c.workflows.map (·.slug)).Nodup
  searchIndex : c.searchIndex = c.workflows.map Workflow.searchEntry
  ascending : c.tags.Pairwise fun s t => s.numbers < t.numbers
  mem_tags : ∀ t, t ∈ c.tags ↔ ∃ w ∈ c.workflows, t ∈ w.tags.getD []
  bySlug : ∀ w ∈ c.workflows, c.bySlug? w.slug.text = some w
  bySlug_none : ∀ slug, (∀ w ∈ c.workflows, CodeText.ofString w.slug.text ≠ slug) →
    c.bySlug? slug = none
  byTag : ∀ t, c.byTag t ≠ [] ↔ t ∈ c.tags

theorem describes_ofWorkflows {ws : List Workflow} {paths : List Path}
    (hslugs : ws.map (·.slug) = paths.map fun p => Slug.ofFilename p.name)
    (hnodup : (ws.map (·.slug)).Nodup) : (ofWorkflows ws).Describes paths where
  slugs := hslugs
  nodup := hnodup
  searchIndex := rfl
  ascending := pairwise_collectTags ws
  mem_tags := fun _ => mem_collectTags
  bySlug := fun _ => bySlug?_eq_some hnodup
  bySlug_none := fun _ => bySlug?_eq_none
  byTag := fun _ => byTag_ne_nil.trans mem_collectTags.symm

end Collection

/-! ### Collections of compilations -/

namespace Compiler

open Collection (Record)

variable {fs : FileSystem} {config : Config}

/-- A run that stops for unreadable manifests and comes upon no parse error has a
    workflow for every path. -/
theorem map_records_of_run {ps : List Path} {os : List (Path × Outcome)}
    (hpaths : os.map (·.1) = ps) (hsettle : ∀ q ∈ os, settle true (answers fs config q.1) = .ok q.2)
    (hbad : parseErrors os = []) :
    (records os).map (·.path) = ps ∧
      ∀ r ∈ records os, (compileManifest fs config r.path).outcome = .ok r.workflow := by
  -- the only outcomes of a run that stops are workflows and parse errors
  have hok : ∀ q ∈ os, ∃ w, q.2 = .ok w ∧ (compileManifest fs config q.1).outcome = .ok w := by
    intro q hq
    have hs := hsettle q hq
    rcases ha : answers fs config q.1 with f | w
    · rw [ha] at hs
      rcases settle_true_eq_ok hs with ⟨e, -, ho⟩ | ⟨w, hw, -⟩
      · have hmem : e ∈ parseErrors os := mem_parseErrors.2 ⟨q.1, by rw [← ho]; exact hq⟩
        rw [hbad] at hmem
        cases hmem
      · cases hw
    · rw [ha] at hs
      exact ⟨w, (Except.ok.inj hs).symm, ha⟩
  constructor
  · rw [← hpaths]
    clear hpaths hsettle hbad
    induction os with
    | nil => rfl
    | cons q rest ih =>
      obtain ⟨w, hw, -⟩ := hok q List.mem_cons_self
      have hrest := ih fun q' hq' => hok q' (List.mem_cons_of_mem _ hq')
      obtain ⟨p, o⟩ := q
      dsimp only at hw
      subst hw
      change p :: (records rest).map (·.path) = p :: rest.map (·.1)
      rw [hrest]
  · intro r hr
    obtain ⟨w, hw, ha⟩ := hok _ (mem_records.1 hr)
    cases hw
    exact ha

/-- A compilation gives a collection only of outcomes without parse errors, and without two
    workflows that collide. -/
theorem exists_outcomes_of_compilesTo {paths : List Path} {c : Collection}
    (h : CompilesTo fs config paths (.ok c)) :
    ∃ os : List (Path × Outcome), os.map (·.1) = arrange paths ∧
      (∀ q ∈ os, settle true (answers fs config q.1) = .ok q.2) ∧ parseErrors os = [] ∧
      Collection.collisions (records os) = [] ∧
      c = .ofWorkflows ((records os).map (·.workflow)) := by
  obtain ⟨os, hends, hc⟩ := exists_ends_of_ok h
  cases hends with
  | whole hpaths hsettle =>
    refine ⟨os, hpaths, hsettle, ?_⟩
    by_cases hbad : parseErrors os = []
    · rw [outcome_conclude_of_nil hbad] at hc
      unfold Collection.build at hc
      cases hcol : Collection.collisions (records os) with
      | cons d ds =>
        rw [hcol] at hc
        cases hc
      | nil =>
        rw [hcol] at hc
        exact ⟨hbad, rfl, (Except.ok.inj hc).symm⟩
    · rw [outcome_conclude_of_ne_nil hbad] at hc
      split at hc
      · cases hc
      · cases hc

/-- **The collection of a compilation describes its paths**, taken in strictly ascending
    order of their texts and each once, whatever order the answers arrive in. -/
theorem describes_of_compilePaths {paths : List Path} {c : Collection} :
    ((compilePaths fs config paths).outcome = .ok c → CompilesTo fs config paths (.ok c)) ∧
    (CompilesTo fs config paths (.ok c) →
      ∃ ps : List Path, (ps.Pairwise fun p q => p.text < q.text) ∧ (∀ p, p ∈ ps ↔ p ∈ paths) ∧
        c.Describes ps) := by
  refine ⟨compilesTo_of_ok, fun h => ?_⟩
  refine ⟨arrange paths, pairwise_arrange paths, fun _ => mem_arrange, ?_⟩
  obtain ⟨os, hos, hsettle, hbad, hcol, rfl⟩ := exists_outcomes_of_compilesTo h
  obtain ⟨hpaths, hworkflow⟩ := map_records_of_run hos hsettle hbad
  have hnodup : ((records os).map (·.path)).Nodup := by
    rw [hpaths]
    exact nodup_distinct _
  apply Collection.describes_ofWorkflows
  · rw [← hpaths, List.map_map, List.map_map]
    apply List.map_congr_left
    intro r hr
    exact slug_of_compileManifest fs config (hworkflow r hr)
  · rw [List.map_map]
    exact Collection.nodup_slugs_of_collisions hnodup hcol

/-- Two manifests with a tag in common. -/
def twoManifests : FileSystem where
  entries := FileSystem.located [(["Beta.yaml"], .file "name: B\ntags: [x, y]\n".toUTF8),
    (["alpha.yml"], .file "tags: [x]\n".toUTF8)]
  workingDirectory := []

/-- Their paths, one of them given twice. -/
def twoPaths : List Path := [.ofString "alpha.yml", .ofString "Beta.yaml", .ofString "alpha.yml"]

theorem describes_twoManifests :
    ∃ c, (compilePaths twoManifests .usual twoPaths).outcome = .ok c ∧
      c.workflows.map (·.slug.text) = ["beta", "alpha"] ∧ c.tags = [↑"x", ↑"y"] ∧
      ∃ ps : List Path, (ps.Pairwise fun p q => p.text < q.text) ∧
        (∀ p, p ∈ ps ↔ p ∈ twoPaths) ∧ c.Describes ps := by
  have hrun : ((compilePaths twoManifests .usual twoPaths).outcome.map fun c =>
      (c.workflows.map (·.slug.text), c.tags)) = .ok (["beta", "alpha"], [↑"x", ↑"y"]) := by
    decide +kernel
  cases h : (compilePaths twoManifests .usual twoPaths).outcome with
  | error f =>
    rw [h] at hrun
    cases hrun
  | ok c =>
    rw [h] at hrun
    obtain ⟨hslugs, htags⟩ := Prod.mk.inj (Except.ok.inj hrun)
    exact ⟨c, rfl, hslugs, htags, describes_of_compilePaths.2 (describes_of_compilePaths.1 h)⟩

end Compiler

end WorkflowCatalog
