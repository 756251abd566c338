/-
  WorkflowCatalog/Proofs/SharedSlugs.lean
  =======================================
  **When two workflows of a collection can share a slug.**  The check for collisions keeps
  an owner for every slug and compares paths.  So of a slug it reports a collision exactly
  if two records have it under different paths (`exists_collision_iff`), in whatever order
  the records come and however many there are.

  A record that stands in the list twice, under one path and with one slug, is its own
  owner, and is not reported.  If nothing else is wrong the collection is built, and two of
  its workflows share a slug (`HidesRepeat`).  This is the only way in which they can.

  Main statement: `keepsApart_iff`.
-/
import WorkflowCatalog.Proofs.Problems

namespace WorkflowCatalog.Collection

variable {rs : List Record} {slug : Slug}

/-! ### What is reported of a slug -/

/-- The first record with a slug stands in front of every other one that has it. -/
theorem firstWith_before {before after : List Record} {r t : Record}
    (h : firstWith (before ++ t :: after) slug = some r) (ht : t.workflow.slug = slug)
    (hne : r ≠ t) : firstWith before slug = some r := by
  unfold firstWith at h ⊢
  rw [List.find?_append] at h
  cases hfind : before.find? (·.workflow.slug == slug) with
  | some s =>
    rw [hfind] at h
    exact h
  | none =>
    rw [hfind] at h
    simp only [Option.none_or, List.find?_cons, ht, beq_self_eq_true, Option.some.injEq] at h
    exact absurd h.symm hne

/-- **A collision is reported for a slug** exactly if two records have it under different
    paths. -/
theorem exists_collision_iff :
    (∃ c ∈ collisions rs, c.slug = slug) ↔
      ∃ r ∈ rs, ∃ s ∈ rs, r.workflow.slug = slug ∧ s.workflow.slug = slug ∧ r.path ≠ s.path := by
  constructor
  · rintro ⟨c, hc, hslug⟩
    obtain ⟨before, s, after, rfl, r, hr, hpath, rfl⟩ := (mem_collisionsFrom areFirst_nil).1 hc
    rw [List.nil_append] at hr
    obtain ⟨hmem, hsame⟩ := of_firstWith hr
    exact ⟨r, List.mem_append_left _ hmem, s, by simp, hsame.trans hslug, hslug, hpath⟩
  · rintro ⟨r, hr, s, hs, hrslug, hsslug, hpath⟩
    obtain ⟨r₀, hfirst⟩ := exists_firstWith hr
    rw [hrslug] at hfirst
    -- one of the two has another path than the first record with the slug
    obtain ⟨t, ht, htslug, hother⟩ : ∃ t ∈ rs, t.workflow.slug = slug ∧ r₀.path ≠ t.path := by
      by_cases hsame : r₀.path = r.path
      · exact ⟨s, hs, hsslug, fun h => hpath (hsame.symm.trans h)⟩
      · exact ⟨r, hr, hrslug, hsame⟩
    obtain ⟨before, after, rfl⟩ := List.append_of_mem ht
    have hbefore := firstWith_before hfirst htslug fun h => hother (congrArg Record.path h)
    subst htslug
    exact ⟨_, (mem_collisionsFrom areFirst_nil).2 ⟨before, t, after, rfl, r₀, hbefore, hother, rfl⟩,
      rfl⟩

/-- Every slug stands for one path. -/
def OnePathEach (rs : List Record) : Prop :=
  ∀ r ∈ rs, ∀ s ∈ rs, r.workflow.slug = s.workflow.slug → r.path = s.path

theorem collisions_eq_nil_iff : collisions rs = [] ↔ OnePathEach rs := by
  rw [List.eq_nil_iff_forall_not_mem]
  constructor
  · intro h r hr s hs hslug
    by_contra hpath
    obtain ⟨c, hc, -⟩ := exists_collision_iff.2 ⟨r, hr, s, hs, rfl, hslug.symm, hpath⟩
    exact h c hc
  · intro h c hc
    obtain ⟨r, hr, s, hs, hrslug, hsslug, hpath⟩ := exists_collision_iff.1 ⟨c, hc, rfl⟩
    exact hpath (h r hr s hs (hrslug.trans hsslug.symm))

theorem build_eq_ok_iff {c : Collection} :
    build rs = .ok c ↔ OnePathEach rs ∧ ofWorkflows (rs.map (·.workflow)) = c := by
  rw [← collisions_eq_nil_iff]
  unfold build
  cases collisions rs <;> simp

/-! ### Slugs that are shared -/

/-- The workflows of the collection of the records, if there is one, have different slugs. -/
def KeepsApart (rs : List Record) : Prop :=
  ∀ c, build rs = .ok c → (c.workflows.map (·.slug)).Nodup

/-- If two records share a slug, a collision is reported. -/
def ReportsShared (rs : List Record) : Prop :=
  ¬ (rs.map (·.workflow.slug)).Nodup → collisions rs ≠ []

/-- A path and a slug stand in the list twice together, and no slug stands for two paths. -/
structure HidesRepeat (rs : List Record) : Prop where
  repeated : ¬ (rs.map fun r => (r.path, r.workflow.slug)).Nodup
  onePathEach : OnePathEach rs

/-- Where every slug stands for one path, slugs are shared where paths and slugs are repeated. -/
theorem nodup_slugs_iff (h : OnePathEach rs) :
    (rs.map (·.workflow.slug)).Nodup ↔ (rs.map fun r => (r.path, r.workflow.slug)).Nodup := by
  have hslugs : rs.map (·.workflow.slug) =
      (rs.map fun r => (r.path, r.workflow.slug)).map Prod.snd := by simp
  rw [hslugs]
  refine ⟨List.Nodup.of_map _, fun hnodup => hnodup.map_on ?_⟩
  intro x hx y hy hxy
  obtain ⟨r, hr, rfl⟩ := List.mem_map.1 hx
  obtain ⟨s, hs, rfl⟩ := List.mem_map.1 hy
  exact Prod.ext (h r hr s hs hxy) hxy

theorem reportsShared_iff : ReportsShared rs ↔ ¬ HidesRepeat rs := by
  unfold ReportsShared
  rw [ne_eq, collisions_eq_nil_iff]
  constructor
  · intro h hides
    exact h (mt (nodup_slugs_iff hides.onePathEach).1 hides.repeated) hides.onePathEach
  · intro h hshared honePath
    exact h ⟨mt (nodup_slugs_iff honePath).2 hshared, honePath⟩

theorem keepsApart_iff_reportsShared : KeepsApart rs ↔ ReportsShared rs := by
  have hworkflows : (ofWorkflows (rs.map (·.workflow))).workflows.map (·.slug) =
      rs.map (·.workflow.slug) := by simp [ofWorkflows]
  unfold KeepsApart ReportsShared
  rw [ne_eq, collisions_eq_nil_iff]
  constructor
  · intro h hshared honePath
    apply hshared
    rw [← hworkflows]
    exact h _ (build_eq_ok_iff.2 ⟨honePath, rfl⟩)
  · intro h c hbuild
    obtain ⟨honePath, rfl⟩ := build_eq_ok_iff.1 hbuild
    rw [hworkflows]
    by_contra hshared
    exact h hshared honePath

/-- **No two workflows of a collection share a slug**, and no shared slug goes unreported,
    unless a record is repeated and nothing collides. -/
theorem keepsApart_iff (rs : List Record) :
    (KeepsApart rs ↔ ¬ HidesRepeat rs) ∧ (ReportsShared rs ↔ ¬ HidesRepeat rs) :=
  ⟨keepsApart_iff_reportsShared.trans reportsShared_iff, reportsShared_iff⟩

/-- Two workflows with one slug, at one path. -/
def givenTwice : List Record :=
  ["Build", "Clean"].map fun name =>
    { path := .ofString "d/m.yaml"
      workflow :=
        { name, command := "", description := none, tags := none, arguments := none,
          sourceUrl := none, author := none, authorUrl := none, shells := none,
          slug := .ofFilename "m.yaml" } }

/-- Both go into the collection, and no collision is reported. -/
theorem not_keepsApart_givenTwice :
    (givenTwice.Pairwise fun r s => r.path.text ≤ s.path.text) ∧
      collisions givenTwice = [] ∧ ¬ KeepsApart givenTwice := by
  refine ⟨by decide +kernel, by decide +kernel, fun h => ?_⟩
  have hnodup := h (ofWorkflows (givenTwice.map (·.workflow))) rfl
  exact absurd hnodup (by decide +kernel)

end WorkflowCatalog.Collection
