/-
  WorkflowCatalog/Proofs/Problems.lean
  ====================================
  **Validating lists exactly the problems.**  The list is put together from two sources:
  the errors of the manifests, and the collisions, which are found by going through the
  workflows that are left and keeping an owner for every slug.

  The owners are the first workflows with their slugs, so a collision names a workflow
  and the first one with its slug, if that is another (`mem_collisionsFrom`).  Since the
  manifests are in the order of their paths, the first is the one with the least path
  (`mem_collisions`).  A manifest is either an error or a workflow, and so it is in the
  list at most once (`pairwise_problemsOf`).

  Main statement: `reportsExactly_of_validate`.
-/
import WorkflowCatalog.Proofs.Runs

namespace WorkflowCatalog

namespace Collection

/-! ### Owners -/

/-- The first record with a slug. -/
def firstWith (rs : List Record) (slug : Slug) : Option Record :=
  rs.find? (·.workflow.slug == slug)

/-- The owners are the first of the records in front with their slugs. -/
def AreFirst (front : List Record) (owners : List (Slug × Path)) : Prop :=
  ∀ slug, owners.find? (·.1 == slug) = (firstWith front slug).map fun r => (slug, r.path)

theorem areFirst_nil : AreFirst [] [] := fun _ => rfl

theorem of_firstWith {rs : List Record} {slug : Slug} {r : Record}
    (h : firstWith rs slug = some r) : r ∈ rs ∧ r.workflow.slug = slug :=
  ⟨List.mem_of_find?_eq_some h, by simpa using List.find?_some h⟩

theorem exists_firstWith {rs : List Record} {r : Record} (h : r ∈ rs) :
    ∃ r₀, firstWith rs r.workflow.slug = some r₀ := by
  cases hfirst : firstWith rs r.workflow.slug with
  | some r₀ => exact ⟨r₀, rfl⟩
  | none =>
    have hnone := List.find?_eq_none.1 hfirst r h
    simp at hnone

theorem firstWith_append (front : List Record) (r : Record) (slug : Slug) :
    firstWith (front ++ [r]) slug =
      (firstWith front slug).or (if r.workflow.slug = slug then some r else none) := by
  unfold firstWith
  rw [List.find?_append]
  by_cases h : r.workflow.slug = slug
  · simp [h]
  · simp [h]

/-- A record whose slug has an owner changes no owner. -/
theorem AreFirst.keep {front : List Record} {owners : List (Slug × Path)} {r r₀ : Record}
    (h : AreFirst front owners) (hr : firstWith front r.workflow.slug = some r₀) :
    AreFirst (front ++ [r]) owners := by
  intro slug
  rw [h slug, firstWith_append]
  by_cases hslug : r.workflow.slug = slug
  · rw [← hslug, hr]
    rfl
  · rw [if_neg hslug, Option.or_none]

/-- A record whose slug has no owner becomes its owner. -/
theorem AreFirst.add {front : List Record} {owners : List (Slug × Path)} {r : Record}
    (h : AreFirst front owners) (hr : firstWith front r.workflow.slug = none) :
    AreFirst (front ++ [r]) (owners ++ [(r.workflow.slug, r.path)]) := by
  intro slug
  rw [List.find?_append, h slug, firstWith_append]
  by_cases hslug : r.workflow.slug = slug
  · subst hslug
    simp [hr]
  · simp [hslug]

/-! ### Collisions -/

/-- The collision of a record with the first in front of it that has its slug, if the two
    have different paths. -/
def Collides (front : List Record) (r : Record) (c : Collision) : Prop :=
  ∃ r₀, firstWith front r.workflow.slug = some r₀ ∧ r₀.path ≠ r.path ∧
    c = ⟨r.workflow.slug, r₀.path, r.path⟩

/-- A place in a list is at its head or in its tail. -/
theorem exists_split_cons {α : Type} {front : List α} {a : α} {as : List α}
    {P : List α → α → Prop} :
    (∃ before b after, a :: as = before ++ b :: after ∧ P (front ++ before) b) ↔
      P front a ∨ ∃ before b after, as = before ++ b :: after ∧ P (front ++ [a] ++ before) b := by
  constructor
  · rintro ⟨_ | ⟨a', before⟩, b, after, heq, hP⟩
    · obtain ⟨rfl, rfl⟩ := List.cons.inj heq
      rw [List.append_nil] at hP
      exact .inl hP
    · obtain ⟨rfl, hrest⟩ := List.cons.inj heq
      rw [List.append_cons] at hP
      exact .inr ⟨before, b, after, hrest, hP⟩
  · rintro (hP | ⟨before, b, after, rfl, hP⟩)
    · exact ⟨[], a, as, rfl, by rwa [List.append_nil]⟩
    · exact ⟨a :: before, b, after, rfl, by rwa [List.append_cons]⟩

/-- **Every collision is one of a record with the first that has its slug.** -/
theorem mem_collisionsFrom {front : List Record} {owners : List (Slug × Path)}
    (h : AreFirst front owners) {rs : List Record} {c : Collision} :
    c ∈ collisionsFrom owners rs ↔
      ∃ before r after, rs = before ++ r :: after ∧ Collides (front ++ before) r c := by
  induction rs generalizing front owners with
  | nil => simp [collisionsFrom]
  | cons r rest ih =>
    have hsplit := @exists_split_cons _ front r rest fun front r => Collides front r c
    rw [hsplit]
    unfold collisionsFrom
    cases hfirst : firstWith front r.workflow.slug with
    | none =>
      have hnot : ¬ Collides front r c := by
        rintro ⟨r₀, hr₀, -⟩
        rw [hfirst] at hr₀
        cases hr₀
      rw [h, hfirst]
      simp only [Option.map_none, hnot, false_or]
      exact ih (h.add hfirst)
    | some r₀ =>
      have hcollides : Collides front r c ↔
          r₀.path ≠ r.path ∧ c = ⟨r.workflow.slug, r₀.path, r.path⟩ := by
        unfold Collides
        rw [hfirst]
        simp
      rw [h, hfirst, ← ih (h.keep hfirst), hcollides]
      simp only [Option.map_some]
      by_cases hpath : r₀.path = r.path
      · simp [hpath]
      · simp [hpath]

section

variable {rs : List Record} (hsorted : rs.Pairwise fun r s => r.path.text < s.path.text)

include hsorted

/-- In ascending order the first record with a slug has the least path. -/
theorem text_le_of_firstWith {slug : Slug} {r₀ : Record} (h : firstWith rs slug = some r₀) :
    ∀ r ∈ rs, r.workflow.slug = slug → r₀.path.text ≤ r.path.text := by
  obtain ⟨-, before, after, rfl, hbefore⟩ := List.find?_eq_some_iff_append.1 h
  intro r hr hslug
  rcases List.mem_append.1 hr with hr | hr
  · simpa [hslug] using hbefore r hr
  rcases List.mem_cons.1 hr with rfl | hr
  · exact Std.le_refl _
  · exact Std.le_of_lt (List.rel_of_pairwise_cons (List.pairwise_append.1 hsorted).2.1 hr)

/-- **The collisions of records in ascending order**: each record collides with the one
    that has the least path of all with its slug, if that is another. -/
theorem mem_collisions {c : Collision} :
    c ∈ collisions rs ↔
      ∃ r ∈ rs, ∃ r₀ ∈ rs, r₀.workflow.slug = r.workflow.slug ∧ r₀.path.text < r.path.text ∧
        (∀ s ∈ rs, s.workflow.slug = r.workflow.slug → r₀.path.text ≤ s.path.text) ∧
        c = ⟨r.workflow.slug, r₀.path, r.path⟩ := by
  unfold collisions
  rw [mem_collisionsFrom areFirst_nil]
  simp only [List.nil_append]
  constructor
  · rintro ⟨before, r, after, rfl, r₀, hr₀, hpath, rfl⟩
    obtain ⟨hmem, hslug⟩ := of_firstWith hr₀
    have hlt : r₀.path.text < r.path.text :=
      (List.pairwise_append.1 hsorted).2.2 r₀ hmem r List.mem_cons_self
    refine ⟨r, by simp, r₀, List.mem_append_left _ hmem, hslug, hlt, ?_, rfl⟩
    refine text_le_of_firstWith hsorted ?_
    unfold firstWith at hr₀ ⊢
    rw [List.find?_append, hr₀, Option.some_or]
  · rintro ⟨r, hr, r₀, hr₀, hslug, hlt, hleast, rfl⟩
    obtain ⟨before, after, rfl⟩ := List.append_of_mem hr
    obtain ⟨hbefore, hafter, -⟩ := List.pairwise_append.1 hsorted
    -- the least path is below that of the record, so its record is in front
    have hmem : r₀ ∈ before := by
      rcases List.mem_append.1 hr₀ with hr₀ | hr₀
      · exact hr₀
      rcases List.mem_cons.1 hr₀ with rfl | hr₀
      · exact absurd hlt Std.lt_irrefl
      · exact absurd (Std.lt_trans hlt (List.rel_of_pairwise_cons hafter hr₀)) Std.lt_irrefl
    obtain ⟨r₁, hfirst⟩ := exists_firstWith hmem
    rw [hslug] at hfirst
    obtain ⟨hmem₁, hslug₁⟩ := of_firstWith hfirst
    have hle : r₁.path.text ≤ r₀.path.text := text_le_of_firstWith hbefore hfirst r₀ hmem hslug
    have hge : r₀.path.text ≤ r₁.path.text := hleast r₁ (List.mem_append_left _ hmem₁) hslug₁
    have hpath : r₁.path = r₀.path := Path.text_inj (Std.le_antisymm hle hge)
    refine ⟨before, r, after, rfl, r₁, hfirst, ?_, by rw [hpath]⟩
    intro heq
    rw [← hpath, heq] at hlt
    exact Std.lt_irrefl hlt

end

end Collection

namespace Compiler

open Collection (Record Collision collisions firstWith of_firstWith exists_firstWith
  text_le_of_firstWith mem_collisions)

/-! ### The list is in order -/

section

variable {os : List (Path × Outcome)} (hsorted : os.Pairwise fun q r => q.1.text < r.1.text)

include hsorted

/-- What is picked from outcomes and keeps their paths is in the order of the paths. -/
theorem pairwise_picked {β : Type} {pick : Path × Outcome → Option β} {path : β → Path}
    (hpick : ∀ q b, pick q = some b → path b = q.1) :
    (os.filterMap pick).Pairwise fun a b => (path a).text < (path b).text := by
  rw [List.pairwise_filterMap]
  refine hsorted.imp ?_
  intro q r hlt a ha b hb
  rw [hpick q a ha, hpick r b hb]
  exact hlt

theorem failures_ascending :
    (failures os).Pairwise fun a b => a.1.text < b.1.text := by
  refine pairwise_picked hsorted ?_
  rintro ⟨p, o⟩ b hb
  cases o with
  | ok w => cases hb
  | error e =>
    cases hb
    rfl

theorem records_ascending :
    (records os).Pairwise fun r s => r.path.text < s.path.text := by
  refine pairwise_picked hsorted ?_
  rintro ⟨p, o⟩ r hr
  cases o with
  | error e => cases hr
  | ok w =>
    cases hr
    rfl

/-- A path has one outcome. -/
theorem eq_of_mem_outcomes {p : Path} {o o' : Outcome} (h : (p, o) ∈ os) (h' : (p, o') ∈ os) :
    o = o' := by
  have hpaths : (os.map (·.1)).Nodup := by
    rw [List.Nodup, List.pairwise_map]
    refine hsorted.imp ?_
    intro q r hlt heq
    rw [heq] at hlt
    exact Std.lt_irrefl hlt
  exact congrArg Prod.snd (List.inj_on_of_nodup_map hpaths h h' rfl)

/-- **No manifest is listed twice**: it is an error or a workflow, and a workflow collides
    with one other only. -/
theorem pairwise_problemsOf :
    (problemsOf os).Pairwise fun a b => a.1.text < b.1.text := by
  have hne : ∀ {p q : Path}, p.text < q.text → p ≠ q := by
    rintro p q hlt rfl
    exact Std.lt_irrefl hlt
  have hperm := (sortBy_perm (fun p : Path × Error => p.1.text)
    (failures os ++ (collisions (records os)).map fun c => (c.second, collisionError c))).map (·.1)
  have hseconds : ((collisions (records os)).map (·.second)).Nodup := by
    refine List.Nodup.sublist (seconds_sublist [] _) ?_
    rw [List.Nodup, List.pairwise_map]
    exact (records_ascending hsorted).imp hne
  have hnodup : ((problemsOf os).map (·.1)).Nodup := by
    unfold problemsOf
    rw [hperm.nodup_iff, List.map_append, List.map_map, List.nodup_append]
    refine ⟨?_, hseconds, ?_⟩
    · rw [List.Nodup, List.pairwise_map]
      exact (failures_ascending hsorted).imp hne
    · -- what is an error is no workflow
      rintro p hp q hq rfl
      obtain ⟨⟨p, e⟩, hfailure, rfl⟩ := List.mem_map.1 hp
      obtain ⟨c, hc, hsecond⟩ := List.mem_map.1 hq
      obtain ⟨r, hr, r₀, -, -, -, -, rfl⟩ := (mem_collisions (records_ascending hsorted)).1 hc
      change r.path = p at hsecond
      have hok := mem_records.1 hr
      rw [hsecond] at hok
      cases eq_of_mem_outcomes hsorted (mem_failures.1 hfailure) hok
  have hle := sortBy_pairwise (fun p : Path × Error => p.1.text)
    (failures os ++ (collisions (records os)).map fun c => (c.second, collisionError c))
  rw [← List.pairwise_map (f := fun p : Path × Error => p.1)
    (R := fun p q : Path => p.text < q.text)]
  refine pairwise_lt_of_le (fun _ _ => Path.text_inj) ?_ hnodup
  rw [List.pairwise_map]
  exact hle

end

/-! ### What is listed -/

section

variable (fs : FileSystem) (config : Config) (paths : List Path)

/-- The manifest compiles to a workflow with the slug. -/
def GivesSlug (p : Path) (slug : Slug) : Prop :=
  ∃ w, (compileManifest fs config p).outcome = .ok w ∧ w.slug = slug

/-- The least of the paths whose manifests give a slug. -/
structure IsOwner (slug : Slug) (q : Path) : Prop where
  mem : q ∈ paths
  gives : GivesSlug fs config q slug
  least : ∀ q' ∈ paths, GivesSlug fs config q' slug → q.text ≤ q'.text

/-- What is wrong with a manifest, among the manifests at some paths: it fails, or another
    owns its slug. -/
inductive IsProblem (p : Path) : Error → Prop where
  | failure {e : Error} (h : (compileManifest fs config p).outcome = .error (.error e)) :
    IsProblem p e
  | duplicate {w : Workflow} {q : Path} (h : (compileManifest fs config p).outcome = .ok w)
    (hq : IsOwner fs config paths w.slug q) (hlt : q.text < p.text) :
    IsProblem p (.duplicateSlug w.slug.text q.text p.text)

/-- The list has the problems of the manifests at the paths, and nothing else. -/
structure ReportsExactly (problems : List (Path × Error)) : Prop where
  /-- The list is in the order of the paths, and no path is listed twice. -/
  ascending : problems.Pairwise fun a b => a.1.text < b.1.text
  mem_iff : ∀ p e, (p, e) ∈ problems ↔ p ∈ paths ∧ IsProblem fs config paths p e
  /-- Every failure of a manifest is an error that can be listed. -/
  failed : ∀ p ∈ paths, ∀ f, (compileManifest fs config p).outcome = .error f →
    ∃ e, f = .error e ∧ (p, e) ∈ problems
  /-- A manifest is listed if it fails, or shares its slug with one that has a smaller path. -/
  listed_iff : ∀ p ∈ paths, (∃ e, (p, e) ∈ problems) ↔
    (∃ f, (compileManifest fs config p).outcome = .error f) ∨
      ∃ slug, GivesSlug fs config p slug ∧
        ∃ q ∈ paths, GivesSlug fs config q slug ∧ q.text < p.text

variable {fs config paths} {os : List (Path × Outcome)}

/-- The outcomes of a complete run are those of its manifests. -/
theorem IsComplete.mem_outcomes (h : IsComplete fs config paths os) {p : Path} {o : Outcome} :
    (p, o) ∈ os ↔ p ∈ paths ∧ (compileManifest fs config p).outcome = o.mapError .error := by
  constructor
  · intro hmem
    exact ⟨(h.mem_iff p).1 ⟨o, hmem⟩, h.outcome (p, o) hmem⟩
  · rintro ⟨hp, ho⟩
    obtain ⟨o', hmem⟩ := (h.mem_iff p).2 hp
    have heq : o.mapError Failure.error = o'.mapError Failure.error :=
      ho.symm.trans (h.outcome (p, o') hmem)
    have hoo : o = o' := by
      cases o with
      | ok w =>
        cases o' with
        | ok w' => exact congrArg Except.ok (Except.ok.inj heq)
        | error e' => cases heq
      | error e =>
        cases o' with
        | ok w' => cases heq
        | error e' => exact congrArg Except.error (Failure.error.inj (Except.error.inj heq))
    rwa [hoo]

/-- There is one list of outcomes for a set of paths. -/
theorem IsComplete.eq {os' : List (Path × Outcome)} (h : IsComplete fs config paths os)
    (h' : IsComplete fs config paths os') : os = os' := by
  refine eq_of_ascending h.ascending h'.ascending ?_
  rintro ⟨p, o⟩
  rw [h.mem_outcomes, h'.mem_outcomes]

theorem IsComplete.mem_records (h : IsComplete fs config paths os) {r : Record} :
    r ∈ records os ↔
      r.path ∈ paths ∧ (compileManifest fs config r.path).outcome = .ok r.workflow := by
  rw [Compiler.mem_records, h.mem_outcomes]
  exact Iff.rfl

theorem IsComplete.mem_failures (h : IsComplete fs config paths os) {p : Path} {e : Error} :
    (p, e) ∈ failures os ↔
      p ∈ paths ∧ (compileManifest fs config p).outcome = .error (.error e) := by
  rw [Compiler.mem_failures, h.mem_outcomes]
  exact Iff.rfl

/-- The record of a manifest that gives a slug. -/
theorem IsComplete.exists_record (h : IsComplete fs config paths os) {p : Path} {slug : Slug}
    (hp : p ∈ paths) (hslug : GivesSlug fs config p slug) :
    ∃ r ∈ records os, r.path = p ∧ r.workflow.slug = slug := by
  obtain ⟨w, hw, hslug⟩ := hslug
  exact ⟨⟨p, w⟩, h.mem_records.2 ⟨hp, hw⟩, rfl, hslug⟩

theorem IsComplete.givesSlug (h : IsComplete fs config paths os) {r : Record}
    (hr : r ∈ records os) : r.path ∈ paths ∧ GivesSlug fs config r.path r.workflow.slug := by
  obtain ⟨hp, hw⟩ := h.mem_records.1 hr
  exact ⟨hp, r.workflow, hw, rfl⟩

/-- A slug that a manifest gives has an owner. -/
theorem IsComplete.exists_isOwner (h : IsComplete fs config paths os) {p : Path} {slug : Slug}
    (hp : p ∈ paths) (hslug : GivesSlug fs config p slug) :
    ∃ q, IsOwner fs config paths slug q := by
  obtain ⟨r, hr, -, rfl⟩ := h.exists_record hp hslug
  obtain ⟨r₀, hfirst⟩ := exists_firstWith hr
  obtain ⟨hmem, hslug₀⟩ := of_firstWith hfirst
  obtain ⟨hp₀, hgives⟩ := h.givesSlug hmem
  rw [hslug₀] at hgives
  refine ⟨r₀.path, hp₀, hgives, ?_⟩
  intro q' hq' hgives'
  obtain ⟨r', hr', rfl, hslug'⟩ := h.exists_record hq' hgives'
  exact text_le_of_firstWith (records_ascending h.ascending) hfirst r' hr' hslug'

/-- The collisions of a complete run. -/
theorem IsComplete.mem_collisions (h : IsComplete fs config paths os) {c : Collision} :
    c ∈ collisions (records os) ↔
      c.second ∈ paths ∧ GivesSlug fs config c.second c.slug ∧
        IsOwner fs config paths c.slug c.first ∧ c.first.text < c.second.text := by
  rw [Collection.mem_collisions (records_ascending h.ascending)]
  constructor
  · rintro ⟨r, hr, r₀, hr₀, hslug, hlt, hleast, rfl⟩
    obtain ⟨hp, hgives⟩ := h.givesSlug hr
    obtain ⟨hp₀, hgives₀⟩ := h.givesSlug hr₀
    rw [hslug] at hgives₀
    refine ⟨hp, hgives, ⟨hp₀, hgives₀, ?_⟩, hlt⟩
    intro q' hq' hgives'
    obtain ⟨r', hr', rfl, hslug'⟩ := h.exists_record hq' hgives'
    exact hleast r' hr' hslug'
  · obtain ⟨slug, first, second⟩ := c
    rintro ⟨hp, hgives, ⟨hp₀, hgives₀, hleast⟩, hlt⟩
    obtain ⟨r, hr, rfl, rfl⟩ := h.exists_record hp hgives
    obtain ⟨r₀, hr₀, rfl, hslug⟩ := h.exists_record hp₀ hgives₀
    refine ⟨r, hr, r₀, hr₀, hslug, hlt, ?_, rfl⟩
    intro s hs hslug'
    obtain ⟨hq, hgives'⟩ := h.givesSlug hs
    rw [hslug'] at hgives'
    exact hleast s.path hq hgives'

/-- **The problems of a complete run are those of its manifests.** -/
theorem IsComplete.mem_problemsOf (h : IsComplete fs config paths os) {p : Path} {e : Error} :
    (p, e) ∈ problemsOf os ↔ p ∈ paths ∧ IsProblem fs config paths p e := by
  rw [Compiler.mem_problemsOf, h.mem_failures]
  constructor
  · rintro (⟨hp, he⟩ | ⟨c, hc, heq⟩)
    · exact ⟨hp, .failure he⟩
    · obtain ⟨rfl, rfl⟩ := Prod.mk.inj heq
      obtain ⟨hp, ⟨w, hw, hslug⟩, hq, hlt⟩ := h.mem_collisions.1 hc
      refine ⟨hp, ?_⟩
      unfold collisionError
      rw [← hslug] at hq ⊢
      exact .duplicate hw hq hlt
  · rintro ⟨hp, he | ⟨hw, hq, hlt⟩⟩
    · exact .inl ⟨hp, he⟩
    · exact .inr ⟨⟨_, _, p⟩, h.mem_collisions.2 ⟨hp, ⟨_, hw, rfl⟩, hq, hlt⟩, rfl⟩

/-- A manifest of a complete run that fails is listed. -/
theorem IsComplete.listed_of_failed (h : IsComplete fs config paths os) {p : Path} (hp : p ∈ paths)
    {f : Failure} (hf : (compileManifest fs config p).outcome = .error f) :
    ∃ e, f = .error e ∧ (p, e) ∈ problemsOf os := by
  obtain ⟨o, hmem⟩ := (h.mem_iff p).2 hp
  have ho := h.outcome (p, o) hmem
  rw [hf] at ho
  cases o with
  | ok w => cases ho
  | error e =>
    cases ho
    exact ⟨e, rfl, h.mem_problemsOf.2 ⟨hp, .failure hf⟩⟩

theorem IsComplete.reportsExactly (h : IsComplete fs config paths os) :
    ReportsExactly fs config paths (problemsOf os) where
  ascending := pairwise_problemsOf h.ascending
  mem_iff _ _ := h.mem_problemsOf
  failed _ hp _ hf := h.listed_of_failed hp hf
  listed_iff p hp := by
    constructor
    · rintro ⟨e, he⟩
      obtain ⟨-, he | ⟨hw, hq, hlt⟩⟩ := h.mem_problemsOf.1 he
      · exact .inl ⟨_, he⟩
      · exact .inr ⟨_, ⟨_, hw, rfl⟩, _, hq.mem, hq.gives, hlt⟩
    · rintro (⟨f, hf⟩ | ⟨slug, ⟨w, hw, rfl⟩, q, hq, hgives, hlt⟩)
      · obtain ⟨e, -, he⟩ := h.listed_of_failed hp hf
        exact ⟨e, he⟩
      · obtain ⟨q₀, hq₀⟩ := h.exists_isOwner hq hgives
        have hlt₀ := Std.lt_of_le_of_lt (hq₀.least q hq hgives) hlt
        exact ⟨_, h.mem_problemsOf.2 ⟨hp, .duplicate hw hq₀ hlt₀⟩⟩

/-- The problems that a validation can list are those of a complete run. -/
theorem exists_complete_of_validatesTo {problems : List (Path × Error)}
    (h : ValidatesTo fs config paths (.ok problems)) :
    ∃ os, IsComplete fs config paths os ∧ problems = problemsOf os := by
  rcases leadsTo_iff.1 h with ⟨ended, hends, hproblems⟩ | ⟨-, hfails⟩
  · cases ended with
    | error f => cases hproblems
    | ok os => exact ⟨os, hends.isComplete, Except.ok.inj hproblems⟩
  · cases hfails

/-- **Validating lists exactly the problems** of the manifests that are found, or of others, and
    it lists the same whatever order their answers arrive in. -/
theorem reportsExactly_of_validate {directory : Path} {problems : List (Path × Error)} :
    ((validate fs config directory).outcome = .ok problems →
      ∃ paths, (discover fs config directory).outcome = .ok paths ∧
        ValidatesTo fs config paths (.ok problems)) ∧
    ∀ paths, ValidatesTo fs config paths (.ok problems) →
      ReportsExactly fs config paths problems ∧
        ∀ problems', ValidatesTo fs config paths (.ok problems') → problems' = problems := by
  refine ⟨validatesTo_of_ok, fun paths h => ?_⟩
  obtain ⟨os, hos, rfl⟩ := exists_complete_of_validatesTo h
  refine ⟨hos.reportsExactly, fun problems' h' => ?_⟩
  obtain ⟨os', hos', rfl⟩ := exists_complete_of_validatesTo h'
  rw [hos'.eq hos]

end

/-- A directory with three workflows of one slug, and between them two manifests that are
    no workflows, one of the same name. -/
def threeAlike : FileSystem where
  entries := FileSystem.located [(["d"], .directory), (["d", "a"], .directory),
    (["d", "a", "x.yml"], .file "- 1\n".toUTF8),
    (["d", "b.yaml"], .file "name: B\n".toUTF8), (["d", "b.yml"], .file "name: C\n".toUTF8),
    (["d", "c"], .directory), (["d", "c", "b.yaml"], .file "[".toUTF8),
    (["d", "d"], .directory), (["d", "d", "b.yaml"], .file "name: D\n".toUTF8)]
  workingDirectory := []

/-- Both later workflows are problems with the first, and so are the two that are none. -/
theorem reportsExactly_threeAlike :
    ∃ problems paths, (validate threeAlike .usual (.ofString "d")).outcome = .ok problems ∧
      (discover threeAlike .usual (.ofString "d")).outcome = .ok paths ∧
      ReportsExactly threeAlike .usual paths problems ∧
      problems.map (·.1.text) = ["d/a/x.yml", "d/b.yml", "d/c/b.yaml", "d/d/b.yaml"] ∧
      (.ofString "d/d/b.yaml", .duplicateSlug "b" "d/b.yaml" "d/d/b.yaml") ∈ problems := by
  have hlisted : (validate threeAlike .usual (.ofString "d")).outcome.map
      (·.map (·.1.text)) = .ok ["d/a/x.yml", "d/b.yml", "d/c/b.yaml", "d/d/b.yaml"] := by
    decide +kernel
  have hlast : (validate threeAlike .usual (.ofString "d")).outcome.map (·.getLast?) =
      .ok (some (.ofString "d/d/b.yaml", .duplicateSlug "b" "d/b.yaml" "d/d/b.yaml")) := by
    decide +kernel
  cases h : (validate threeAlike .usual (.ofString "d")).outcome with
  | error f =>
    rw [h] at hlisted
    cases hlisted
  | ok problems =>
    obtain ⟨hlisting, hall⟩ :=
      @reportsExactly_of_validate threeAlike .usual (.ofString "d") problems
    obtain ⟨paths, hdiscover, hvalidates⟩ := hlisting h
    obtain ⟨hreports, -⟩ := hall paths hvalidates
    rw [h] at hlisted hlast
    refine ⟨problems, paths, rfl, hdiscover, hreports, Except.ok.inj hlisted, ?_⟩
    exact List.mem_of_getLast? (Except.ok.inj hlast)

end Compiler

end WorkflowCatalog
