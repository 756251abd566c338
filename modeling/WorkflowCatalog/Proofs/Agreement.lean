/-
  WorkflowCatalog/Proofs/Agreement.lean
  =====================================
  **Compiling and validating agree.**  Compiling ends with a problem of the first kind that
  there is: an unreadable manifest, then the parse errors, then a collision.  Validating
  lists the problems of all kinds, sorted by path.  They are computed from the same
  outcomes, and the list has each kind of problem as compiling shows it.

  There is one gap.  `compile` shows parse errors as issues, and an issue cannot be
  made of an error that repeats the name of an argument with half a surrogate pair in
  it.  Main statement: whatever order the answers arrive in, if no wait fails, they agree
  exactly where there is no such error, or it does not matter because a manifest is
  unreadable (`agreement_iff`).
-/
import WorkflowCatalog.Proofs.Problems

namespace WorkflowCatalog.Compiler

open Collection (collisions)

section

variable (fs : FileSystem) (config : Config)

/-- What compiling ends in agrees with the problems that validating lists. -/
structure Agrees (paths : List Path) (problems : List (Path × Error))
    (compiled : Except Failure Collection) : Prop where
  /-- There is a collection exactly if there is no problem. -/
  collection : (∃ c, compiled = .ok c) ↔ problems = []
  /-- With unreadable manifests the error is the read error of one of them. -/
  unreadable : (∃ p ∈ paths, IsUnreadable fs config p) →
    ∃ q ∈ problems, IsReadError q.2 ∧ compiled = .error (.error q.2)
  /-- With manifests that cannot be parsed, and all readable, the error has their errors
      in the order of the list. -/
  unparsed : (∀ p ∈ paths, ¬ IsUnreadable fs config p) →
    (∃ p ∈ paths, ∃ e, IsUnparsed fs config p e) →
      ∃ issues names, compiled = .error (.error (.manifests (parseErrorsIn problems) issues names))
  /-- With collisions only, the error is the first of them. -/
  collision : ∀ q rest, problems = q :: rest → (∀ q' ∈ problems, IsCollisionError q'.2) →
    compiled = .error (.error q.2)

variable {fs config} {paths : List Path} {os : List (Path × Outcome)}
  {compiled : Except Failure Collection}

/-! ### The outcomes of all manifests -/

theorem IsComplete.pairwise_paths (h : IsComplete fs config paths os) :
    (os.map (·.1)).Pairwise fun p q => p.text < q.text := by
  rw [List.pairwise_map]
  exact h.ascending

/-- The parse errors of a complete run are those of its manifests. -/
theorem IsComplete.mem_parseErrors (h : IsComplete fs config paths os) {e : ParseError} :
    e ∈ parseErrors os ↔ ∃ p ∈ paths, IsUnparsed fs config p e := by
  rw [Compiler.mem_parseErrors]
  refine exists_congr fun p => ?_
  rw [h.mem_outcomes]
  exact Iff.rfl

theorem IsComplete.presentable (h : IsComplete fs config paths os) :
    ∀ e ∈ parseErrors os, e.Presentable := by
  intro e he
  obtain ⟨p, -, hun⟩ := h.mem_parseErrors.1 he
  exact presentable_of_isUnparsed hun

theorem IsComplete.forall_isShown_iff (h : IsComplete fs config paths os) :
    (∀ e ∈ parseErrors os, e.isShown = true) ↔
      ∀ p ∈ paths, ∀ e, IsUnparsed fs config p e → e.isShown = true := by
  constructor
  · intro hall p hp e hun
    exact hall e (h.mem_parseErrors.2 ⟨p, hp, hun⟩)
  · intro hall e he
    obtain ⟨p, hp, hun⟩ := h.mem_parseErrors.1 he
    exact hall p hp e hun

/-- The failure of a manifest is among the problems. -/
theorem IsComplete.mem_problemsOf_of_failed (h : IsComplete fs config paths os) {p : Path}
    (hp : p ∈ paths) {e : Error}
    (he : (compileManifest fs config p).outcome = .error (.error e)) : (p, e) ∈ problemsOf os :=
  h.mem_problemsOf.2 ⟨hp, .failure he⟩

/-- Without unreadable manifests, the errors of manifests are the parse errors. -/
theorem IsComplete.failures_eq_nil (h : IsComplete fs config paths os)
    (hends : ∀ p ∈ paths, EndsForeseen fs config p)
    (hread : ∀ p ∈ paths, ¬ IsUnreadable fs config p) (hbad : parseErrors os = []) :
    failures os = [] := by
  refine List.eq_nil_iff_forall_not_mem.2 ?_
  rintro ⟨p, e⟩ hmem
  obtain ⟨hp, he⟩ := h.mem_failures.1 hmem
  rcases hends p hp with ⟨w, hw⟩ | ⟨d, hd⟩ | hun
  · rw [he] at hw
    cases hw
  · have hin : d ∈ parseErrors os := h.mem_parseErrors.2 ⟨p, hp, hd⟩
    rw [hbad] at hin
    cases hin
  · exact hread p hp hun

/-- **What compiling can end in**, where the work on every manifest ends as foreseen. -/
theorem compiled_cases (hends : ∀ p ∈ paths, EndsForeseen fs config p)
    (h : IsComplete fs config paths os) (hcompiled : CompilesTo fs config paths compiled) :
    (∃ p ∈ paths, ∃ e, IsReadError e ∧
      (compileManifest fs config p).outcome = .error (.error e) ∧ compiled = .error (.error e)) ∨
    ((∀ p ∈ paths, ¬ IsUnreadable fs config p) ∧ compiled = (conclude os).outcome) ∨
    (¬ CanWait config paths ∧ compiled = .error .waitTooLong) := by
  rcases leadsTo_iff.1 hcompiled with ⟨ended, hended, rfl⟩ | hfails
  · cases ended with
    | error f =>
      obtain ⟨p, hp, hf, hfatal⟩ := hended.exists_fatal
      rcases hends p hp with ⟨w, hw⟩ | ⟨d, hd⟩ | ⟨e, hread, he⟩
      · rw [hf] at hw
        cases hw
      · rw [hf] at hd
        exact absurd (Except.error.inj hd) (hfatal.1 d)
      · rw [hf] at he
        cases he
        exact .inl ⟨p, hp, e, hread, hf, rfl⟩
    | ok os' =>
      refine .inr (.inl ⟨fun p hp => ?_, by rw [hended.isComplete.eq h]; rfl⟩)
      exact (exists_settle_true_iff.1 (hended.exists_settle p hp)).2
  · exact .inr (.inr hfails)

/-! ### Agreement -/

/-- Where a manifest is unreadable, compiling and validating agree. -/
theorem agrees_of_unreadable {problems : List (Path × Error)} {q : Path × Error}
    (hq : q ∈ problems) (he : IsReadError q.2) (hp : ∃ p ∈ paths, IsUnreadable fs config p) :
    Agrees fs config paths problems (.error (.error q.2)) where
  collection := by
    constructor
    · rintro ⟨c, hc⟩
      cases hc
    · rintro rfl
      cases hq
  unreadable := fun _ => ⟨q, hq, he, rfl⟩
  unparsed := by
    intro hread
    obtain ⟨p, hmem, hun⟩ := hp
    exact absurd hun (hread p hmem)
  collision := by
    intro q' rest _ hall
    obtain ⟨reason, path, detail, hread⟩ := he
    obtain ⟨slug, first, second, hcol⟩ := hall q hq
    rw [hread] at hcol
    cases hcol

/-- Where every manifest gives a workflow, compiling and validating agree. -/
theorem agrees_of_no_failures (h : IsComplete fs config paths os)
    (hread : ∀ p ∈ paths, ¬ IsUnreadable fs config p)
    (hparsed : ¬ ∃ p ∈ paths, ∃ e, IsUnparsed fs config p e) (hf : failures os = [])
    (hbad : parseErrors os = []) :
    Agrees fs config paths (problemsOf os) (conclude os).outcome := by
  have hproblems := problemsOf_of_no_failures h.pairwise_paths hf
  rw [outcome_conclude_of_nil hbad, hproblems]
  unfold Collection.build
  cases hcol : collisions (records os) with
  | nil =>
    constructor
    · exact ⟨fun _ => rfl, fun _ => ⟨_, rfl⟩⟩
    · rintro ⟨p, hp, hun⟩
      exact absurd hun (hread p hp)
    · intro _ hun
      exact absurd hun hparsed
    · intro q rest hq
      cases hq
  | cons c rest =>
    constructor
    · constructor
      · rintro ⟨c', hc'⟩
        cases hc'
      · intro hnil
        cases hnil
    · rintro ⟨p, hp, hun⟩
      exact absurd hun (hread p hp)
    · intro _ hun
      exact absurd hun hparsed
    · intro q rest' hq _
      cases hq
      rfl

/-- Where no manifest is unreadable and one cannot be parsed, compiling and validating
    agree exactly if the parse errors can be shown. -/
theorem agrees_iff_of_unparsed (h : IsComplete fs config paths os)
    (hread : ∀ p ∈ paths, ¬ IsUnreadable fs config p) (hbad : parseErrors os ≠ []) :
    Agrees fs config paths (problemsOf os) (conclude os).outcome ↔
      ∀ e ∈ parseErrors os, e.isShown = true := by
  obtain ⟨d, hd⟩ := List.exists_mem_of_ne_nil _ hbad
  obtain ⟨p, hp, hun⟩ := h.mem_parseErrors.1 hd
  rcases outcome_conclude_cases hbad h.presentable with ⟨issues, -, hall, hended⟩ | ⟨hnot, hended⟩
  · rw [hended]
    refine ⟨fun _ => hall, fun _ => ?_⟩
    have hmem : (p, .parse d) ∈ problemsOf os := h.mem_problemsOf_of_failed hp hun
    constructor
    · constructor
      · rintro ⟨c, hc⟩
        cases hc
      · intro hnil
        rw [hnil] at hmem
        cases hmem
    · rintro ⟨p', hp', hun'⟩
      exact absurd hun' (hread p' hp')
    · intro _ _
      exact ⟨issues, _, by rw [parseErrorsIn_problemsOf h.pairwise_paths]⟩
    · intro q rest _ hall'
      obtain ⟨slug, first, second, hcol⟩ := hall' _ hmem
      cases hcol
  · rw [hended]
    refine ⟨fun hagrees => ?_, fun hall => absurd hall hnot⟩
    obtain ⟨issues, names, hcompiled⟩ := hagrees.unparsed hread ⟨p, hp, d, hun⟩
    cases hcompiled

/-- A compilation that is not cut short agrees with the problems exactly if a manifest is
    unreadable or every parse error can be shown. -/
theorem agrees_iff (hends : ∀ p ∈ paths, EndsForeseen fs config p)
    (h : IsComplete fs config paths os) (hcompiled : CompilesTo fs config paths compiled) :
    (¬ CanWait config paths ∧ compiled = .error .waitTooLong) ∨
      (Agrees fs config paths (problemsOf os) compiled ↔
        (∃ p ∈ paths, IsUnreadable fs config p) ∨
          ∀ p ∈ paths, ∀ e, IsUnparsed fs config p e → e.isShown = true) := by
  rcases compiled_cases hends h hcompiled with
    ⟨p, hp, e, hread, he, rfl⟩ | ⟨hread, rfl⟩ | hfails
  · have hun : ∃ p ∈ paths, IsUnreadable fs config p := ⟨p, hp, e, hread, he⟩
    refine .inr ⟨fun _ => .inl hun, fun _ => ?_⟩
    exact agrees_of_unreadable (h.mem_problemsOf_of_failed hp he) hread hun
  · refine .inr ?_
    have hnone : ¬ ∃ p ∈ paths, IsUnreadable fs config p := by
      rintro ⟨p, hp, hun⟩
      exact hread p hp hun
    rw [or_iff_right hnone, ← h.forall_isShown_iff]
    by_cases hbad : parseErrors os = []
    · have hparsed : ¬ ∃ p ∈ paths, ∃ e, IsUnparsed fs config p e := by
        rintro ⟨p, hp, e, hun⟩
        have hmem := h.mem_parseErrors.2 ⟨p, hp, hun⟩
        rw [hbad] at hmem
        cases hmem
      have hfailures := h.failures_eq_nil hends hread hbad
      have hagrees := agrees_of_no_failures h hread hparsed hfailures hbad
      refine ⟨fun _ => ?_, fun _ => hagrees⟩
      rw [hbad]
      nofun
    · exact agrees_iff_of_unparsed h hread hbad
  · exact .inl hfails

/-- **Compiling and validating agree**, exactly if a manifest is unreadable or every parse
    error can be shown.  The order in which answers arrive makes no difference; but where the
    time limit is longer than can be waited, each of them may end with a wait that fails. -/
theorem agreement_iff {directory : Path}
    (hdiscover : (discover fs config directory).outcome = .ok paths)
    (hends : ∀ p ∈ paths, EndsForeseen fs config p) :
    ∃ problems,
      (∀ validated, ValidatesTo fs config paths validated ↔ validated = .ok problems ∨
        (¬ CanWait config paths ∧ validated = .error .waitTooLong)) ∧
      (∀ compiled, CompilesTo fs config paths compiled →
        (¬ CanWait config paths ∧ compiled = .error .waitTooLong) ∨
        (Agrees fs config paths problems compiled ↔
          (∃ p ∈ paths, IsUnreadable fs config p) ∨
            ∀ p ∈ paths, ∀ e, IsUnparsed fs config p e → e.isShown = true)) ∧
      (isOverAtOnce config = false →
        ValidatesTo fs config paths (validate fs config directory).outcome ∧
          CompilesTo fs config paths (compile fs config directory).outcome) := by
  obtain ⟨os, hos⟩ := exists_ends_ok fun p hp => exists_settle_of_endsForeseen (hends p hp)
  refine ⟨problemsOf os, fun validated => ?_, fun compiled => agrees_iff hends hos.isComplete,
    fun htime => ⟨validatesTo_validate hdiscover htime, compilesTo_compile hdiscover htime⟩⟩
  exact leadsTo_iff_of_unique hos fun _ => hos.eq_of_ok

end

/-! ### A file system where they agree, and one where they do not -/

/-- A directory with a workflow and a manifest that is a list. -/
def oneMalformed : FileSystem where
  entries := FileSystem.located [(["d"], .directory), (["d", "a.yaml"], .file "name: A\n".toUTF8),
    (["d", "b.yaml"], .file "- 1\n".toUTF8)]
  workingDirectory := []

theorem isUnparsed_oneMalformed : IsUnparsed oneMalformed .usual (.ofString "d/b.yaml")
    ⟨.malformed "Manifest top level must be a mapping, got list", "d/b.yaml", none, none,
      none⟩ := by
  unfold IsUnparsed
  decide +kernel

/-- Validating lists the parse error, and compiling ends with it. -/
theorem agreement_oneMalformed :
    (discover oneMalformed .usual (.ofString "d")).outcome =
        .ok [.ofString "d/a.yaml", .ofString "d/b.yaml"] ∧
      (∀ p ∈ [Path.ofString "d/a.yaml", .ofString "d/b.yaml"],
        EndsForeseen oneMalformed .usual p) ∧
      ∃ problems, (validate oneMalformed .usual (.ofString "d")).outcome = .ok problems ∧
        Agrees oneMalformed .usual [.ofString "d/a.yaml", .ofString "d/b.yaml"] problems
          (compile oneMalformed .usual (.ofString "d")).outcome := by
  have hdiscover : (discover oneMalformed .usual (.ofString "d")).outcome =
      .ok [.ofString "d/a.yaml", .ofString "d/b.yaml"] := by decide +kernel
  obtain ⟨w, hw⟩ : ∃ w, (compileManifest oneMalformed .usual (.ofString "d/a.yaml")).outcome =
      .ok w := by
    have ha : ((compileManifest oneMalformed .usual (.ofString "d/a.yaml")).outcome.map
        fun w => w.slug.text) = .ok "a" := by decide +kernel
    cases h : (compileManifest oneMalformed .usual (.ofString "d/a.yaml")).outcome with
    | ok w => exact ⟨w, rfl⟩
    | error f =>
      rw [h] at ha
      cases ha
  have hends : ∀ p ∈ [Path.ofString "d/a.yaml", .ofString "d/b.yaml"],
      EndsForeseen oneMalformed .usual p := by
    rw [List.forall_mem_cons, List.forall_mem_singleton]
    exact ⟨.inl ⟨w, hw⟩, .inr (.inl ⟨_, isUnparsed_oneMalformed⟩)⟩
  have hshown : ∀ p ∈ [Path.ofString "d/a.yaml", .ofString "d/b.yaml"],
      ∀ e, IsUnparsed oneMalformed .usual p e → e.isShown = true := by
    rw [List.forall_mem_cons, List.forall_mem_singleton]
    constructor
    · intro e he
      cases hw.symm.trans he
    · intro e he
      cases isUnparsed_oneMalformed.symm.trans he
      rfl
  have hwait : CanWait .usual [Path.ofString "d/a.yaml", .ofString "d/b.yaml"] :=
    .inl (by decide +kernel)
  obtain ⟨problems, hvalidates, hcompiles, hprograms⟩ := agreement_iff hdiscover hends
  obtain ⟨hvalidate, hcompile⟩ := hprograms (by decide +kernel)
  refine ⟨hdiscover, hends, problems, ?_, ?_⟩
  · exact ((hvalidates _).1 hvalidate).resolve_right fun h => h.1 hwait
  · have hagrees := (hcompiles _ hcompile).resolve_left fun h => h.1 hwait
    exact hagrees.2 (.inr hshown)

/-- A directory with a manifest that has two arguments with one name, half a surrogate
    pair. -/
def repeatedHalf : FileSystem where
  entries := FileSystem.located [(["d"], .directory),
    (["d", "m.yaml"],
      .file "arguments:\n- name: \"\\ud800\"\n- name: \"\\ud800\"\n".toUTF8)]
  workingDirectory := []

/-- Settings under which arguments that share a name are an error. -/
def refusing : Config := { Config.usual with uniqueArguments := true }

/-- Validating lists the repeated argument, but compiling ends in a mismatch. -/
theorem disagreement_repeatedHalf :
    ∃ problems, (discover repeatedHalf refusing (.ofString "d")).outcome =
        .ok [.ofString "d/m.yaml"] ∧
      isOverAtOnce refusing = false ∧
      (∀ p ∈ [Path.ofString "d/m.yaml"], EndsForeseen repeatedHalf refusing p) ∧
      (validate repeatedHalf refusing (.ofString "d")).outcome = .ok problems ∧
      ¬ Agrees repeatedHalf refusing [.ofString "d/m.yaml"] problems
        (compile repeatedHalf refusing (.ofString "d")).outcome := by
  have herror : IsUnparsed repeatedHalf refusing (.ofString "d/m.yaml")
      ⟨.duplicateArgument ⟨[.half 0]⟩, "d/m.yaml", none, none, none⟩ := by
    unfold IsUnparsed
    decide +kernel
  have hcompile : (compile repeatedHalf refusing (.ofString "d")).outcome =
      .error (.mismatch issueMismatch) := by decide +kernel
  have hread : ∀ p ∈ [Path.ofString "d/m.yaml"], ¬ IsUnreadable repeatedHalf refusing p := by
    intro p hp
    rw [List.mem_singleton.1 hp]
    rintro ⟨e, ⟨reason, path, detail, rfl⟩, he⟩
    rw [herror] at he
    cases he
  refine ⟨[(.ofString "d/m.yaml",
    .parse ⟨.duplicateArgument ⟨[.half 0]⟩, "d/m.yaml", none, none, none⟩)],
    by decide +kernel, by decide +kernel, ?_, by decide +kernel, ?_⟩
  · intro p hp
    rw [List.mem_singleton.1 hp]
    exact .inr (.inl ⟨_, herror⟩)
  · intro hagrees
    obtain ⟨issues, names, h⟩ :=
      hagrees.unparsed hread ⟨_, List.mem_singleton.2 rfl, _, herror⟩
    rw [hcompile] at h
    cases h

end WorkflowCatalog.Compiler
