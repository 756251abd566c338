/-
  WorkflowCatalog/Proofs/PathSets.lean
  ====================================
  **Compiling depends on the set of paths only.**  Paths may be given as texts or as
  paths, in any order, repeated, and spelled with superfluous slashes and dots.  A run
  begins by arranging them, and arranged are the members of the set in ascending order
  (`arrange_congr`).

  After that only the order in which answers arrive could make a difference.  It makes
  none as long as there is time, no wait fails and no two manifests end in failures that end
  the run (`ends_unique`).  But where the time limit is longer than can be waited, a run ends
  in the same way only if the answers are there before it waits for them.

  Main statements: `compilesTo_congr`, and `not_compilesTo_unique` for one manifest that
  compiles or not.
-/
import WorkflowCatalog.Proofs.Problems

namespace WorkflowCatalog.Compiler

/-! ### Paths as they are given -/

/-- The path that a text or a path stands for. -/
def denoted : String ⊕ Path → Path := Sum.elim Path.ofString id

/-- Paths with the same members are arranged to the same list. -/
theorem arrange_congr {paths paths' : List Path} (h : ∀ p, p ∈ paths ↔ p ∈ paths') :
    arrange paths = arrange paths' := by
  refine eq_of_ascending (pairwise_arrange paths) (pairwise_arrange paths') ?_
  intro p
  rw [mem_arrange, mem_arrange, h]

theorem run_congr {fs : FileSystem} {config : Config} {stop : Bool} {paths paths' : List Path}
    (h : arrange paths = arrange paths') :
    run fs config stop paths = run fs config stop paths' := by
  unfold run
  rw [h]

theorem compilePaths_congr {fs : FileSystem} {config : Config} {paths paths' : List Path}
    (h : arrange paths = arrange paths') :
    compilePaths fs config paths = compilePaths fs config paths' := by
  rw [compilePaths_eq, compilePaths_eq, run_congr h]

/-! ### What a run that has time ends in -/

section

variable {fs : FileSystem} {config : Config} {paths : List Path}

variable (fs config) in
/-- The work on the manifest ends in a failure that is no parse error. -/
def EndsOtherwise (p : Path) : Prop :=
  ∃ f, (compileManifest fs config p).outcome = .error f ∧ ∀ e, f ≠ .error (.parse e)

variable (fs config) in
/-- No two of the manifests end in failures that are no parse errors. -/
def AtMostOneOtherwise (paths : List Path) : Prop :=
  ∀ p ∈ paths, ∀ q ∈ paths, EndsOtherwise fs config p → EndsOtherwise fs config q → p = q

/-- **All ends that are not cut short are the same.**  If the run gets through, it has the
    outcomes of all manifests; if it does not, the one manifest that can be the cause is. -/
theorem ends_unique {stop : Bool} {ended ended' : Except Failure (List (Path × Outcome))}
    (hone : AtMostOneOtherwise fs config paths)
    (h : Ends (answers fs config) stop (arrange paths) ended)
    (h' : Ends (answers fs config) stop (arrange paths) ended') : ended' = ended := by
  cases ended with
  | ok os => exact h.eq_of_ok h'
  | error f =>
    cases ended' with
    | ok os' => exact (h'.eq_of_ok h).symm
    | error f' =>
      obtain ⟨p, hp, hf, hfatal⟩ := h.exists_fatal
      obtain ⟨q, hq, hf', hfatal'⟩ := h'.exists_fatal
      obtain rfl : p = q := hone p hp q hq ⟨f, hf, hfatal.1⟩ ⟨f', hf', hfatal'.1⟩
      exact congrArg Except.error (Except.error.inj (hf'.symm.trans hf))

/-! ### Compiling -/

theorem outcome_conclude_ne_waitTooLong (os : List (Path × Outcome)) :
    (conclude os).outcome ≠ .error .waitTooLong := by
  by_cases hbad : parseErrors os = []
  · rw [outcome_conclude_of_nil hbad]
    cases Collection.build (records os) <;> nofun
  · rw [outcome_conclude_of_ne_nil hbad]
    cases Error.ofParseErrors (parseErrors os) ((records os).map fun r => r.workflow.name) <;>
      nofun

/-- Compiling has one result, whatever order the answers arrive in, besides a wait that
    fails. -/
theorem exists_compilesTo_iff (hone : AtMostOneOtherwise fs config paths) :
    ∃ result, result ≠ .error .waitTooLong ∧
      ∀ result', CompilesTo fs config paths result' ↔ result' = result ∨
        (¬ CanWait config paths ∧ result' = .error .waitTooLong) := by
  have hends := ends_of_mapM fs config true (arrange paths)
  refine ⟨_, ?_, fun result' => leadsTo_iff_of_unique hends fun _ => ends_unique hone hends⟩
  cases hended : (arrange paths).mapM (settled (compileManifest fs config) true) with
  | ok os => exact outcome_conclude_ne_waitTooLong os
  | error f =>
    intro hfails
    rw [hended] at hends
    cases hfails
    exact not_ends_waitTooLong hends

/-- **Compiling depends on the set of paths only, where it can be waited.**  Paths that denote
    the same set have the same results: one, whatever order the answers arrive in, and where
    the time limit is longer than can be waited also a wait that fails.  If the manifests are
    worked on one after the other, the whole computation is the same. -/
theorem compilesTo_congr {given given' : List (String ⊕ Path)}
    (hset : ∀ p, p ∈ given.map denoted ↔ p ∈ given'.map denoted)
    (hone : AtMostOneOtherwise fs config (given.map denoted)) :
    (∃ result, result ≠ .error .waitTooLong ∧ ∀ result',
      (CompilesTo fs config (given.map denoted) result' ↔ result' = result ∨
        (¬ CanWait config (given.map denoted) ∧ result' = .error .waitTooLong)) ∧
      (CompilesTo fs config (given'.map denoted) result' ↔ result' = result ∨
        (¬ CanWait config (given.map denoted) ∧ result' = .error .waitTooLong))) ∧
    ((∀ result result', CompilesTo fs config (given.map denoted) result →
      CompilesTo fs config (given'.map denoted) result' → result = result') ↔
        CanWait config (given.map denoted)) ∧
    compilePaths fs config (given.map denoted) = compilePaths fs config (given'.map denoted) ∧
    (isOverAtOnce config = false →
      CompilesTo fs config (given.map denoted)
        (compilePaths fs config (given.map denoted)).outcome) := by
  have harrange := arrange_congr hset
  obtain ⟨result, hne, hresult⟩ := exists_compilesTo_iff hone
  have hboth : ∀ result', CompilesTo fs config (given'.map denoted) result' ↔
      CompilesTo fs config (given.map denoted) result' := by
    intro result'
    unfold CompilesTo LeadsTo RunsTo
    rw [harrange]
  refine ⟨⟨result, hne, fun result' => ⟨hresult result', ?_⟩⟩, ⟨fun hsame => ?_, ?_⟩,
    compilePaths_congr harrange, compilesTo_compilePaths⟩
  · rw [hboth]
    exact hresult result'
  · by_contra hwait
    refine hne (hsame result (.error .waitTooLong) ((hresult _).2 (.inl rfl)) ?_)
    rw [hboth]
    exact (hresult _).2 (.inr ⟨hwait, rfl⟩)
  · intro hwait r r' hr hr'
    rw [hboth] at hr'
    rw [((hresult r).1 hr).resolve_right fun h => h.1 hwait,
      ((hresult r').1 hr').resolve_right fun h => h.1 hwait]

end

/-- The manifests of `threeAlike` in order, and again in another order, repeated and with
    superfluous slashes and dots. -/
def spelledTwice : List (String ⊕ Path) × List (String ⊕ Path) :=
  ([.inl "d/a/x.yml", .inl "d/b.yaml", .inl "d/gone.yaml"],
    [.inl "d//gone.yaml", .inr (.ofString "d/b.yaml"), .inl "./d/./a//x.yml/",
      .inl "d/b.yaml/.", .inl "d/gone.yaml"])

/-- One manifest cannot be read, and one is no workflow. -/
theorem compilesTo_congr_spelledTwice :
    (∀ p, p ∈ spelledTwice.1.map denoted ↔ p ∈ spelledTwice.2.map denoted) ∧
      AtMostOneOtherwise threeAlike .usual (spelledTwice.1.map denoted) ∧
      ∀ result, CompilesTo threeAlike .usual (spelledTwice.2.map denoted) result ↔
        result = .error (.error (unreadable (.ofString "d/gone.yaml"))) := by
  have hset : ∀ p, p ∈ spelledTwice.1.map denoted ↔ p ∈ spelledTwice.2.map denoted := by
    have hsame : arrange (spelledTwice.1.map denoted) = arrange (spelledTwice.2.map denoted) := by
      decide +kernel
    intro p
    rw [← mem_arrange, hsame, mem_arrange]
  have hmalformed : ∃ e, answers threeAlike .usual (.ofString "d/a/x.yml") =
      .error (.error (.parse e)) :=
    ⟨⟨.malformed "Manifest top level must be a mapping, got list", "d/a/x.yml", none, none,
      none⟩, by decide +kernel⟩
  have hworkflow : (answers threeAlike .usual (.ofString "d/b.yaml")).map (·.slug.text) =
      .ok "b" := by decide +kernel
  have hgone : ∀ p ∈ spelledTwice.1.map denoted, EndsOtherwise threeAlike .usual p →
      p = .ofString "d/gone.yaml" := by
    rintro p hp ⟨f, hf, hother⟩
    change answers threeAlike .usual p = _ at hf
    simp only [spelledTwice, denoted, List.map_cons, List.map_nil, List.mem_cons,
      List.not_mem_nil, or_false, Sum.elim_inl] at hp
    rcases hp with rfl | rfl | rfl
    · obtain ⟨e, he⟩ := hmalformed
      rw [he] at hf
      exact absurd (Except.error.inj hf).symm (hother e)
    · rw [hf] at hworkflow
      cases hworkflow
    · rfl
  have hone : AtMostOneOtherwise threeAlike .usual (spelledTwice.1.map denoted) := by
    intro p hp q hq hpo hqo
    rw [hgone p hp hpo, hgone q hq hqo]
  have hwait : CanWait .usual (spelledTwice.1.map denoted) := .inl (by decide +kernel)
  obtain ⟨⟨result, -, hresult⟩, -, -, hrun⟩ := compilesTo_congr hset hone
  have hcompiled : (compilePaths threeAlike .usual (spelledTwice.1.map denoted)).outcome =
      .error (.error (unreadable (.ofString "d/gone.yaml"))) := by decide +kernel
  have hprogram := hrun (by decide +kernel)
  rw [hcompiled, (hresult _).1, or_iff_left fun h => h.1 hwait] at hprogram
  refine ⟨hset, hone, fun result' => ?_⟩
  rw [(hresult result').2, or_iff_left fun h => h.1 hwait, hprogram]

/-! ### A time limit that is too long -/

/-- Settings with a time limit of more than three hundred years. -/
def patient : Config :=
  { Config.usual with timeLimit := ⟨.ofInt 10000000000, by decide +kernel⟩ }

/-- **One manifest, given once, compiles or not.**  Either its answer is there at once, or a wait
    for it fails. -/
theorem not_compilesTo_unique :
    ∃ c, isOverAtOnce patient = false ∧
      AtMostOneOtherwise threeAlike patient [.ofString "d/b.yaml"] ∧
      CompilesTo threeAlike patient [.ofString "d/b.yaml"] (.ok c) ∧
      CompilesTo threeAlike patient [.ofString "d/b.yaml"] (.error .waitTooLong) := by
  have hone : AtMostOneOtherwise threeAlike patient [.ofString "d/b.yaml"] := by
    intro p hp q hq _ _
    rw [List.mem_singleton.1 hp, List.mem_singleton.1 hq]
  have hwait : ¬ CanWait patient [Path.ofString "d/b.yaml"] :=
    not_canWait.2 ⟨by decide +kernel, List.cons_ne_nil _ _⟩
  have hends := ends_of_mapM threeAlike patient true (arrange [.ofString "d/b.yaml"])
  have hnames : (((arrange [.ofString "d/b.yaml"]).mapM
      (settled (compileManifest threeAlike patient) true)).bind fun os =>
        (conclude os).outcome).map (fun c => c.workflows.map (·.name)) = .ok [↑"B"] := by
    decide +kernel
  cases hc : ((arrange [.ofString "d/b.yaml"]).mapM
      (settled (compileManifest threeAlike patient) true)).bind fun os => (conclude os).outcome with
  | error f =>
    rw [hc] at hnames
    cases hnames
  | ok c =>
    exact ⟨c, by decide +kernel, hone, leadsTo_iff.2 (.inl ⟨_, hends, hc.symm⟩),
      leadsTo_iff.2 (.inr ⟨hwait, rfl⟩)⟩

end WorkflowCatalog.Compiler
