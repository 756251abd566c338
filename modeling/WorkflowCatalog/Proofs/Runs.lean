/-
  WorkflowCatalog/Proofs/Runs.lean
  ================================
  **What a run can end in, in time.**  The schedules of a run are many, but they have few
  ends: an outcome for every manifest, the failure of a manifest, and, where the time limit
  is longer than can be waited, the failure of a wait.  And each of these is the end of
  some schedule (`runsTo_iff`).

  Compiling and validating go on with the outcomes of a run (`LeadsTo`).  So what they can
  end in is told without schedules (`leadsTo_iff`), and what holds of all their ends, and
  not of a wait that fails, holds only where no wait can fail (`forall_leadsTo_iff`).  The
  programs that work on one manifest after the other end in one of these ways.
-/
import WorkflowCatalog.Proofs.Schedule

namespace WorkflowCatalog.Compiler

section

variable (fs : FileSystem) (config : Config)

/-- What a run over the manifests at some paths can end in, in time: their answers arrive in
    some order. -/
def RunsTo (stop : Bool) (paths : List Path)
    (ended : Except Failure (List (Path × Outcome))) : Prop :=
  ∃ moves, Schedule (answers fs config) config stop (arrange paths) moves (.over ended) ∧
    .timeOut ∉ moves

/-- What a computation can end in, in time, that goes on with the outcomes of a run. -/
def LeadsTo {α : Type} (stop : Bool) (paths : List Path)
    (goOn : List (Path × Outcome) → Except Failure α) (result : Except Failure α) : Prop :=
  ∃ ended, RunsTo fs config stop paths ended ∧ result = ended.bind goOn

/-- What compiling the manifests at some paths can end in, in time. -/
abbrev CompilesTo (paths : List Path) (compiled : Except Failure Collection) : Prop :=
  LeadsTo fs config true paths (fun os => (conclude os).outcome) compiled

/-- What validating the manifests at some paths can end in, in time. -/
abbrev ValidatesTo (paths : List Path) (validated : Except Failure (List (Path × Error))) : Prop :=
  LeadsTo fs config false paths (fun os => .ok (problemsOf os)) validated

end

/-- No wait of a run over the paths can fail. -/
def CanWait (config : Config) (paths : List Path) : Prop := isTooLong config = false ∨ paths = []

variable {fs : FileSystem} {config : Config} {stop : Bool} {paths : List Path}
  {ended : Except Failure (List (Path × Outcome))} {os : List (Path × Outcome)}

theorem not_canWait : ¬ CanWait config paths ↔ isTooLong config = true ∧ paths ≠ [] := by
  unfold CanWait
  rw [not_or, Bool.not_eq_false]

/-! ### Runs -/

theorem arrange_eq_nil : arrange paths = [] ↔ paths = [] := by
  rw [List.eq_nil_iff_forall_not_mem, List.eq_nil_iff_forall_not_mem]
  simp only [mem_arrange]

/-- A run over manifests that has a time limit which is too long can fail to wait. -/
theorem runsTo_waitTooLong (h : ¬ CanWait config paths) :
    RunsTo fs config stop paths (.error .waitTooLong) := by
  obtain ⟨hlong, hne⟩ := not_canWait.1 h
  have hpending : (Pool.start (arrange paths)).pending ≠ [] := by
    simpa [Pool.start] using mt arrange_eq_nil.1 hne
  exact ⟨[.waitFails], .move .start (.waitFails hpending hlong), by decide⟩

/-- **What a run can end in, in time.** -/
theorem runsTo_iff : RunsTo fs config stop paths ended ↔
    Ends (answers fs config) stop (arrange paths) ended ∨
      (¬ CanWait config paths ∧ ended = .error .waitTooLong) := by
  constructor
  · rintro ⟨moves, hschedule, htime⟩
    cases hschedule.known with
    | smooth _ hends => exact .inl hends
    | timedOut hmem => exact absurd hmem htime
    | waitFailed _ _ hne hlong =>
      exact .inr ⟨not_canWait.2 ⟨hlong, mt arrange_eq_nil.2 hne⟩, rfl⟩
  · rintro (hends | ⟨hwait, rfl⟩)
    · obtain ⟨moves, hsmooth, hschedule⟩ := hends.exists_schedule config
      exact ⟨moves, hschedule, (smooth_iff.1 hsmooth).1⟩
    · exact runsTo_waitTooLong hwait

/-- The run that works on one manifest after the other, if it has time, is one of them. -/
theorem runsTo_run (htime : isOverAtOnce config = false) :
    RunsTo fs config stop paths (run fs config stop paths).outcome := by
  obtain ⟨moves, hschedule, hmoves⟩ := exists_schedule_run fs config stop paths
  exact ⟨moves, hschedule, hmoves htime⟩

theorem runsTo_of_ok (h : (run fs config stop paths).outcome = .ok os) :
    RunsTo fs config stop paths (.ok os) := by
  obtain ⟨moves, hschedule, -⟩ := exists_schedule_run fs config stop paths
  rw [h] at hschedule
  refine ⟨moves, hschedule, fun htime => ?_⟩
  cases ((hschedule.known).accounted.timeOut htime).2

/-! ### Ends -/

/-- A run that goes on after every manifest has an outcome for each. -/
theorem exists_ends_ok (h : ∀ p ∈ paths, ∃ o, settle stop (answers fs config p) = .ok o) :
    ∃ os, Ends (answers fs config) stop (arrange paths) (.ok os) := by
  obtain ⟨os, hos⟩ := exists_outcomes fun p hp => h p (mem_arrange.1 hp)
  have hends := ends_of_mapM fs config stop (arrange paths)
  rw [hos] at hends
  exact ⟨os, hends⟩

theorem Ends.isComplete (h : Ends (answers fs config) stop (arrange paths) (.ok os)) :
    IsComplete fs config paths os := by
  cases h with
  | whole hpaths hsettle => exact isComplete_of_settle hpaths hsettle

theorem Ends.exists_settle (h : Ends (answers fs config) stop (arrange paths) (.ok os)) :
    ∀ p ∈ paths, ∃ o, settle stop (answers fs config p) = .ok o := by
  cases h with
  | whole hpaths hsettle =>
    intro p hp
    rw [← mem_arrange, ← hpaths] at hp
    obtain ⟨q, hq, rfl⟩ := List.mem_map.1 hp
    exact ⟨q.2, hsettle q hq⟩

/-- **A run ends with an outcome for each manifest, whatever comes first**, exactly if it goes on
    after every one. -/
theorem forall_ends_ok_iff :
    (∀ ended, Ends (answers fs config) stop (arrange paths) ended → ∃ os, ended = .ok os) ↔
      ∀ p ∈ paths, ∃ o, settle stop (answers fs config p) = .ok o := by
  constructor
  · intro h p hp
    cases hf : settle stop (answers fs config p) with
    | ok o => exact ⟨o, rfl⟩
    | error f =>
      obtain ⟨os, hos⟩ := h _ (.failed (mem_arrange.2 hp) hf)
      cases hos
  · intro h ended hends
    obtain ⟨os, hos⟩ := exists_ends_ok h
    exact ⟨os, hos.eq_of_ok hends⟩

/-- A run that fails without being cut short has come upon the failure of a manifest. -/
theorem Ends.exists_fatal {f : Failure}
    (h : Ends (answers fs config) stop (arrange paths) (.error f)) :
    ∃ p ∈ paths, (compileManifest fs config p).outcome = .error f ∧ IsFatal stop f := by
  cases h with
  | failed hp hf => exact ⟨_, mem_arrange.1 hp, settle_eq_error hf⟩

/-- No manifest fails like a wait. -/
theorem not_ends_waitTooLong :
    ¬ Ends (answers fs config) stop (arrange paths) (.error .waitTooLong) := by
  intro h
  obtain ⟨p, -, hf, -⟩ := h.exists_fatal
  cases isFileFailure_of_compileManifest fs config hf with
  | text htext =>
    rcases htext with ⟨e, he, -⟩ | ⟨b, hb⟩
    · cases he
    · cases hb

/-! ### What is made of outcomes -/

theorem map_eq_bind {ε α β : Type} (f : α → β) (x : Except ε α) :
    x.map f = x.bind fun a => .ok (f a) := by
  cases x <;> rfl

section

variable {α : Type} {goOn : List (Path × Outcome) → Except Failure α}

theorem leadsTo_iff {result : Except Failure α} : LeadsTo fs config stop paths goOn result ↔
    (∃ ended, Ends (answers fs config) stop (arrange paths) ended ∧ result = ended.bind goOn) ∨
      (¬ CanWait config paths ∧ result = .error .waitTooLong) := by
  constructor
  · rintro ⟨ended, hruns, rfl⟩
    rcases runsTo_iff.1 hruns with hends | ⟨hwait, rfl⟩
    · exact .inl ⟨ended, hends, rfl⟩
    · exact .inr ⟨hwait, rfl⟩
  · rintro (⟨ended, hends, rfl⟩ | ⟨hwait, rfl⟩)
    · exact ⟨ended, runsTo_iff.2 (.inl hends), rfl⟩
    · exact ⟨_, runsTo_waitTooLong hwait, rfl⟩

/-- What goes on to a value goes on with an outcome for each manifest. -/
theorem exists_ends_of_ok {a : α} (h : LeadsTo fs config stop paths goOn (.ok a)) :
    ∃ os, Ends (answers fs config) stop (arrange paths) (.ok os) ∧ goOn os = .ok a := by
  rcases leadsTo_iff.1 h with ⟨ended, hends, ha⟩ | ⟨-, hfails⟩
  · cases ended with
    | error f => cases ha
    | ok os => exact ⟨os, hends, ha.symm⟩
  · cases hfails

/-- It does so wherever the manifests give the same answers. -/
theorem LeadsTo.congr {a : α} (h : LeadsTo fs config stop paths goOn (.ok a))
    {fs' : FileSystem} {config' : Config}
    (hanswers : ∀ p ∈ paths, answers fs' config' p = answers fs config p) :
    LeadsTo fs' config' stop paths goOn (.ok a) := by
  obtain ⟨os, hends, ha⟩ := exists_ends_of_ok h
  have hends' : Ends (answers fs' config') stop (arrange paths) (.ok os) :=
    hends.congr fun p hp => hanswers p (mem_arrange.1 hp)
  exact leadsTo_iff.2 (.inl ⟨_, hends', ha.symm⟩)

/-- **What holds of all ends**, and not of a wait that fails. -/
theorem forall_leadsTo_iff {Q : Except Failure α → Prop} (hQ : ¬ Q (.error .waitTooLong)) :
    (∀ result, LeadsTo fs config stop paths goOn result → Q result) ↔
      CanWait config paths ∧
        ∀ ended, Ends (answers fs config) stop (arrange paths) ended → Q (ended.bind goOn) := by
  simp only [leadsTo_iff]
  constructor
  · intro h
    refine ⟨?_, fun ended hends => h _ (.inl ⟨ended, hends, rfl⟩)⟩
    by_contra hwait
    exact hQ (h _ (.inr ⟨hwait, rfl⟩))
  · rintro ⟨hwait, h⟩ result (⟨ended, hends, rfl⟩ | ⟨hno, -⟩)
    · exact h ended hends
    · exact absurd hwait hno

/-- Where a run can end in one way only, so can what goes on with it. -/
theorem leadsTo_iff_of_unique
    (hends : Ends (answers fs config) stop (arrange paths) ended)
    (hunique : ∀ ended', Ends (answers fs config) stop (arrange paths) ended' → ended' = ended)
    {result : Except Failure α} :
    LeadsTo fs config stop paths goOn result ↔
      result = ended.bind goOn ∨ (¬ CanWait config paths ∧ result = .error .waitTooLong) := by
  rw [leadsTo_iff]
  refine or_congr_left ⟨?_, fun h => ⟨ended, hends, h⟩⟩
  rintro ⟨ended', hends', rfl⟩
  rw [hunique ended' hends']

/-- **Where a value can come of it, nothing else can**, besides a wait that fails. -/
theorem leadsTo_iff_of_ok {a : α} (h : LeadsTo fs config stop paths goOn (.ok a))
    {result : Except Failure α} :
    LeadsTo fs config stop paths goOn result ↔
      result = .ok a ∨ (¬ CanWait config paths ∧ result = .error .waitTooLong) := by
  obtain ⟨os, hends, ha⟩ := exists_ends_of_ok h
  rw [leadsTo_iff_of_unique hends fun _ => hends.eq_of_ok, ← ha]
  rfl

end

/-! ### The programs -/

theorem compilesTo_compilePaths (htime : isOverAtOnce config = false) :
    CompilesTo fs config paths (compilePaths fs config paths).outcome :=
  ⟨_, runsTo_run htime, outcome_compilePaths fs config paths⟩

theorem compilesTo_of_ok {c : Collection} (h : (compilePaths fs config paths).outcome = .ok c) :
    CompilesTo fs config paths (.ok c) := by
  rw [outcome_compilePaths] at h
  obtain ⟨os, hrun, hc⟩ := bind_eq_ok.1 h
  exact ⟨.ok os, runsTo_of_ok hrun, hc.symm⟩

section

variable {directory : Path}

theorem compilesTo_compile (hdiscover : (discover fs config directory).outcome = .ok paths)
    (htime : isOverAtOnce config = false) :
    CompilesTo fs config paths (compile fs config directory).outcome := by
  rw [outcome_compile hdiscover]
  exact compilesTo_compilePaths htime

theorem validatesTo_validate (hdiscover : (discover fs config directory).outcome = .ok paths)
    (htime : isOverAtOnce config = false) :
    ValidatesTo fs config paths (validate fs config directory).outcome :=
  ⟨_, runsTo_run htime, (outcome_validate hdiscover).trans (map_eq_bind _ _)⟩

/-- A validation that lists problems has found manifests and worked on all of them. -/
theorem validatesTo_of_ok {problems : List (Path × Error)}
    (h : (validate fs config directory).outcome = .ok problems) :
    ∃ paths, (discover fs config directory).outcome = .ok paths ∧
      ValidatesTo fs config paths (.ok problems) := by
  cases hdiscover : (discover fs config directory).outcome with
  | error f =>
    unfold validate at h
    rw [Traced.outcome_bind fun paths => Traced.appends_bind (appends_run fs config paths)
      fun os => Traced.appends_bind (Traced.appends_log _) fun _ => Traced.appends_pure _,
      hdiscover] at h
    cases h
  | ok paths =>
    rw [outcome_validate hdiscover] at h
    cases hrun : (run fs config false paths).outcome with
    | error f =>
      rw [hrun] at h
      cases h
    | ok os =>
      rw [hrun] at h
      exact ⟨paths, rfl, .ok os, runsTo_of_ok hrun, h.symm⟩

end

end WorkflowCatalog.Compiler
