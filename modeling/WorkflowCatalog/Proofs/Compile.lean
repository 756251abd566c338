/-
  WorkflowCatalog/Proofs/Compile.lean
  ===================================
  **What compiling and validating end in**, as functions of the outcomes of the
  manifests.  After the run, `compile` ends in the collection of the records, in the
  first collision of two of them, or in the parse errors, if they can be shown
  (`outcome_conclude`); `validate` ends in the problems of the outcomes
  (`outcome_validate`).
-/
import WorkflowCatalog.Proofs.Pool
import WorkflowCatalog.Proofs.Sorting

namespace WorkflowCatalog.Compiler

open Traced

variable (fs : FileSystem) (config : Config)

/-! ### After the run -/

/-- The part of compiling that comes after the run. -/
def conclude (outcomes : List (Path × Outcome)) : Run Collection := do
  let good := records outcomes
  let bad := parseErrors outcomes
  if bad.isEmpty then
    match Collection.build good with
    | .error c => Run.raise (collisionError c)
    | .ok c =>
      Traced.log (completeEvent c)
      pure c
  else
    Traced.log (failedEvent bad.length good.length)
    let e ← Run.ofChecked (Error.ofParseErrors bad (good.map fun r => r.workflow.name))
    Run.raise e

theorem compilePaths_eq (paths : List Path) :
    compilePaths fs config paths = run fs config true paths >>= conclude := rfl

theorem appends_conclude (outcomes : List (Path × Outcome)) : (conclude outcomes).Appends := by
  unfold conclude
  by_cases hbad : (parseErrors outcomes).isEmpty
  · simp only [hbad, if_true]
    cases Collection.build (records outcomes) with
    | error c => exact Run.appends_raise _
    | ok c => exact appends_bind (appends_log _) fun _ => appends_pure c
  · simp only [hbad]
    refine appends_bind (appends_log _) fun _ => ?_
    exact appends_bind (Run.appends_ofChecked _) Run.appends_raise

/-- What a run without parse errors ends in. -/
theorem outcome_conclude_of_nil {outcomes : List (Path × Outcome)}
    (h : parseErrors outcomes = []) :
    (conclude outcomes).outcome =
      match Collection.build (records outcomes) with
      | .error c => .error (.error (collisionError c))
      | .ok c => .ok c := by
  have hbad : (parseErrors outcomes).isEmpty = true := by rw [h]; rfl
  unfold conclude
  simp only [hbad, if_true]
  cases Collection.build (records outcomes) with
  | error c => exact Run.outcome_raise _
  | ok c => rfl

/-- What a run with parse errors ends in. -/
theorem outcome_conclude_of_ne_nil {outcomes : List (Path × Outcome)}
    (h : parseErrors outcomes ≠ []) :
    (conclude outcomes).outcome =
      match Error.ofParseErrors (parseErrors outcomes)
        ((records outcomes).map fun r => r.workflow.name) with
      | .error m => .error (.mismatch m)
      | .ok e => .error (.error e) := by
  have hbad : (parseErrors outcomes).isEmpty = false := by simpa using h
  unfold conclude
  simp only [hbad, Bool.false_eq_true, if_false]
  rw [outcome_bind fun _ => appends_bind (Run.appends_ofChecked _) Run.appends_raise,
    outcome_log]
  change Traced.outcome (Run.ofChecked _ >>= Run.raise) = _
  rw [outcome_bind Run.appends_raise, Run.outcome_ofChecked]
  cases Error.ofParseErrors (parseErrors outcomes)
    ((records outcomes).map fun r => r.workflow.name) with
  | error m => rfl
  | ok e => exact Run.outcome_raise e

/-! ### Compiling and validating -/

theorem appends_compilePaths (paths : List Path) : (compilePaths fs config paths).Appends :=
  appends_bind (appends_run fs config paths) appends_conclude

theorem outcome_compilePaths (paths : List Path) :
    (compilePaths fs config paths).outcome =
      (run fs config true paths).outcome.bind fun os => (conclude os).outcome := by
  rw [compilePaths_eq, outcome_bind appends_conclude]

variable {fs config}

theorem outcome_compile {directory : Path} {paths : List Path}
    (h : (discover fs config directory).outcome = .ok paths) :
    (compile fs config directory).outcome = (compilePaths fs config paths).outcome := by
  unfold compile
  rw [outcome_bind (appends_compilePaths fs config), h]
  rfl

theorem outcome_validate {directory : Path} {paths : List Path}
    (h : (discover fs config directory).outcome = .ok paths) :
    (validate fs config directory).outcome =
      (run fs config false paths).outcome.map problemsOf := by
  have hreport : ∀ os : List (Path × Outcome), Traced.Appends (do
      Traced.log (validatedEvent os.length (problemsOf os).length)
      pure (problemsOf os) : Run (List (Path × Error))) :=
    fun os => appends_bind (appends_log _) fun _ => appends_pure _
  unfold validate
  rw [outcome_bind fun paths => appends_bind (appends_run fs config paths) hreport, h]
  change Traced.outcome (run fs config false paths >>= _) = _
  rw [outcome_bind hreport]
  cases (run fs config false paths).outcome <;> rfl

/-! ### Records and parse errors -/

/-- The workflow of an outcome, with its path, if it is one. -/
theorem mem_records {os : List (Path × Outcome)} {r : Collection.Record} :
    r ∈ records os ↔ (r.path, .ok r.workflow) ∈ os := by
  unfold records
  rw [List.mem_filterMap]
  constructor
  · rintro ⟨⟨p, o⟩, hmem, hr⟩
    cases o with
    | error e => cases hr
    | ok w =>
      cases hr
      exact hmem
  · intro hmem
    exact ⟨_, hmem, rfl⟩

theorem mem_parseErrors {os : List (Path × Outcome)} {e : ParseError} :
    e ∈ parseErrors os ↔ ∃ p, (p, .error (.parse e)) ∈ os := by
  unfold parseErrors
  rw [List.mem_filterMap]
  constructor
  · rintro ⟨⟨p, o⟩, hmem, he⟩
    dsimp only at he
    split at he
    · cases he
      exact ⟨p, hmem⟩
    · cases he
  · rintro ⟨p, hmem⟩
    exact ⟨_, hmem, rfl⟩

end WorkflowCatalog.Compiler
