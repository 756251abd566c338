/-
  WorkflowCatalog/Proofs/Listing.lean
  ===================================
  **The problems of outcomes.**  The list of problems holds an error for each outcome that
  is one, and each collision (`mem_problemsOf`).  It is sorted by path, and two things are
  as they were before sorting: the parse errors are in the order of the run
  (`parseErrorsIn_problemsOf`), and collisions alone are in the order in which they are
  found, which is that of their second paths (`problemsOf_of_no_failures`).

  An error of a run shows its parse errors as issues, and an issue cannot be made of an
  error that repeats the name of an argument with half a surrogate pair in it.  So the run
  ends in the error with all of them, or in a mismatch (`outcome_conclude_cases`).
-/
import Mathlib.Data.List.Basic
import WorkflowCatalog.Proofs.Compile

namespace WorkflowCatalog.Compiler

open Collection (Collision Record collisions collisionsFrom)

/-! ### Collisions are in the order of the records -/

theorem seconds_sublist (owners : List (Slug × Path)) (rs : List Record) :
    ((collisionsFrom owners rs).map (·.second)).Sublist (rs.map (·.path)) := by
  induction rs generalizing owners with
  | nil => exact .slnil
  | cons r rest ih =>
    unfold collisionsFrom
    split
    · split
      · exact (ih _).cons _
      · exact (ih _).cons_cons _
    · exact (ih _).cons _

/-! ### The outcomes of a run that goes on -/

/-- Does the error belong to a manifest that cannot be read? -/
def IsReadError (e : Error) : Prop := ∃ reason path detail, e = .manifestIO reason path detail

/-- Does the error belong to two manifests with one slug? -/
def IsCollisionError (e : Error) : Prop := ∃ slug first second, e = .duplicateSlug slug first second

theorem settle_false_eq_error {a : Except Failure Workflow} {e : Error}
    (h : settle false a = .ok (.error e)) :
    a = .error (.error e) ∧ (IsReadError e ∨ ∃ d, e = .parse d) := by
  rcases a with f | w
  · cases f with
    | error e' =>
      cases e' with
      | parse d =>
        cases h
        exact ⟨rfl, .inr ⟨d, rfl⟩⟩
      | manifestIO reason path detail =>
        cases h
        exact ⟨rfl, .inl ⟨reason, path, detail, rfl⟩⟩
      | _ => cases h
    | _ => cases h
  · cases h

theorem mem_failures {os : List (Path × Outcome)} {p : Path} {e : Error} :
    (p, e) ∈ failures os ↔ (p, .error e) ∈ os := by
  unfold failures
  rw [List.mem_filterMap]
  constructor
  · rintro ⟨⟨p', o⟩, hmem, h⟩
    cases o with
    | error e' =>
      cases h
      exact hmem
    | ok w => cases h
  · intro hmem
    exact ⟨_, hmem, rfl⟩

/-! ### The problems of outcomes -/

/-- Every problem is the error of a manifest or a collision. -/
theorem mem_problemsOf {os : List (Path × Outcome)} {q : Path × Error} :
    q ∈ problemsOf os ↔
      q ∈ failures os ∨ ∃ c ∈ collisions (records os), q = (c.second, collisionError c) := by
  unfold problemsOf
  rw [(sortBy_perm (fun p : Path × Error => p.1.text) _).mem_iff, List.mem_append, List.mem_map]
  constructor
  · rintro (h | ⟨c, hc, rfl⟩)
    · exact .inl h
    · exact .inr ⟨c, hc, rfl⟩
  · rintro (h | ⟨c, hc, rfl⟩)
    · exact .inl h
    · exact .inr ⟨c, hc, rfl⟩

section

variable {os : List (Path × Outcome)} (hsorted : (os.map (·.1)).Pairwise fun p q => p.text < q.text)

include hsorted

/-- The errors of manifests are in the order of their paths. -/
theorem pairwise_failures :
    (failures os).Pairwise fun a b => a.1.text ≤ b.1.text := by
  unfold failures
  rw [List.pairwise_filterMap]
  refine (List.pairwise_map.1 hsorted).imp ?_
  rintro ⟨p, o⟩ ⟨q, r⟩ hlt a ha b hb
  cases o with
  | ok w => cases ha
  | error e =>
    cases r with
    | ok w => cases hb
    | error e' =>
      cases ha
      cases hb
      exact Std.le_of_lt hlt

/-- The records of a run are in the order of their paths. -/
theorem pairwise_records : ((records os).map (·.path)).Pairwise fun p q => p.text ≤ q.text := by
  unfold records
  rw [List.pairwise_map, List.pairwise_filterMap]
  refine (List.pairwise_map.1 hsorted).imp ?_
  rintro ⟨p, o⟩ ⟨q, r⟩ hlt a ha b hb
  cases o with
  | error e => cases ha
  | ok w =>
    cases r with
    | error e => cases hb
    | ok w' =>
      cases ha
      cases hb
      exact Std.le_of_lt hlt

/-- **Collisions alone come in the order in which they are found.** -/
theorem problemsOf_of_no_failures (hf : failures os = []) :
    problemsOf os = (collisions (records os)).map fun c => (c.second, collisionError c) := by
  unfold problemsOf
  simp only [hf, List.nil_append]
  have hseconds := (pairwise_records hsorted).sublist (seconds_sublist [] (records os))
  rw [List.pairwise_map] at hseconds
  refine sortBy_eq_self ?_
  rw [List.pairwise_map]
  exact hseconds

end

/-! ### The parse errors among the problems -/

/-- Is the problem a parse error? -/
def isParseError (q : Path × Error) : Bool :=
  match q.2 with
  | .parse _ => true
  | _ => false

/-- The parse errors among problems, in order. -/
def parseErrorsIn (problems : List (Path × Error)) : List ParseError :=
  problems.filterMap fun q =>
    match q.2 with
    | .parse e => some e
    | _ => none

theorem parseErrorsIn_filter (problems : List (Path × Error)) :
    parseErrorsIn (problems.filter isParseError) = parseErrorsIn problems := by
  unfold parseErrorsIn
  rw [List.filterMap_filter]
  congr 1
  funext q
  obtain ⟨p, e⟩ := q
  cases e <;> rfl

theorem parseErrorsIn_failures (os : List (Path × Outcome)) :
    parseErrorsIn (failures os) = parseErrors os := by
  unfold parseErrorsIn failures parseErrors
  rw [List.filterMap_filterMap]
  congr 1
  funext q
  obtain ⟨p, o⟩ := q
  cases o with
  | ok w => rfl
  | error e => cases e <;> rfl

/-- **Sorting leaves the parse errors in the order of the run**, because the errors of
    manifests are sorted already and no collision is a parse error. -/
theorem parseErrorsIn_problemsOf {os : List (Path × Outcome)}
    (hsorted : (os.map (·.1)).Pairwise fun p q => p.text < q.text) :
    parseErrorsIn (problemsOf os) = parseErrors os := by
  have hcollisions : ((collisions (records os)).map fun c =>
      (c.second, collisionError c)).filter isParseError = [] := by
    rw [List.filter_eq_nil_iff]
    intro q hq
    obtain ⟨c, -, rfl⟩ := List.mem_map.1 hq
    exact Bool.false_ne_true
  have hfailures := (pairwise_failures hsorted).filter isParseError
  rw [← parseErrorsIn_filter, problemsOf, filter_sortBy, List.filter_append, hcollisions,
    List.append_nil, sortBy_eq_self hfailures, parseErrorsIn_filter, parseErrorsIn_failures]

/-! ### Showing parse errors -/

/-- The mismatch of an error that shows a name that is no string. -/
def issueMismatch : Validation.Mismatch := ⟨"ManifestIssue", [⟨.notUnicode, [.field "message"]⟩]⟩

/-- Errors that can all be shown have issues; otherwise the first that has none is in the
    way of all. -/
theorem mapM_ofError {errors : List ParseError} (h : ∀ e ∈ errors, e.Presentable) :
    ((∃ issues, errors.mapM Issue.ofError = .ok issues) ∧ ∀ e ∈ errors, e.isShown = true) ∨
      errors.mapM Issue.ofError = .error issueMismatch ∧ ¬ ∀ e ∈ errors, e.isShown = true := by
  induction errors with
  | nil => exact .inl ⟨⟨[], rfl⟩, fun _ he => absurd he List.not_mem_nil⟩
  | cons e rest ih =>
    rw [List.mapM_cons]
    rcases (h e List.mem_cons_self).ofError with ⟨⟨i, hi⟩, hshown⟩ | ⟨hi, hshown⟩
    · rw [hi]
      rcases ih fun e' he' => h e' (List.mem_cons_of_mem _ he') with ⟨⟨is, his⟩, hall⟩ | ⟨his, hnot⟩
      · refine .inl ⟨⟨i :: is, by rw [his]; rfl⟩, ?_⟩
        intro e' he'
        rcases List.mem_cons.1 he' with rfl | he'
        · exact hshown
        · exact hall e' he'
      · refine .inr ⟨by rw [his]; rfl, ?_⟩
        intro hall
        exact hnot fun e' he' => hall e' (List.mem_cons_of_mem _ he')
    · refine .inr ⟨by rw [hi]; rfl, ?_⟩
      intro hall
      rw [hall e List.mem_cons_self] at hshown
      cases hshown

/-- **A run with parse errors ends in the error that shows them all**, or in a mismatch. -/
theorem outcome_conclude_cases {os : List (Path × Outcome)} (hbad : parseErrors os ≠ [])
    (h : ∀ e ∈ parseErrors os, e.Presentable) :
    (∃ issues, (parseErrors os).mapM Issue.ofError = .ok issues ∧
      (∀ e ∈ parseErrors os, e.isShown = true) ∧
      (conclude os).outcome = .error (.error (.manifests (parseErrors os) issues
        ((records os).map fun r => r.workflow.name)))) ∨
    (¬ ∀ e ∈ parseErrors os, e.isShown = true) ∧
      (conclude os).outcome = .error (.mismatch issueMismatch) := by
  rw [outcome_conclude_of_ne_nil hbad, Error.ofParseErrors]
  rcases mapM_ofError h with ⟨⟨issues, hissues⟩, hall⟩ | ⟨hissues, hnot⟩
  · refine .inl ⟨issues, hissues, hall, ?_⟩
    rw [hissues]
    rfl
  · refine .inr ⟨hnot, ?_⟩
    rw [hissues]
    rfl

/-! ### How the work on a manifest ends -/

section

variable (fs : FileSystem) (config : Config)

/-- The work on a manifest ends in a workflow, a parse error or a read error. -/
def EndsForeseen (p : Path) : Prop :=
  (∃ w, (compileManifest fs config p).outcome = .ok w) ∨
    (∃ e, (compileManifest fs config p).outcome = .error (.error (.parse e))) ∨
    ∃ e, IsReadError e ∧ (compileManifest fs config p).outcome = .error (.error e)

/-- The manifest cannot be read. -/
def IsUnreadable (p : Path) : Prop :=
  ∃ e, IsReadError e ∧ (compileManifest fs config p).outcome = .error (.error e)

/-- The manifest cannot be parsed. -/
def IsUnparsed (p : Path) (e : ParseError) : Prop :=
  (compileManifest fs config p).outcome = .error (.error (.parse e))

variable {fs config}

theorem exists_settle_of_endsForeseen {p : Path} (h : EndsForeseen fs config p) :
    ∃ o, settle false (compileManifest fs config p).outcome = .ok o := by
  rcases h with ⟨w, h⟩ | ⟨e, h⟩ | ⟨e, ⟨reason, path, detail, rfl⟩, h⟩
  · exact ⟨.ok w, by rw [h]; rfl⟩
  · exact ⟨.error (.parse e), by rw [h]; rfl⟩
  · exact ⟨.error (.manifestIO reason path detail), by rw [h]; rfl⟩

/-- A settled manifest is one after which a run goes on. -/
theorem exists_settle_iff {p : Path} :
    (∃ o, settle false (compileManifest fs config p).outcome = .ok o) ↔
      EndsForeseen fs config p := by
  constructor
  · rintro ⟨o, ho⟩
    cases o with
    | ok w =>
      rcases ha : (compileManifest fs config p).outcome with f | w'
      · rw [ha] at ho
        cases f with
        | error e =>
          cases e <;> cases ho
        | _ => cases ho
      · exact .inl ⟨w', ha⟩
    | error e =>
      obtain ⟨ha, he⟩ := settle_false_eq_error ho
      rcases he with he | ⟨d, rfl⟩
      · exact .inr (.inr ⟨e, he, ha⟩)
      · exact .inr (.inl ⟨d, ha⟩)
  · exact exists_settle_of_endsForeseen

/-- After an unreadable manifest only a run that does not stop for it goes on. -/
theorem exists_settle_true_iff {p : Path} :
    (∃ o, settle true (compileManifest fs config p).outcome = .ok o) ↔
      EndsForeseen fs config p ∧ ¬ IsUnreadable fs config p := by
  constructor
  · rintro ⟨o, ho⟩
    rcases settle_true_eq_ok ho with ⟨e, ha, -⟩ | ⟨w, ha, -⟩
    · refine ⟨.inr (.inl ⟨e, ha⟩), ?_⟩
      rintro ⟨e', ⟨reason, path, detail, rfl⟩, ha'⟩
      rw [ha] at ha'
      cases ha'
    · refine ⟨.inl ⟨w, ha⟩, ?_⟩
      rintro ⟨e', -, ha'⟩
      rw [ha] at ha'
      cases ha'
  · rintro ⟨⟨w, h⟩ | ⟨e, h⟩ | hun, hread⟩
    · exact ⟨.ok w, by rw [h]; rfl⟩
    · exact ⟨.error (.parse e), by rw [h]; rfl⟩
    · exact absurd hun hread

theorem presentable_of_isUnparsed {p : Path} {e : ParseError} (h : IsUnparsed fs config p e) :
    e.Presentable := by
  cases isFileFailure_of_compileManifest fs config h with
  | text htext =>
    rcases htext with ⟨e', he, -, hpresentable⟩ | ⟨b, hb⟩
    · cases he
      exact hpresentable
    · cases hb

end

end WorkflowCatalog.Compiler
