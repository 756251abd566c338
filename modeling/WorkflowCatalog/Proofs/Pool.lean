/-
  WorkflowCatalog/Proofs/Pool.lean
  ================================
  **The pool gives every manifest its own answer.**  Working off the manifests of a pool
  leaves, in every slot, the outcome of the manifest of the slot, in the order of the
  manifests; the first failure that ends the run, in that order, is the failure of the
  whole (`outcome_workOff`).  So a run is one pass over the paths, unless its time is over
  at once or cannot be waited for (`outcome_run`).
-/
import WorkflowCatalog.Compiler.Basic
import WorkflowCatalog.Proofs.Outcome

namespace WorkflowCatalog.Compiler

variable {answer : Path → Run Workflow} {stop : Bool}

/-! ### One manifest -/

/-- The outcome of a manifest, with its path, unless it ends the run. -/
def settled (answer : Path → Run Workflow) (stop : Bool) (p : Path) :
    Except Failure (Path × Outcome) :=
  (settle stop (answer p).outcome).map (p, ·)

/-- What a manifest adds to a run: it goes on with one slot filled, or ends. -/
theorem accept_eq (pool : Pool) (number : Nat) (a : Except Failure Workflow) :
    pool.accept stop number a =
      (settle stop a).map fun outcome =>
        { pool with
          slots := pool.slots.set number (some outcome)
          pending := pool.pending.erase number } := by
  unfold Pool.accept
  cases settle stop a <;> rfl

/-! ### The pool -/

theorem workOff_cons (p : Path) (number : Nat) (rest : List (Path × Nat)) (pool : Pool) :
    workOff answer stop ((p, number) :: rest) pool =
      Traced.attempt (answer p) >>= fun a =>
        match pool.accept stop number a with
        | .ok pool => workOff answer stop rest pool
        | .error f => throw f := rfl

theorem appends_workOff (ha : ∀ p, (answer p).Appends) (todo : List (Path × Nat)) (pool : Pool) :
    (workOff answer stop todo pool).Appends := by
  induction todo generalizing pool with
  | nil => exact Traced.appends_pure pool
  | cons entry rest ih =>
    obtain ⟨p, number⟩ := entry
    rw [workOff_cons]
    refine Traced.appends_bind (Traced.appends_attempt (ha p)) ?_
    intro a
    cases pool.accept stop number a with
    | ok pool' => exact ih pool'
    | error f => exact Traced.appends_throw f

theorem outcome_workOff_cons (ha : ∀ p, (answer p).Appends) (p : Path) (number : Nat)
    (rest : List (Path × Nat)) (pool : Pool) :
    (workOff answer stop ((p, number) :: rest) pool).outcome =
      (pool.accept stop number (answer p).outcome).bind fun pool =>
        (workOff answer stop rest pool).outcome := by
  rw [workOff_cons, Traced.outcome_bind, Traced.outcome_attempt]
  · change Traced.outcome (match pool.accept stop number (answer p).outcome with
      | .ok pool => workOff answer stop rest pool
      | .error f => throw f) = _
    cases pool.accept stop number (answer p).outcome <;> rfl
  · intro a
    cases pool.accept stop number a with
    | ok pool' => exact appends_workOff ha rest pool'
    | error f => exact Traced.appends_throw f

/-- The outcomes of a pool whose first slots are filled and whose others are empty. -/
theorem outcomes_filled {front : List Path} {done : List Outcome} (pending : List Nat)
    (h : done.length = front.length) :
    Pool.outcomes ⟨front, done.map some, pending⟩ = front.zip done := by
  unfold Pool.outcomes
  dsimp only
  induction front generalizing done with
  | nil => rfl
  | cons p front ih =>
    cases done with
    | nil => cases h
    | cons o done =>
      have hlen : done.length = front.length := Nat.succ.inj h
      simp [ih hlen]

/-- Filling the first empty slot. -/
theorem set_first_empty (done : List Outcome) (o : Outcome) (rest : List Path) :
    (done.map some ++ none :: rest.map fun _ => none).set done.length (some o) =
      (done ++ [o]).map some ++ rest.map fun _ => none := by
  have hlen : (done.map some).length = done.length := List.length_map _
  rw [← hlen, List.set_append_right _ _ (Nat.le_refl _), Nat.sub_self]
  simp

/-- **Working off a pool.**  The invariant: the slots in front are filled, in order, and
    those of the manifests that are left are empty. -/
theorem outcome_workOff_from (ha : ∀ p, (answer p).Appends) (rest front : List Path)
    (done : List Outcome) (pending : List Nat) (h : done.length = front.length) :
    ((workOff answer stop (rest.zipIdx front.length)
        ⟨front ++ rest, done.map some ++ rest.map fun _ => none, pending⟩).outcome).map
      Pool.outcomes = (rest.mapM (settled answer stop)).map fun os => front.zip done ++ os := by
  induction rest generalizing front done pending with
  | nil =>
    have key := outcomes_filled pending h
    simp only [List.map_nil, List.append_nil, List.mapM_nil]
    change Except.ok (Pool.outcomes ⟨front, done.map some, pending⟩) = _
    rw [key]
    simp [Except.map, pure, Except.pure]
  | cons p rest ih =>
    rw [List.zipIdx_cons, outcome_workOff_cons ha, accept_eq, List.mapM_cons]
    cases hs : settle stop (answer p).outcome with
    | error f =>
      have hp : settled answer stop p = .error f := by rw [settled, hs]; rfl
      rw [hp]
      rfl
    | ok o =>
      have hp : settled answer stop p = .ok (p, o) := by rw [settled, hs]; rfl
      have hlen : (done ++ [o]).length = (front ++ [p]).length := by simp [h]
      have hzip : (front ++ [p]).zip (done ++ [o]) = front.zip done ++ [(p, o)] :=
        List.zip_append h.symm
      have key := ih (front ++ [p]) (done ++ [o]) (pending.erase front.length) hlen
      rw [hzip, ← set_first_empty, h, List.append_assoc, List.length_append] at key
      refine key.trans ?_
      rw [hp]
      cases rest.mapM (settled answer stop) with
      | error f => rfl
      | ok os => simp [Except.map, bind, Except.bind, pure, Except.pure]

/-- The outcomes of the manifests of a pool. -/
theorem outcome_workOff (ha : ∀ p, (answer p).Appends) (paths : List Path) :
    ((workOff answer stop paths.zipIdx (Pool.start paths)).outcome).map Pool.outcomes =
      paths.mapM (settled answer stop) := by
  refine (outcome_workOff_from ha paths [] [] (List.range paths.length) rfl).trans ?_
  cases paths.mapM (settled answer stop) <;> rfl

/-! ### Runs -/

section Run

variable (fs : FileSystem) (config : Config)

theorem appends_run (paths : List Path) : (run fs config stop paths).Appends := by
  unfold run
  by_cases hempty : (arrange paths).isEmpty
  · simp only [hempty, if_true]
    exact Traced.appends_pure _
  by_cases hover : isOverAtOnce config
  · simp only [hempty, hover, if_true]
    exact Run.appends_raise _
  by_cases hlong : isTooLong config
  · simp only [hempty, hover, hlong, if_true]
    exact Traced.appends_throw _
  · simp only [hempty, hover, hlong]
    exact Traced.appends_bind (appends_workOff (appends_compileManifest fs config) _ _)
      fun _ => Traced.appends_pure _

/-- **A run is one pass over the paths, in order**, if there is time and it can be waited for. -/
theorem outcome_run (paths : List Path) :
    (run fs config stop paths).outcome =
      if (arrange paths).isEmpty then .ok []
      else if isOverAtOnce config then
        .error (.error (timeIsUp config (Pool.start (arrange paths))))
      else if isTooLong config then .error .waitTooLong
      else (arrange paths).mapM (settled (compileManifest fs config) stop) := by
  unfold run
  by_cases hempty : (arrange paths).isEmpty
  · simp only [hempty, if_true]
    rfl
  by_cases hover : isOverAtOnce config
  · simp only [hempty, hover, if_true]
    exact Run.outcome_raise _
  by_cases hlong : isTooLong config
  · simp only [hempty, hover, hlong, if_true]
    rfl
  · simp only [hempty, hover, hlong, Bool.false_eq_true, if_false]
    rw [Traced.outcome_bind fun _ => Traced.appends_pure _,
      ← outcome_workOff (appends_compileManifest fs config)]
    cases (workOff (compileManifest fs config) stop (arrange paths).zipIdx
      (Pool.start (arrange paths))).outcome <;> rfl

end Run

/-! ### One pass over the paths -/

variable {ps : List Path}

theorem settled_eq_ok {p : Path} {q : Path × Outcome} :
    settled answer stop p = .ok q ↔ q.1 = p ∧ settle stop (answer p).outcome = .ok q.2 := by
  obtain ⟨p', o⟩ := q
  unfold settled
  cases settle stop (answer p).outcome with
  | error f => simp [Except.map]
  | ok o' =>
    simp only [Except.map, Except.ok.injEq, Prod.mk.injEq]
    constructor
    · rintro ⟨rfl, rfl⟩
      exact ⟨rfl, rfl⟩
    · rintro ⟨rfl, rfl⟩
      exact ⟨rfl, rfl⟩

theorem settled_eq_error {p : Path} {f : Failure} :
    settled answer stop p = .error f ↔ settle stop (answer p).outcome = .error f := by
  unfold settled
  cases settle stop (answer p).outcome <;> simp [Except.map]

/-- A pass that ends well has an outcome for every path, in the order of the paths. -/
theorem outcomes_of_mapM {os : List (Path × Outcome)}
    (h : ps.mapM (settled answer stop) = .ok os) :
    os.map (·.1) = ps ∧ ∀ q ∈ os, settle stop (answer q.1).outcome = .ok q.2 := by
  induction ps generalizing os with
  | nil =>
    cases h
    refine ⟨rfl, ?_⟩
    intro q hq
    cases hq
  | cons p rest ih =>
    rw [List.mapM_cons] at h
    obtain ⟨q, hq, h⟩ := bind_eq_ok.1 h
    obtain ⟨os', hos, h⟩ := bind_eq_ok.1 h
    cases h
    obtain ⟨hp, ho⟩ := settled_eq_ok.1 hq
    obtain ⟨hmap, hall⟩ := ih hos
    subst hp
    refine ⟨by rw [List.map_cons, hmap], ?_⟩
    intro q' hq'
    rcases List.mem_cons.1 hq' with rfl | hq'
    · exact ho
    · exact hall q' hq'

/-- A pass ends well if no manifest ends it. -/
theorem exists_outcomes (h : ∀ p ∈ ps, ∃ o, settle stop (answer p).outcome = .ok o) :
    ∃ os, ps.mapM (settled answer stop) = .ok os := by
  induction ps with
  | nil => exact ⟨[], rfl⟩
  | cons p rest ih =>
    obtain ⟨o, ho⟩ := h p List.mem_cons_self
    obtain ⟨os, hos⟩ := ih fun q hq => h q (List.mem_cons_of_mem _ hq)
    refine ⟨(p, o) :: os, ?_⟩
    have hp : settled answer stop p = .ok (p, o) := settled_eq_ok.2 ⟨rfl, ho⟩
    rw [List.mapM_cons, hp, hos]
    rfl

/-- A pass that fails fails for one of its manifests. -/
theorem exists_of_mapM_eq_error {f : Failure} (h : ps.mapM (settled answer stop) = .error f) :
    ∃ p ∈ ps, settle stop (answer p).outcome = .error f := by
  induction ps with
  | nil => cases h
  | cons p rest ih =>
    rw [List.mapM_cons] at h
    rcases bind_eq_error.1 h with hp | ⟨q, -, h⟩
    · exact ⟨p, List.mem_cons_self, settled_eq_error.1 hp⟩
    rcases bind_eq_error.1 h with hrest | ⟨os, -, h⟩
    · obtain ⟨p', hp', hf⟩ := ih hrest
      exact ⟨p', List.mem_cons_of_mem _ hp', hf⟩
    · cases h

/-- The outcomes of a run that stops for unreadable manifests. -/
theorem settle_true_eq_ok {a : Except Failure Workflow} {o : Outcome} (h : settle true a = .ok o) :
    (∃ e, a = .error (.error (.parse e)) ∧ o = .error (.parse e)) ∨ ∃ w, a = .ok w ∧ o = .ok w := by
  rcases a with f | w
  · cases f with
    | error e =>
      cases e with
      | parse e =>
        cases h
        exact .inl ⟨e, rfl, rfl⟩
      | _ => cases h
    | _ => cases h
  · cases h
    exact .inr ⟨w, rfl, rfl⟩

end WorkflowCatalog.Compiler
