/-
  WorkflowCatalog/Proofs/Schedule.lean
  ====================================
  **The order in which answers arrive makes no difference.**  Manifests are worked on by
  any number of workers.  At every moment the answers of some pending manifests arrive,
  all at once, and are taken up one by one in any order; or the time is up before all
  have arrived.  A time limit can be longer than can be waited; then answers that are
  there already are taken up, but to wait for one fails.  `Step` is one such move and
  `Schedule` is any sequence of them.

  What carries over from move to move is that the pending manifests are the ones with an
  empty slot and that a filled slot holds the answer of its own manifest (`Sound`).  When
  nothing is pending, every slot is filled, and dropping the empty slots drops nothing.

  Main statement: every schedule ends, and what it ends in is accounted for by the
  manifests alone, unless the time is up or a wait fails (`schedule_accounted`).
-/
import Mathlib.Data.Set.List
import WorkflowCatalog.Proofs.Listing

namespace WorkflowCatalog.Compiler

/-! ### Moves -/

/-- Where a run stands. -/
inductive Stage where
  /-- The answers of a batch are there and are taken up in this order.  While the batch is
      empty, answers are waited for. -/
  | working (batch : List Nat) (pool : Pool)
  | over (result : Except Failure (List (Path × Outcome)))

inductive Move where
  /-- The answers of some manifests arrive. -/
  | arrive (batch : List Nat)
  /-- The next answer of the batch is taken up. -/
  | take
  | timeOut
  /-- The time limit is longer than can be waited, and no answer is there. -/
  | waitFails
  | finish
  deriving DecidableEq

section

variable (answer : Path → Except Failure Workflow) (config : Config) (stop : Bool)

/-- One move of a run whose manifests have the given answers. -/
inductive Step : Stage → Move → Stage → Prop where
  | arrive {batch : List Nat} {pool : Pool} (hne : batch ≠ []) (hnodup : batch.Nodup)
    (hpending : batch ⊆ pool.pending) :
    Step (.working [] pool) (.arrive batch) (.working batch pool)
  | take {number : Nat} {batch : List Nat} {pool pool' : Pool} {p : Path}
    (hp : pool.paths[number]? = some p) (h : pool.accept stop number (answer p) = .ok pool') :
    Step (.working (number :: batch) pool) .take (.working batch pool')
  | fail {number : Nat} {batch : List Nat} {pool : Pool} {p : Path} {f : Failure}
    (hp : pool.paths[number]? = some p) (h : pool.accept stop number (answer p) = .error f) :
    Step (.working (number :: batch) pool) .take (.over (.error f))
  | timeOut {pool : Pool} (h : pool.pending ≠ []) :
    Step (.working [] pool) .timeOut (.over (.error (.error (timeIsUp config pool))))
  | waitFails {pool : Pool} (h : pool.pending ≠ []) (hlong : isTooLong config = true) :
    Step (.working [] pool) .waitFails (.over (.error .waitTooLong))
  | finish {pool : Pool} (h : pool.pending = []) :
    Step (.working [] pool) .finish (.over (.ok pool.outcomes))

/-- Moves one after the other, from the pool in which no answer has arrived. -/
inductive Schedule (paths : List Path) : List Move → Stage → Prop where
  | start : Schedule paths [] (.working [] (Pool.start paths))
  | move {moves : List Move} {m : Move} {s t : Stage} (hs : Schedule paths moves s)
    (h : Step answer config stop s m t) : Schedule paths (moves ++ [m]) t

end

/-- The move is neither the end of the time nor a wait that fails. -/
def Move.IsSmooth (m : Move) : Prop := m ≠ .timeOut ∧ m ≠ .waitFails

/-- The time is not up, and no wait fails. -/
def Smooth (moves : List Move) : Prop := ∀ m ∈ moves, m.IsSmooth

theorem smooth_nil : Smooth [] := nofun

theorem smooth_concat {moves : List Move} {m : Move} :
    Smooth (moves ++ [m]) ↔ Smooth moves ∧ m.IsSmooth := by
  unfold Smooth
  rw [List.forall_mem_append, List.forall_mem_singleton]

theorem Smooth.concat {moves : List Move} {m : Move} (h : Smooth moves) (hm : m.IsSmooth) :
    Smooth (moves ++ [m]) :=
  smooth_concat.2 ⟨h, hm⟩

theorem isSmooth_arrive (batch : List Nat) : (Move.arrive batch).IsSmooth := ⟨nofun, nofun⟩

theorem isSmooth_take : Move.take.IsSmooth := ⟨nofun, nofun⟩

theorem isSmooth_finish : Move.finish.IsSmooth := ⟨nofun, nofun⟩

/-- Moves that are not smooth let the time be up or a wait fail. -/
theorem smooth_iff {moves : List Move} :
    Smooth moves ↔ .timeOut ∉ moves ∧ .waitFails ∉ moves := by
  constructor
  · exact fun h => ⟨fun hmem => (h _ hmem).1 rfl, fun hmem => (h _ hmem).2 rfl⟩
  · rintro ⟨htime, hwait⟩ m hm
    exact ⟨fun heq => htime (heq ▸ hm), fun heq => hwait (heq ▸ hm)⟩

variable {answer : Path → Except Failure Workflow} {config : Config} {stop : Bool}
  {paths : List Path}

/-! ### What every move keeps -/

variable (answer stop paths) in
/-- The pending manifests are those with an empty slot, and a filled slot holds the answer
    of its manifest.  The answers of a batch have not been taken up. -/
structure Sound (batch : List Nat) (pool : Pool) : Prop where
  paths_eq : pool.paths = paths
  length_slots : pool.slots.length = paths.length
  nodup_pending : pool.pending.Nodup
  mem_pending : ∀ i, i ∈ pool.pending ↔ pool.slots[i]? = some none
  filled : ∀ {i : Nat} {p : Path} {o : Outcome}, paths[i]? = some p →
    pool.slots[i]? = some (some o) → settle stop (answer p) = .ok o
  nodup_batch : batch.Nodup
  batch_subset : batch ⊆ pool.pending

/-- At first all slots are empty. -/
theorem slots_start (i : Nat) :
    (Pool.start paths).slots[i]? = if i < paths.length then some none else none := by
  simp [Pool.start, List.getElem?_replicate]

theorem sound_start : Sound answer stop paths [] (Pool.start paths) where
  paths_eq := rfl
  length_slots := List.length_map _
  nodup_pending := List.nodup_range
  mem_pending i := by
    rw [slots_start]
    simp [Pool.start]
  filled := by
    intro i p o hp ho
    rw [slots_start] at ho
    split at ho <;> cases ho
  nodup_batch := .nil
  batch_subset := List.nil_subset _

theorem Sound.arrive {batch : List Nat} {pool : Pool} (h : Sound answer stop paths [] pool)
    (hnodup : batch.Nodup) (hpending : batch ⊆ pool.pending) :
    Sound answer stop paths batch pool :=
  { h with nodup_batch := hnodup, batch_subset := hpending }

/-- What taking up an answer does to the pool. -/
theorem accept_eq_ok {pool pool' : Pool} {number : Nat} {a : Except Failure Workflow} :
    pool.accept stop number a = .ok pool' ↔
      ∃ o, settle stop a = .ok o ∧
        pool' = { pool with
          slots := pool.slots.set number (some o)
          pending := pool.pending.erase number } := by
  rw [accept_eq]
  cases settle stop a with
  | error f => simp [Except.map]
  | ok o => simp [Except.map, eq_comm]

theorem accept_eq_error {pool : Pool} {number : Nat} {a : Except Failure Workflow}
    {f : Failure} : pool.accept stop number a = .error f ↔ settle stop a = .error f := by
  rw [accept_eq]
  cases settle stop a <;> simp [Except.map]

/-- **Taking up an answer** fills the slot of its manifest and no other. -/
theorem Sound.take {number : Nat} {batch : List Nat} {pool pool' : Pool} {p : Path}
    (h : Sound answer stop paths (number :: batch) pool) (hp : pool.paths[number]? = some p)
    (haccept : pool.accept stop number (answer p) = .ok pool') :
    Sound answer stop paths batch pool' ∧ pool'.pending.length + 1 = pool.pending.length := by
  obtain ⟨o, ho, rfl⟩ := accept_eq_ok.1 haccept
  obtain ⟨hnotin, hnodup⟩ := List.nodup_cons.1 h.nodup_batch
  have hmem : number ∈ pool.pending := h.batch_subset List.mem_cons_self
  have hlt : number < pool.slots.length :=
    (List.getElem?_eq_some_iff.1 ((h.mem_pending _).1 hmem)).1
  refine ⟨⟨h.paths_eq, ?_, h.nodup_pending.erase _, ?_, ?_, hnodup, ?_⟩, ?_⟩
  · rw [List.length_set, h.length_slots]
  · intro i
    rw [h.nodup_pending.mem_erase_iff, h.mem_pending]
    by_cases hi : i = number
    · subst hi
      simp [hlt]
    · rw [List.getElem?_set_ne (Ne.symm hi)]
      simp [hi]
  · intro i q o' hq ho'
    by_cases hi : i = number
    · subst hi
      rw [List.getElem?_set_self hlt] at ho'
      rw [h.paths_eq, hq] at hp
      cases hp
      cases ho'
      exact ho
    · rw [List.getElem?_set_ne (Ne.symm hi)] at ho'
      exact h.filled hq ho'
  · intro i hi
    refine (h.nodup_pending.mem_erase_iff).2 ⟨?_, h.batch_subset (List.mem_cons_of_mem _ hi)⟩
    rintro rfl
    exact hnotin hi
  · have hpos : 0 < pool.pending.length := List.length_pos_of_mem hmem
    dsimp only
    rw [List.length_erase_of_mem hmem]
    omega

/-- **When nothing is pending**, every manifest has its outcome, in order. -/
theorem Sound.outcomes {pool : Pool} (h : Sound answer stop paths [] pool)
    (hpending : pool.pending = []) :
    pool.outcomes.map (·.1) = paths ∧
      ∀ q ∈ pool.outcomes, settle stop (answer q.1) = .ok q.2 := by
  have hfull : ∀ slot ∈ pool.slots, ∃ o, some o = slot := by
    intro slot hslot
    obtain ⟨i, hi⟩ := List.mem_iff_getElem?.1 hslot
    cases slot with
    | some o => exact ⟨o, rfl⟩
    | none =>
      have hi' := (h.mem_pending i).2 hi
      rw [hpending] at hi'
      cases hi'
  obtain ⟨done, hdone⟩ : pool.slots ∈ Set.range (List.map some) := by
    rw [Set.range_list_map]
    exact hfull
  have hlen : done.length = pool.paths.length := by
    rw [h.paths_eq, ← h.length_slots, ← hdone, List.length_map]
  have houtcomes : pool.outcomes = pool.paths.zip done := by
    rw [← outcomes_filled pool.pending hlen, hdone]
  rw [houtcomes]
  refine ⟨by rw [List.map_fst_zip (Nat.le_of_eq hlen.symm), h.paths_eq], ?_⟩
  intro q hq
  obtain ⟨i, hi⟩ := List.mem_iff_getElem?.1 hq
  obtain ⟨hp, ho⟩ := List.getElem?_zip_eq_some.1 hi
  refine h.filled (h.paths_eq ▸ hp) ?_
  rw [← hdone, List.getElem?_map, ho]
  rfl

/-! ### What every schedule ends in -/

variable (answer stop paths) in
/-- What a run can end in that is not cut short: an outcome for every manifest, or a failure of
    one of them. -/
inductive Ends : Except Failure (List (Path × Outcome)) → Prop where
  | whole {os : List (Path × Outcome)} (hpaths : os.map (·.1) = paths)
    (hsettle : ∀ q ∈ os, settle stop (answer q.1) = .ok q.2) : Ends (.ok os)
  | failed {p : Path} {f : Failure} (hp : p ∈ paths) (h : settle stop (answer p) = .error f) :
    Ends (.error f)

variable (answer config stop paths) in
/-- How a run is over: it has not been cut short, or the time is up, or a wait has failed. -/
inductive Verdict (moves : List Move) : Except Failure (List (Path × Outcome)) → Prop where
  | smooth {result : Except Failure (List (Path × Outcome))} (hsmooth : Smooth moves)
    (hends : Ends answer stop paths result) : Verdict moves result
  | timedOut (htime : .timeOut ∈ moves) (hwait : .waitFails ∉ moves)
    (h : moves.count .take < paths.length) :
    Verdict moves (.error (.error
      (.timeLimit (.exact config.timeLimit.1) (paths.length - moves.count .take))))
  | waitFailed (hwait : .waitFails ∈ moves) (htime : .timeOut ∉ moves) (hne : paths ≠ [])
    (hlong : isTooLong config = true) : Verdict moves (.error .waitTooLong)

variable (answer config stop paths) in
/-- What is known of a run after some moves. -/
def Stage.Known (moves : List Move) : Stage → Prop
  | .working batch pool =>
    Sound answer stop paths batch pool ∧ Smooth moves ∧
      moves.count .take + pool.pending.length = paths.length
  | .over result => Verdict answer config stop paths moves result

/-- **One move.** -/
theorem Stage.Known.step {moves : List Move} {m : Move} {s t : Stage}
    (hs : s.Known answer config stop paths moves) (h : Step answer config stop s m t) :
    t.Known answer config stop paths (moves ++ [m]) := by
  cases h with
  | arrive hne hnodup hpending =>
    obtain ⟨hsound, hsmooth, hcount⟩ := hs
    refine ⟨hsound.arrive hnodup hpending, hsmooth.concat (isSmooth_arrive _), ?_⟩
    rw [List.count_append]
    simpa using hcount
  | take hp haccept =>
    obtain ⟨hsound, hsmooth, hcount⟩ := hs
    obtain ⟨hsound', hlen⟩ := hsound.take hp haccept
    refine ⟨hsound', hsmooth.concat isSmooth_take, ?_⟩
    rw [List.count_append, List.count_singleton_self]
    omega
  | fail hp haccept =>
    obtain ⟨hsound, hsmooth, hcount⟩ := hs
    rw [hsound.paths_eq] at hp
    exact .smooth (hsmooth.concat isSmooth_take)
      (.failed (List.mem_of_getElem? hp) (accept_eq_error.1 haccept))
  | @timeOut pool hne =>
    obtain ⟨hsound, hsmooth, hcount⟩ := hs
    have hpos : 0 < pool.pending.length := List.length_pos_iff.2 hne
    have htake : (moves ++ [Move.timeOut]).count Move.take = moves.count .take := by
      rw [List.count_append]
      rfl
    have hleft : (pool.pending.length : Int) =
        paths.length - (moves ++ [Move.timeOut]).count Move.take := by
      rw [htake]
      omega
    unfold timeIsUp
    rw [hleft]
    refine .timedOut (List.mem_append_right _ List.mem_cons_self) ?_ (by rw [htake]; omega)
    simpa using (smooth_iff.1 hsmooth).2
  | @waitFails pool hne hlong =>
    obtain ⟨hsound, hsmooth, hcount⟩ := hs
    have hpos : 0 < pool.pending.length := List.length_pos_iff.2 hne
    have hpaths : paths ≠ [] := by
      rintro rfl
      rw [List.length_nil] at hcount
      omega
    refine .waitFailed (List.mem_append_right _ List.mem_cons_self) ?_ hpaths hlong
    simpa using (smooth_iff.1 hsmooth).1
  | finish hpending =>
    obtain ⟨hsound, hsmooth, hcount⟩ := hs
    obtain ⟨hpaths, hsettle⟩ := hsound.outcomes hpending
    exact .smooth (hsmooth.concat isSmooth_finish) (.whole hpaths hsettle)

/-- **All moves.** -/
theorem Schedule.known {moves : List Move} {s : Stage}
    (h : Schedule answer config stop paths moves s) : s.Known answer config stop paths moves := by
  induction h with
  | start =>
    refine ⟨sound_start, smooth_nil, ?_⟩
    simp [Pool.start]
  | move _ hstep ih => exact ih.step hstep

/-! ### Every schedule ends -/

/-- How many moves a run can still make. -/
def Stage.left : Stage → Nat
  | .working [] pool => 2 * pool.pending.length + 1
  | .working (_ :: _) pool => 2 * pool.pending.length
  | .over _ => 0

theorem Stage.left_le (batch : List Nat) (pool : Pool) :
    (Stage.working batch pool).left ≤ 2 * pool.pending.length + 1 := by
  cases batch with
  | nil => exact Nat.le_refl _
  | cons number batch => exact Nat.le_succ _

theorem left_lt {moves : List Move} {m : Move} {s t : Stage}
    (hs : s.Known answer config stop paths moves) (h : Step answer config stop s m t) :
    t.left < s.left := by
  cases h with
  | @arrive batch pool hne hnodup hpending =>
    cases batch with
    | nil => exact absurd rfl hne
    | cons number batch => exact Nat.lt_succ_self _
  | @take number batch pool pool' p hp haccept =>
    obtain ⟨-, hlen⟩ := hs.1.take hp haccept
    have hle := Stage.left_le batch pool'
    change _ < 2 * pool.pending.length
    omega
  | @fail number batch pool p f hp haccept =>
    have hpos : 0 < pool.pending.length :=
      List.length_pos_of_mem (hs.1.batch_subset List.mem_cons_self)
    change 0 < 2 * pool.pending.length
    omega
  | timeOut | waitFails | finish => exact Nat.succ_pos _

/-- A schedule has at most two moves for every manifest and one to end. -/
theorem Schedule.length_add_left_le {moves : List Move} {s : Stage}
    (h : Schedule answer config stop paths moves s) :
    moves.length + s.left ≤ 2 * paths.length + 1 := by
  induction h with
  | start => simp [Stage.left, Pool.start]
  | move hs hstep ih =>
    have hlt := left_lt hs.known hstep
    rw [List.length_append, List.length_singleton]
    omega

/-- **A run that is not over can go on**, and no wait has to fail for it. -/
theorem Schedule.exists_step {moves : List Move} {batch : List Nat} {pool : Pool}
    (h : Schedule answer config stop paths moves (.working batch pool)) :
    ∃ m t, m.IsSmooth ∧ Step answer config stop (.working batch pool) m t := by
  obtain ⟨hsound, -, -⟩ := h.known
  cases batch with
  | nil =>
    by_cases hpending : pool.pending = []
    · exact ⟨.finish, _, isSmooth_finish, .finish hpending⟩
    · exact ⟨.arrive pool.pending, _, isSmooth_arrive _,
        .arrive hpending hsound.nodup_pending (List.Subset.refl _)⟩
  | cons number batch =>
    have hslot := (hsound.mem_pending number).1 (hsound.batch_subset List.mem_cons_self)
    have hlt : number < pool.paths.length := by
      rw [hsound.paths_eq, ← hsound.length_slots]
      exact (List.getElem?_eq_some_iff.1 hslot).1
    have hp : pool.paths[number]? = some pool.paths[number] := List.getElem?_eq_getElem hlt
    cases haccept : pool.accept stop number (answer pool.paths[number]) with
    | ok pool' => exact ⟨.take, _, isSmooth_take, .take hp haccept⟩
    | error f => exact ⟨.take, _, isSmooth_take, .fail hp haccept⟩

/-- Every run can be brought to its end smoothly; how many moves it can still make gets
    smaller with each move. -/
theorem Schedule.exists_over {moves : List Move} {s : Stage}
    (h : Schedule answer config stop paths moves s) (hsmooth : Smooth moves) :
    ∃ moves' result, Smooth moves' ∧ Schedule answer config stop paths moves' (.over result) := by
  rcases hs : s with ⟨batch, pool⟩ | result
  · rw [hs] at h
    obtain ⟨m, t, hm, hstep⟩ := h.exists_step
    have hlt := left_lt h.known hstep
    exact (h.move hstep).exists_over (hsmooth.concat hm)
  · exact ⟨moves, result, hsmooth, hs ▸ h⟩
termination_by s.left
decreasing_by
  rw [hs]
  exact hlt

/-! ### Every end is that of a schedule -/

/-- Outcomes that are those of the same paths are the same. -/
theorem eq_of_settle {os os' : List (Path × Outcome)} (hpaths : os.map (·.1) = os'.map (·.1))
    (h : ∀ q ∈ os, settle stop (answer q.1) = .ok q.2)
    (h' : ∀ q ∈ os', settle stop (answer q.1) = .ok q.2) : os = os' := by
  induction os generalizing os' with
  | nil => exact (List.map_eq_nil_iff.1 hpaths.symm).symm
  | cons q rest ih =>
    cases os' with
    | nil => cases hpaths
    | cons q' rest' =>
      obtain ⟨p, o⟩ := q
      obtain ⟨p', o'⟩ := q'
      rw [List.map_cons, List.map_cons, List.cons.injEq] at hpaths
      rw [List.forall_mem_cons] at h h'
      obtain ⟨hp, hrest⟩ := hpaths
      dsimp only at hp
      subst hp
      have houtcome : o = o' := Except.ok.inj (h.1.symm.trans h'.1)
      rw [houtcome, ih hrest h.2 h'.2]

/-- If all manifests can have their outcome, that is the only end. -/
theorem Ends.eq_of_ok {os : List (Path × Outcome)}
    {result : Except Failure (List (Path × Outcome))}
    (h : Ends answer stop paths (.ok os)) (h' : Ends answer stop paths result) :
    result = .ok os := by
  obtain ⟨hpaths, hsettle⟩ := h
  cases h' with
  | whole hpaths' hsettle' =>
    rw [eq_of_settle (hpaths'.trans hpaths.symm) hsettle' hsettle]
  | failed hp hf =>
    rw [← hpaths] at hp
    obtain ⟨q, hq, rfl⟩ := List.mem_map.1 hp
    rw [hsettle q hq] at hf
    cases hf

/-- Manifests that give the same answers can end in the same. -/
theorem Ends.congr {answer' : Path → Except Failure Workflow}
    {result : Except Failure (List (Path × Outcome))} (h : Ends answer stop paths result)
    (hanswers : ∀ p ∈ paths, answer' p = answer p) : Ends answer' stop paths result := by
  cases h with
  | @whole os hpaths hsettle =>
    refine .whole hpaths fun q hq => ?_
    rw [hanswers q.1 (hpaths ▸ List.mem_map_of_mem hq)]
    exact hsettle q hq
  | failed hp hf => exact .failed hp (by rwa [hanswers _ hp])

/-- **Every end is that of a smooth schedule.**  The failure of a manifest is the end if its
    answer comes first. -/
theorem Ends.exists_schedule {result : Except Failure (List (Path × Outcome))}
    (h : Ends answer stop paths result) (config : Config) :
    ∃ moves, Smooth moves ∧ Schedule answer config stop paths moves (.over result) := by
  cases result with
  | ok os =>
    have hstart : Schedule answer config stop paths [] (.working [] (Pool.start paths)) := .start
    obtain ⟨moves, result', hsmooth, hover⟩ := hstart.exists_over smooth_nil
    cases hover.known with
    | smooth _ hends =>
      rw [h.eq_of_ok hends] at hover
      exact ⟨moves, hsmooth, hover⟩
    | timedOut htime => exact absurd htime (smooth_iff.1 hsmooth).1
    | waitFailed hwait => exact absurd hwait (smooth_iff.1 hsmooth).2
  | error f =>
    cases h with
    | @failed p _ hp hf =>
    obtain ⟨i, hi⟩ := List.mem_iff_getElem?.1 hp
    have hlt : i < paths.length := (List.getElem?_eq_some_iff.1 hi).1
    have harrive : Schedule answer config stop paths [.arrive [i]]
        (.working [i] (Pool.start paths)) := by
      refine .move .start (.arrive (List.cons_ne_nil _ _) (List.nodup_singleton i) ?_)
      intro j hj
      rw [List.mem_singleton.1 hj]
      exact List.mem_range.2 hlt
    refine ⟨[.arrive [i], .take], ?_, harrive.move (.fail hi (accept_eq_error.2 hf))⟩
    exact (smooth_nil.concat (isSmooth_arrive [i])).concat isSmooth_take

/-! ### The run in order is one of the schedules -/

section

variable (fs : FileSystem)

/-- What the work on every manifest ends in. -/
abbrev answers (config : Config) (p : Path) : Except Failure Workflow :=
  (compileManifest fs config p).outcome

/-- A pass over the manifests is not cut short. -/
theorem ends_of_mapM (config : Config) (stop : Bool) (ps : List Path) :
    Ends (answers fs config) stop ps (ps.mapM (settled (compileManifest fs config) stop)) := by
  cases hos : ps.mapM (settled (compileManifest fs config) stop) with
  | ok os =>
    obtain ⟨hpaths, hsettle⟩ := outcomes_of_mapM hos
    exact .whole hpaths hsettle
  | error f =>
    obtain ⟨p, hp, hf⟩ := exists_of_mapM_eq_error hos
    exact .failed hp hf

/-- **The run that works on one manifest after the other is one of the schedules.** -/
theorem exists_schedule_run (config : Config) (stop : Bool) (paths : List Path) :
    ∃ moves, Schedule (answers fs config) config stop (arrange paths) moves
        (.over (run fs config stop paths).outcome) ∧
      (isOverAtOnce config = false → .timeOut ∉ moves) := by
  have hstart : Schedule (answers fs config) config stop (arrange paths) []
      (.working [] (Pool.start (arrange paths))) := .start
  have hpending : (Pool.start (arrange paths)).pending = [] ↔ arrange paths = [] := by
    simp [Pool.start]
  rw [outcome_run]
  by_cases hempty : (arrange paths).isEmpty
  · rw [if_pos hempty]
    rw [List.isEmpty_iff] at hempty
    refine ⟨[.finish], ?_, fun _ => by decide⟩
    have hfinish := hstart.move (.finish (hpending.2 hempty))
    rw [hempty] at hfinish ⊢
    exact hfinish
  rw [if_neg hempty]
  rw [List.isEmpty_iff] at hempty
  by_cases hover : isOverAtOnce config
  · rw [if_pos hover]
    refine ⟨[.timeOut], hstart.move (.timeOut (mt hpending.1 hempty)), fun hno => ?_⟩
    rw [hover] at hno
    cases hno
  rw [if_neg hover]
  by_cases hlong : isTooLong config
  · rw [if_pos hlong]
    exact ⟨[.waitFails], hstart.move (.waitFails (mt hpending.1 hempty) hlong), fun _ => by decide⟩
  · rw [if_neg hlong]
    obtain ⟨moves, hsmooth, hschedule⟩ :=
      (ends_of_mapM fs config stop (arrange paths)).exists_schedule config
    exact ⟨moves, hschedule, fun _ => (smooth_iff.1 hsmooth).1⟩

end

/-! ### What the manifests alone decide -/

/-- Does the failure of a manifest end a run? -/
def IsFatal (stop : Bool) (f : Failure) : Prop :=
  (∀ e, f ≠ .error (.parse e)) ∧ (stop = false → ∀ e, IsReadError e → f ≠ .error e)

theorem settle_eq_ok {a : Except Failure Workflow} {o : Outcome} (h : settle stop a = .ok o) :
    a = o.mapError .error := by
  rcases a with f | w
  · cases f with
    | error e =>
      cases e with
      | parse d =>
        cases h
        rfl
      | manifestIO reason path detail =>
        cases stop with
        | false =>
          cases h
          rfl
        | true => cases h
      | _ => cases h
    | _ => cases h
  · cases h
    rfl

theorem settle_eq_error {a : Except Failure Workflow} {f : Failure}
    (h : settle stop a = .error f) : a = .error f ∧ IsFatal stop f := by
  have ha : a = .error f := by
    rcases a with g | w
    · cases g with
      | error e =>
        cases e with
        | parse d => cases h
        | manifestIO reason path detail =>
          cases stop with
          | false => cases h
          | true =>
            cases h
            rfl
        | _ =>
          cases h
          rfl
      | _ =>
        cases h
        rfl
    · cases h
  subst ha
  refine ⟨rfl, ?_, ?_⟩
  · rintro e rfl
    cases h
  · rintro rfl e ⟨reason, path, detail, rfl⟩ rfl
    cases h

section

variable (fs : FileSystem) (config : Config)

/-- The read error of a manifest names the manifest. -/
theorem eq_unreadable {p : Path} {e : Error} (he : IsReadError e)
    (h : (compileManifest fs config p).outcome = .error (.error e)) : e = unreadable p := by
  obtain ⟨reason, path, detail, rfl⟩ := he
  cases isFileFailure_of_compileManifest fs config h with
  | text htext =>
    rcases htext with ⟨e, he, -, -⟩ | ⟨b, hb⟩
    · cases he
    · cases hb
  | unreadable => rfl

/-- One outcome for every manifest, its own, in ascending order of the paths. -/
structure IsComplete (paths : List Path) (os : List (Path × Outcome)) : Prop where
  ascending : os.Pairwise fun q r => q.1.text < r.1.text
  mem_iff : ∀ p, (∃ o, (p, o) ∈ os) ↔ p ∈ paths
  outcome : ∀ q ∈ os, (compileManifest fs config q.1).outcome = q.2.mapError .error

/-- What a run over some paths ends in, after some moves, is accounted for by the manifests
    and the time. -/
structure Accounted (stop : Bool) (paths : List Path) (moves : List Move)
    (result : Except Failure (List (Path × Outcome))) : Prop where
  /-- In time, and without a failure that ends the run, every manifest has its outcome. -/
  complete : .timeOut ∉ moves → .waitFails ∉ moves →
    (∀ p ∈ paths, ∀ f, (compileManifest fs config p).outcome = .error f → ¬ IsFatal stop f) →
    ∃ os, result = .ok os ∧ IsComplete fs config paths os
  /-- In time, a run that stops for unreadable manifests ends with the error of one. -/
  unreadable : .timeOut ∉ moves → .waitFails ∉ moves → stop = true →
    (∀ p ∈ paths, EndsForeseen fs config p) → (∃ p ∈ paths, IsUnreadable fs config p) →
    ∃ p ∈ paths, IsUnreadable fs config p ∧ result = .error (.error (unreadable p))
  /-- Once the time is up, the error counts the manifests without an answer. -/
  timeOut : .timeOut ∈ moves → moves.count .take < (arrange paths).length ∧
    result = .error (.error (.timeLimit (.exact config.timeLimit.1)
      ((arrange paths).length - moves.count .take)))
  /-- A wait fails only if there is something to wait for, and the time limit is too long. -/
  waitFails : .waitFails ∈ moves →
    paths ≠ [] ∧ isTooLong config = true ∧ result = .error .waitTooLong
  /-- Any other failure is that of a manifest. -/
  failed : .timeOut ∉ moves → .waitFails ∉ moves → ∀ f, result = .error f →
    ∃ p ∈ paths, (compileManifest fs config p).outcome = .error f ∧ IsFatal stop f
  /-- There is never a part of the outcomes. -/
  whole : ∀ os, result = .ok os → IsComplete fs config paths os

variable {fs config}

theorem isComplete_of_settle {os : List (Path × Outcome)} (hpaths : os.map (·.1) = arrange paths)
    (hsettle : ∀ q ∈ os, settle stop (answers fs config q.1) = .ok q.2) :
    IsComplete fs config paths os where
  ascending := by
    have hpairwise : (os.map (·.1)).Pairwise fun p q => p.text < q.text := by
      rw [hpaths]
      exact pairwise_arrange paths
    rwa [List.pairwise_map] at hpairwise
  mem_iff p := by
    rw [← mem_arrange, ← hpaths, List.mem_map]
    constructor
    · rintro ⟨o, ho⟩
      exact ⟨(p, o), ho, rfl⟩
    · rintro ⟨⟨p, o⟩, ho, rfl⟩
      exact ⟨o, ho⟩
  outcome q hq := settle_eq_ok (hsettle q hq)

theorem Ends.accounted {moves : List Move} {result : Except Failure (List (Path × Outcome))}
    (h : Ends (answers fs config) stop (arrange paths) result) (hsmooth : Smooth moves) :
    Accounted fs config stop paths moves result := by
  obtain ⟨htime, hwait⟩ := smooth_iff.1 hsmooth
  cases h with
  | @whole os hpaths hsettle =>
    have hcomplete := isComplete_of_settle hpaths hsettle
    refine ⟨fun _ _ _ => ⟨os, rfl, hcomplete⟩, ?_, fun h => absurd h htime,
      fun h => absurd h hwait, nofun, ?_⟩
    · -- an unreadable manifest has no outcome in a run that stops for it
      rintro - - rfl - ⟨p, hp, e, ⟨reason, path, detail, rfl⟩, he⟩
      obtain ⟨o, ho⟩ := (hcomplete.mem_iff p).2 hp
      have hsettled := hsettle _ ho
      simp only [answers, he] at hsettled
      cases hsettled
    · rintro os' ⟨⟩
      exact hcomplete
  | @failed p f hp hfailed =>
    obtain ⟨houtcome, hfatal⟩ := settle_eq_error hfailed
    change (compileManifest fs config p).outcome = .error f at houtcome
    have hp' := mem_arrange.1 hp
    refine ⟨fun _ _ hnone => absurd hfatal (hnone p hp' f houtcome), ?_,
      fun h => absurd h htime, fun h => absurd h hwait, ?_, nofun⟩
    rotate_left
    · rintro - - f' ⟨⟩
      exact ⟨p, hp', houtcome, hfatal⟩
    rintro - - - hforeseen -
    rcases hforeseen p hp' with ⟨w, hw⟩ | ⟨e, he⟩ | ⟨e, hread, he⟩
    · rw [houtcome] at hw
      cases hw
    · rw [houtcome] at he
      cases he
      exact absurd rfl (hfatal.1 e)
    · refine ⟨p, hp', ⟨e, hread, he⟩, ?_⟩
      rw [← eq_unreadable fs config hread he, Except.error.inj (houtcome.symm.trans he)]

theorem Verdict.accounted {moves : List Move} {result : Except Failure (List (Path × Outcome))}
    (h : Verdict (answers fs config) config stop (arrange paths) moves result) :
    Accounted fs config stop paths moves result := by
  cases h with
  | smooth hsmooth hends => exact hends.accounted hsmooth
  | timedOut htime hwait hlt =>
    exact ⟨fun h => absurd htime h, fun h => absurd htime h, fun _ => ⟨hlt, rfl⟩,
      fun h => absurd h hwait, fun h => absurd htime h, nofun⟩
  | waitFailed hwait htime hne hlong =>
    have hne' : paths ≠ [] := mt (fun h => by rw [h]; rfl) hne
    exact ⟨fun _ h => absurd hwait h, fun _ h => absurd hwait h, fun h => absurd h htime,
      fun _ => ⟨hne', hlong, rfl⟩, fun _ h => absurd hwait h, nofun⟩

/-- **Every schedule is accounted for.**  The run that works on one manifest after the other is
    a schedule.  No schedule is endless, and one that is not over can go on without the time
    being up or a wait that fails.  What it ends in depends on the manifests alone, as long as
    neither happens. -/
theorem schedule_accounted (fs : FileSystem) (config : Config) (stop : Bool) (paths : List Path) :
    (∃ moves, Schedule (answers fs config) config stop (arrange paths) moves
      (.over (run fs config stop paths).outcome)) ∧
    (∀ moves s, Schedule (answers fs config) config stop (arrange paths) moves s →
      moves.length ≤ 2 * (arrange paths).length + 1) ∧
    (∀ moves batch pool,
      Schedule (answers fs config) config stop (arrange paths) moves (.working batch pool) →
      ∃ m s, m ≠ .timeOut ∧ m ≠ .waitFails ∧
        Step (answers fs config) config stop (.working batch pool) m s) ∧
    ∀ moves result,
      Schedule (answers fs config) config stop (arrange paths) moves (.over result) →
      Accounted fs config stop paths moves result := by
  refine ⟨?_, ?_, ?_, ?_⟩
  · obtain ⟨moves, hschedule, -⟩ := exists_schedule_run fs config stop paths
    exact ⟨moves, hschedule⟩
  · intro moves s h
    exact Nat.le_of_add_right_le h.length_add_left_le
  · intro moves batch pool h
    obtain ⟨m, s, ⟨htime, hwait⟩, hstep⟩ := h.exists_step
    exact ⟨m, s, htime, hwait, hstep⟩
  · intro moves result h
    exact Verdict.accounted h.known

/-- A directory with one manifest, in which a second is looked for. -/
def oneMissing : FileSystem where
  entries := FileSystem.located
    [(["d"], .directory), (["d", "a.yaml"], .file "command: ls\n".toUTF8)]
  workingDirectory := []

/-- Both manifests, the missing one twice. -/
def bothGiven : List Path := [.ofString "d/b.yaml", .ofString "d/a.yaml", .ofString "d/b.yaml"]

theorem arrange_bothGiven :
    arrange bothGiven = [.ofString "d/a.yaml", .ofString "d/b.yaml"] := by decide +kernel

theorem answer_present :
    ∃ w, answers oneMissing .usual (.ofString "d/a.yaml") = .ok w := by
  have hslug : (answers oneMissing .usual (.ofString "d/a.yaml")).map (·.slug.text) =
      .ok "a" := by decide +kernel
  cases h : answers oneMissing .usual (.ofString "d/a.yaml") with
  | ok w => exact ⟨w, rfl⟩
  | error f =>
    rw [h] at hslug
    cases hslug

theorem answer_missing : answers oneMissing .usual (.ofString "d/b.yaml") =
    .error (.error (unreadable (.ofString "d/b.yaml"))) := by decide +kernel

theorem isUnreadable_missing : IsUnreadable oneMissing .usual (.ofString "d/b.yaml") :=
  ⟨unreadable _, ⟨_, _, _, rfl⟩, answer_missing⟩

theorem endsForeseen_bothGiven : ∀ p ∈ bothGiven, EndsForeseen oneMissing .usual p := by
  intro p hp
  rw [← mem_arrange, arrange_bothGiven] at hp
  rcases List.mem_cons.1 hp with rfl | hp
  · exact .inl answer_present
  · rw [List.mem_singleton.1 hp]
    exact .inr (.inr isUnreadable_missing)

/-- Of two manifests the second is missing, and its answer comes first.  A run that goes on
    ends with both outcomes, one that stops ends with the error of the second, and if the
    time is up before the answer of the first, one manifest is pending. -/
theorem schedule_accounted_oneMissing :
    (∃ moves os, Schedule (answers oneMissing .usual) .usual false (arrange bothGiven) moves
        (.over (.ok os)) ∧ .timeOut ∉ moves ∧ .waitFails ∉ moves ∧
      IsComplete oneMissing .usual bothGiven os) ∧
    (∃ moves result, Schedule (answers oneMissing .usual) .usual true (arrange bothGiven) moves
        (.over result) ∧ .timeOut ∉ moves ∧ .waitFails ∉ moves ∧
      ∃ p ∈ bothGiven, IsUnreadable oneMissing .usual p ∧
        result = .error (.error (unreadable p))) ∧
    ∃ moves result, Schedule (answers oneMissing .usual) .usual false (arrange bothGiven) moves
        (.over result) ∧ .timeOut ∈ moves ∧
      result = .error (.error (.timeLimit (.exact Config.usual.timeLimit.1) 1)) := by
  obtain ⟨w, hw⟩ := answer_present
  have hfirst (stop : Bool) : Schedule (answers oneMissing .usual) .usual stop
      [.ofString "d/a.yaml", .ofString "d/b.yaml"] [.arrive [1]]
      (.working [1] (Pool.start [.ofString "d/a.yaml", .ofString "d/b.yaml"])) :=
    .move .start (.arrive (by decide) (by decide) (by decide))
  have htook := (hfirst false).move
    (.take rfl (accept_eq_ok.2 ⟨_, by rw [answer_missing]; rfl, rfl⟩))
  have hthen := htook.move (@Step.arrive _ _ _ [0] _ (by decide) (by decide) (by decide))
  have hdone := (hthen.move (.take rfl (accept_eq_ok.2 ⟨_, by rw [hw]; rfl, rfl⟩))).move
    (.finish rfl)
  have hstopped := (hfirst true).move
    (.fail rfl (accept_eq_error.2 (by rw [answer_missing]; rfl)))
  have htimeOut := htook.move (.timeOut (by decide))
  rw [← arrange_bothGiven] at hdone hstopped htimeOut
  refine ⟨?_, ?_, ?_⟩
  · have hfatal : ∀ p ∈ bothGiven, ∀ f, answers oneMissing .usual p = .error f →
        ¬ IsFatal false f := by
      rintro p hp f hf ⟨hparse, hread⟩
      rcases endsForeseen_bothGiven p hp with ⟨w, hw⟩ | ⟨e, he⟩ | ⟨e, hunreadable, he⟩
      · cases hf.symm.trans hw
      · exact hparse e (Except.error.inj (hf.symm.trans he))
      · exact hread rfl e hunreadable (Except.error.inj (hf.symm.trans he))
    obtain ⟨os, hos, hcomplete⟩ := ((schedule_accounted oneMissing .usual false _).2.2.2 _ _
      hdone).complete (by decide) (by decide) hfatal
    exact ⟨_, os, hos ▸ hdone, by decide, by decide, hcomplete⟩
  · refine ⟨_, _, hstopped, by decide, by decide, ?_⟩
    have hmem : Path.ofString "d/b.yaml" ∈ bothGiven := List.mem_cons_self
    have haccounted := (schedule_accounted oneMissing .usual true _).2.2.2 _ _ hstopped
    exact haccounted.unreadable (by decide) (by decide) rfl endsForeseen_bothGiven
      ⟨_, hmem, isUnreadable_missing⟩
  · obtain ⟨-, hresult⟩ :=
      ((schedule_accounted oneMissing .usual false _).2.2.2 _ _ htimeOut).timeOut (by decide)
    -- one answer of two has been taken up
    have hleft : ((arrange bothGiven).length : Int) -
        ([Move.arrive [1]] ++ [Move.take] ++ [Move.timeOut]).count Move.take = 1 := by
      rw [arrange_bothGiven]
      decide
    rw [hleft] at hresult
    exact ⟨_, _, htimeOut, by decide, hresult⟩

end

end WorkflowCatalog.Compiler
