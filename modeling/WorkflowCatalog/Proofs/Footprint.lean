/-
  WorkflowCatalog/Proofs/Footprint.lean
  =====================================
  **What emission touches.**  If no link stands where a text is staged, emission touches the
  places of its targets and those where their texts are staged, and nothing else, however it
  ends and whatever the artifacts are called (`touches_emit`).  Until all texts are staged it
  touches no target (`touches_emit_unstaged`).
-/
import WorkflowCatalog.Proofs.LastName
import WorkflowCatalog.Proofs.Rewriting

namespace WorkflowCatalog.Artifact

open FileSystem Session
open Text (CodeText)

/-- No link stands where a text is staged. -/
def StagesUnlinked (fs : FileSystem) (targets : List Path) : Prop :=
  ∀ t ∈ targets, ∀ l ∈ stagingPlace? fs t, ∀ e ∈ fs.entryAt? l, e.isLink = false

instance (fs : FileSystem) (targets : List Path) : Decidable (StagesUnlinked fs targets) :=
  inferInstanceAs (Decidable
    (∀ t ∈ targets, ∀ l ∈ stagingPlace? fs t, ∀ e ∈ fs.entryAt? l, e.isLink = false))

/-- The text of a target is staged at the location. -/
def IsStagingPlace (fs : FileSystem) (targets : List Path) (l : Location) : Prop :=
  ∃ t ∈ targets, l ∈ stagingPlace? fs t

/-- The location is the place of a target, or one where a text is staged. -/
def IsWrittenPlace (fs : FileSystem) (targets : List Path) (l : Location) : Prop :=
  ∃ t ∈ targets, Owns fs t l

/-- All texts get staged. -/
def AllStaged (config : Config) (c : Collection) (directory : Path) (w : World) : Prop :=
  ∃ w₁ w₂ staged, (prepare directory).run.run w = (.ok (), w₁) ∧
    (stageEach (artifacts config c directory)).run.run w₁ = (.ok (staged, none), w₂)

variable {D : Location → Prop} {P : FileSystem → Prop} {fs₁ fs : FileSystem} {w w' : World}
  {targets : List Path} {t s : Path} {text : CodeText} {a : Path × CodeText}
  {as front : List (Path × CodeText)} {l : Location}

/-! ### Single steps -/

theorem StagesUnlinked.noLinkAt (h : StagesUnlinked fs targets) (ht : t ∈ targets)
    (hs : stagingPath? t = some s) : NoLinkAt fs s.text :=
  fun l hl => h t ht l (mem_stagingPlace.2 ⟨s, hs, hl⟩)

theorem IsStagingPlace.isWrittenPlace (h : IsStagingPlace fs targets l) :
    IsWrittenPlace fs targets l := by
  obtain ⟨t, ht, hl⟩ := h
  exact ⟨t, ht, owns_stagingPlace hl⟩

theorem keeps_stage
    (hwrite : ∀ s, stagingPath? t = some s → ∀ bytes fs, P fs →
      P ((Change.write s.text bytes).run.run fs).2)
    (hunlink : ∀ s, stagingPath? t = some s → ∀ fs, P fs →
      P ((Change.unlinkIfPresent s.text).run.run fs).2) : Keeps P (stage t text) := by
  unfold stage
  rcases hs : stagingPath? t with _ | s
  · exact keeps_throw _
  · refine (keeps_writeText (hwrite s hs)).bind fun r _ => ?_
    have hrest : Keeps P (Session.change (Change.unlinkIfPresent s.text) >>= fun _ =>
        (Session.raise (notWritten t) : Session Path)) :=
      (keeps_change (hunlink s hs)).bind fun _ _ => keeps_raise _
    rcases r with f | _
    · cases f with
      | nulInPath => exact keeps_throw _
      | _ => exact hrest
    · exact keeps_pure s

theorem keeps_install {q : Path × Path}
    (hreplace : ∀ fs, P fs → P ((Change.replace q.1.text q.2.text).run.run fs).2) :
    Keeps P (install q) := by
  refine (keeps_attempt hreplace).bind fun r _ => ?_
  cases r with
  | ok u => exact keeps_pure ()
  | error f => exact keeps_raise _

/-! ### Staging all texts -/

/-- **Staging gets through some artifacts in front**, through all if it does not stop. -/
theorem stageEach_run (as : List (Path × CodeText)) (w : World) :
    ∃ front failure w', (stageEach as).run.run w = (.ok (stagedOf front, failure), w') ∧
      front <+: as ∧ (∀ a ∈ front, stagingPath? a.1 = some (staging a.1)) ∧
        (failure = none → front = as) := by
  induction as generalizing w with
  | nil => exact ⟨[], none, w, rfl, List.prefix_rfl, nofun, fun _ => rfl⟩
  | cons a as ih =>
    obtain ⟨t, text⟩ := a
    rw [run_stageEach_cons]
    rcases hfirst : (stage t text).run.run w with ⟨f | s, w₁⟩
    · exact ⟨[], some f, w₁, rfl, List.nil_prefix, nofun, nofun⟩
    · obtain ⟨front, failure, w', hrest, hfront, hpaths, hall⟩ := ih w₁
      have hs := (stage_run_ok hfirst).1
      have hstaging : staging t = s := by
        unfold staging
        rw [hs]
        rfl
      refine ⟨(t, text) :: front, failure, w', ?_, ?_, ?_, fun hnone => by rw [hall hnone]⟩
      · dsimp only
        rw [hrest, ← hstaging]
        rfl
      · exact List.cons_prefix_cons.2 ⟨rfl, hfront⟩
      · rw [List.forall_mem_cons]
        exact ⟨by rw [hs, hstaging], hpaths⟩

theorem keeps_stageEach (h : ∀ a ∈ as, Keeps P (stage a.1 a.2)) : Keeps P (stageEach as) := by
  induction as with
  | nil => exact keeps_pure _
  | cons a as ih =>
    obtain ⟨t, text⟩ := a
    rw [List.forall_mem_cons] at h
    intro w hw
    have hfirst := h.1 w hw
    rw [run_stageEach_cons]
    rcases hrun : (stage t text).run.run w with ⟨f | s, w₁⟩
    · rw [hrun] at hfirst
      exact hfirst
    · rw [hrun] at hfirst
      have hrest := ih h.2 w₁ hfirst
      dsimp only
      rcases hnext : (stageEach as).run.run w₁ with ⟨f | ⟨staged, failure⟩, w₂⟩ <;>
        rw [hnext] at hrest <;> exact hrest

/-! ### Writing all artifacts -/

section

theorem keeps_installOne (hunlinked : StagesUnlinked fs₁ targets) (ha : a.1 ∈ targets)
    (hs : stagingPath? a.1 = some (staging a.1)) :
    Keeps (Touches (IsWrittenPlace fs₁ targets) fs₁) (install (staging a.1, a.1)) := by
  refine keeps_install fun _ h => ?_
  refine touches_replace (hunlinked.noLinkAt ha hs) (fun l hl => ?_) h fun l hl => ?_
  · exact ⟨a.1, ha, owns_stagingPlace (mem_stagingPlace.2 ⟨_, hs, hl⟩)⟩
  · exact ⟨a.1, ha, owns_place hl⟩

variable (hunlinked : StagesUnlinked fs₁ targets) (has : ∀ a ∈ as, a.1 ∈ targets)

include hunlinked has

theorem keeps_staging (hD : ∀ l, IsStagingPlace fs₁ targets l → D l) :
    Keeps (Touches D fs₁) (stageEach as) := by
  refine keeps_stageEach fun a ha => ?_
  have ht := has a ha
  have hplace : ∀ s, stagingPath? a.1 = some s → ∀ l ∈ fs₁.place? s.text, D l :=
    fun s hs l hl => hD l ⟨a.1, ht, mem_stagingPlace.2 ⟨s, hs, hl⟩⟩
  exact keeps_stage
    (fun s hs bytes _ h => touches_write (hunlinked.noLinkAt ht hs) (hplace s hs) h bytes)
    (fun s hs _ h => touches_unlinkIfPresent (hunlinked.noLinkAt ht hs) (hplace s hs) h)

variable (hfront : front <+: as) (hpaths : ∀ a ∈ front, stagingPath? a.1 = some (staging a.1))

include hfront hpaths

theorem keeps_cleanUp (hD : ∀ l, IsStagingPlace fs₁ targets l → D l) :
    Keeps (Touches D fs₁) (cleanUp ((stagedOf front).map (·.1))) := by
  refine keeps_forM fun s hs => keeps_change fun _ h => ?_
  obtain ⟨a, ha, rfl⟩ := mem_stagedPaths.1 hs
  have ht := has a (hfront.subset ha)
  refine touches_unlinkIfPresent (hunlinked.noLinkAt ht (hpaths a ha)) (fun l hl => ?_) h
  exact hD l ⟨a.1, ht, mem_stagingPlace.2 ⟨_, hpaths a ha, hl⟩⟩

theorem keeps_installing :
    Keeps (Touches (IsWrittenPlace fs₁ targets) fs₁) ((stagedOf front).forM install) := by
  refine keeps_forM fun q hq => ?_
  unfold stagedOf at hq
  obtain ⟨a, ha, rfl⟩ := List.mem_map.1 hq
  exact keeps_installOne hunlinked (has a (hfront.subset ha)) (hpaths a ha)

omit hfront hpaths

theorem keeps_writeAll : Keeps (Touches (IsWrittenPlace fs₁ targets) fs₁) (writeAll as) := by
  have hstaging := fun l (hl : IsStagingPlace fs₁ targets l) => hl.isWrittenPlace
  rw [writeAll_eq]
  refine (keeps_staging hunlinked has hstaging).bind ?_
  rintro ⟨staged, failure⟩ ⟨w, w', hrun⟩
  obtain ⟨front, failure', w'', hrun', hfront, hpaths, -⟩ := stageEach_run as w
  rw [hrun] at hrun'
  cases hrun'
  refine Keeps.finallyDo ?_ (keeps_cleanUp hunlinked has hfront hpaths hstaging)
  cases failure with
  | some f => exact keeps_throw f
  | none => exact keeps_installing hunlinked has hfront hpaths

end

/-! ### Emission -/

section

variable {config : Config} {c : Collection} {directory : Path}

theorem fs_of_prepare (directory : Path) (w : World) :
    ((prepare directory).run.run w).2.fs = made directory w.fs := by
  by_cases hmade : IsMade directory w.fs
  · obtain ⟨journal', hrun⟩ := endsIn_prepare hmade w.journal
    change (prepare directory).run.run w = _ at hrun
    rw [hrun]
  · obtain ⟨f, hend⟩ := endsIn_prepare_error hmade
    obtain ⟨journal', hrun⟩ := hend w.journal
    change (prepare directory).run.run w = _ at hrun
    rw [hrun]

/-- What holds when the output directory has been made, and when the artifacts have been written
    after that, holds in the end. -/
theorem emit_lift (hmade : P (made directory w.fs))
    (hwrite : ∀ w₁, (prepare directory).run.run w = (.ok (), w₁) → P w₁.fs →
      P ((writeAll (artifacts config c directory)).run.run w₁).2.fs) :
    P ((emit config c directory).run.run w).2.fs := by
  rw [emit_eq, run_bind]
  have hprepare := fs_of_prepare directory w
  rcases hrun : (prepare directory).run.run w with ⟨f | _, w₁⟩ <;> rw [hrun] at hprepare <;>
    rw [← hprepare] at hmade
  · exact hmade
  · have hwritten := hwrite w₁ hrun hmade
    dsimp only
    rw [run_bind]
    rcases hrest : (writeAll (artifacts config c directory)).run.run w₁ with ⟨f | _, w₂⟩ <;>
      rw [hrest] at hwritten <;> exact hwritten

/-- **Emission touches nothing but its own places.** -/
theorem touches_emit
    (hunlinked : StagesUnlinked (made directory w.fs)
      (Places.inDirectory config directory).paths) :
    Touches (IsWrittenPlace (made directory w.fs) (Places.inDirectory config directory).paths)
      (made directory w.fs) ((emit config c directory).run.run w).2.fs :=
  emit_lift (.refl _ _) fun w₁ _ =>
    keeps_writeAll hunlinked (mem_of_map_eq (map_fst_artifacts config c directory)) w₁

/-- **As long as not all texts have been staged, no target is touched.** -/
theorem touches_emit_unstaged
    (hunlinked : StagesUnlinked (made directory w.fs)
      (Places.inDirectory config directory).paths)
    (h : ¬ AllStaged config c directory w) :
    Touches (IsStagingPlace (made directory w.fs) (Places.inDirectory config directory).paths)
      (made directory w.fs) ((emit config c directory).run.run w).2.fs := by
  have has := mem_of_map_eq (map_fst_artifacts config c directory)
  refine emit_lift (.refl _ _) fun w₁ hprepare hw₁ => ?_
  have hstaged := keeps_staging hunlinked has (fun _ h => h) w₁ hw₁
  obtain ⟨front, failure, w₂, hrun, hfront, hpaths, -⟩ :=
    stageEach_run (artifacts config c directory) w₁
  rw [hrun] at hstaged
  rw [writeAll_eq, run_bind, hrun]
  cases failure with
  | none => exact absurd ⟨w₁, w₂, _, hprepare, hrun⟩ h
  | some f =>
    exact (keeps_throw f).finallyDo
      (keeps_cleanUp hunlinked has hfront hpaths fun _ h => h) w₂ hstaged

end

end WorkflowCatalog.Artifact
