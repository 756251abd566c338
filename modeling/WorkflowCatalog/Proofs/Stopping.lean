/-
  WorkflowCatalog/Proofs/Stopping.lean
  ====================================
  **Where staging stops, and with which failure.**  A text cannot be staged if the path where
  it is staged meets an obstacle, or if it has no UTF-8 form (`stagingFailure?`).  Of all
  obstacles only a missing directory is reported by an error of emission: any other one is
  met again when the leftovers of the attempt are removed, and the fault of this removal
  takes the place of the error.

  If nothing that is written stands in the way of a staged text (`Undisturbed`), what is
  staged first changes nothing for the rest, so the file system before decides where
  emission stops (`endsIn_writeAll_steady`).  Main statement: emission reports its failures
  exactly if staging does not stop, or stops at a missing directory (`reports_iff`).
-/
import WorkflowCatalog.Proofs.Delivery

namespace WorkflowCatalog.Artifact

open FileSystem Session
open Text (CodeText)

/-! ### Where staging stops -/

/-- The failure with which staging a text ends, if it fails. -/
def stagingFailure? (fs : FileSystem) (a : Path × CodeText) : Option Failure :=
  match stagingPath? a.1 with
  | none => some .unnamedPath
  | some s =>
    match fs.obstacle? s.text with
    | some .notFound => some (.error (notWritten a.1))
    | some f => some (.fault f)
    | none => if a.2.utf8?.isSome then none else some .notEncodable

/-- The failure, or none, with the reason for it. -/
inductive IsStagingEnd (fs : FileSystem) (a : Path × CodeText) : Option Failure → Prop where
  | unnamed (hs : stagingPath? a.1 = none) : IsStagingEnd fs a (some .unnamedPath)
  | missing {s : Path} (hs : stagingPath? a.1 = some s)
    (h : fs.obstacle? s.text = some .notFound) : IsStagingEnd fs a (some (.error (notWritten a.1)))
  | blocked {s : Path} {g : Fault} (hs : stagingPath? a.1 = some s)
    (h : fs.obstacle? s.text = some g) (hg : g ≠ .notFound) : IsStagingEnd fs a (some (.fault g))
  | notEncodable {s : Path} {l : Location} (hs : stagingPath? a.1 = some s)
    (hl : fs.place? s.text = some l) (htext : a.2.utf8? = none) :
    IsStagingEnd fs a (some .notEncodable)
  | staged {s : Path} {l : Location} {bytes : ByteArray} (hs : stagingPath? a.1 = some s)
    (hl : fs.place? s.text = some l) (htext : a.2.utf8? = some bytes) : IsStagingEnd fs a none

/-- The artifact at which staging stops, and the failure. -/
def stop? (fs : FileSystem) (as : List (Path × CodeText)) :
    Option ((Path × CodeText) × Failure) :=
  as.findSome? fun a => (stagingFailure? fs a).map fun f => (a, f)

/-- The artifacts in front of it, which are staged. -/
def front (fs : FileSystem) (as : List (Path × CodeText)) : List (Path × CodeText) :=
  as.takeWhile fun a => (stagingFailure? fs a).isNone

/-- Where staging leaves an empty file, if it stops at a text without a UTF-8 form. -/
def spoiled? (fs : FileSystem) (as : List (Path × CodeText)) : Option Location :=
  match stop? fs as with
  | some (a, .notEncodable) => stagingPlace? fs a.1
  | _ => none

/-- No link stands where a text is staged, and nothing that is written stands on the way there. -/
structure Undisturbed (fs : FileSystem) (targets : List Path) : Prop where
  unlinked : StagesUnlinked fs targets
  ways : ∀ t ∈ targets, ∀ s ∈ stagingPath? t, ∀ l ∈ fs.lookups false s.text,
    ∀ p ∈ targets.flatMap writtenPaths, l ∈ fs.place? p → l ∈ fs.place? s.text

instance (fs : FileSystem) (targets : List Path) : Decidable (Undisturbed fs targets) :=
  decidable_of_iff
    (StagesUnlinked fs targets ∧
      ∀ t ∈ targets, ∀ s ∈ stagingPath? t, ∀ l ∈ fs.lookups false s.text,
        ∀ p ∈ targets.flatMap writtenPaths, l ∈ fs.place? p → l ∈ fs.place? s.text)
    ⟨fun h => ⟨h.1, h.2⟩, fun h => ⟨h.unlinked, h.ways⟩⟩

variable {fs₁ fs fs' : FileSystem} {w w' : World} {targets : List Path} {t s : Path}
  {text : CodeText} {a b : Path × CodeText} {as : List (Path × CodeText)} {f : Failure}
  {ss : List Path} {l : Location}

theorem isStagingEnd (fs : FileSystem) (a : Path × CodeText) :
    IsStagingEnd fs a (stagingFailure? fs a) := by
  unfold stagingFailure?
  rcases hs : stagingPath? a.1 with _ | s
  · exact .unnamed hs
  dsimp only
  rcases hobstacle : fs.obstacle? s.text with _ | g
  · obtain ⟨l, hl⟩ := Option.ne_none_iff_exists'.1 (obstacle_eq_none_iff.1 hobstacle)
    rcases htext : a.2.utf8? with _ | bytes
    · exact .notEncodable hs hl htext
    · exact .staged hs hl htext
  · cases g with
    | notFound => exact .missing hs hobstacle
    | _ => exact .blocked hs hobstacle nofun

theorem IsStagingEnd.eq {r : Option Failure} (h : IsStagingEnd fs a r) :
    stagingFailure? fs a = r := by
  unfold stagingFailure?
  cases h with
  | unnamed hs => rw [hs]
  | missing hs h =>
    rw [hs]
    dsimp only
    rw [h]
  | @blocked s g hs h hg =>
    rw [hs]
    dsimp only
    rw [h]
    cases g with
    | notFound => exact absurd rfl hg
    | _ => rfl
  | @notEncodable s l hs hl htext =>
    have hfree : fs.obstacle? s.text = none := obstacle_eq_none_iff.2 (by rw [hl]; nofun)
    rw [hs]
    dsimp only
    rw [hfree, htext]
    rfl
  | @staged s l bytes hs hl htext =>
    have hfree : fs.obstacle? s.text = none := obstacle_eq_none_iff.2 (by rw [hl]; nofun)
    rw [hs]
    dsimp only
    rw [hfree, htext]
    rfl

theorem hasStaging_of_not_failure (h : stagingFailure? fs a = none) :
    HasStaging fs a ∧ ∃ bytes, a.2.utf8? = some bytes := by
  have hends := isStagingEnd fs a
  rw [h] at hends
  cases hends with
  | staged hs hl htext =>
    exact ⟨(hasStaging_of_mem (mem_stagingPlace.2 ⟨_, hs, hl⟩)).1, _, htext⟩

theorem utf8_of_notEncodable (h : stagingFailure? fs a = some .notEncodable) :
    a.2.utf8? = none := by
  have hends := isStagingEnd fs a
  rw [h] at hends
  cases hends with
  | notEncodable hs hl htext => exact htext

/-- Only a missing directory makes an error. -/
theorem failure_of_error {e : Error} (h : stagingFailure? fs a = some (.error e)) :
    e = notWritten a.1 := by
  have hends := isStagingEnd fs a
  rw [h] at hends
  cases hends with
  | missing hs h => rfl

theorem stop_cons_of_staged (h : stagingFailure? fs a = none) :
    stop? fs (a :: as) = stop? fs as := by
  unfold stop?
  rw [List.findSome?_cons, h]
  rfl

theorem front_cons_of_staged (h : stagingFailure? fs a = none) :
    front fs (a :: as) = a :: front fs as :=
  List.takeWhile_cons_of_pos (by rw [h]; rfl)

theorem stop_cons_of_failure (h : stagingFailure? fs a = some f) :
    stop? fs (a :: as) = some (a, f) := by
  unfold stop?
  rw [List.findSome?_cons, h]
  rfl

theorem front_cons_of_failure (h : stagingFailure? fs a = some f) : front fs (a :: as) = [] :=
  List.takeWhile_cons_of_neg (by rw [h]; exact Bool.noConfusion)

theorem mem_spoiled : l ∈ spoiled? fs as ↔
    ∃ a, stop? fs as = some (a, .notEncodable) ∧ l ∈ stagingPlace? fs a.1 := by
  unfold spoiled?
  rcases stop? fs as with _ | ⟨a, f⟩
  · simp
  · cases f <;> simp

theorem mem_of_stop (h : stop? fs as = some (a, f)) : a ∈ as ∧ stagingFailure? fs a = some f := by
  obtain ⟨b, hb, hstop⟩ := List.exists_of_findSome?_eq_some h
  obtain ⟨g, hg, heq⟩ := Option.map_eq_some_iff.1 hstop
  cases heq
  exact ⟨hb, hg⟩

theorem front_of_not_stop (h : stop? fs as = none) : front fs as = as := by
  refine List.takeWhile_eq_self_iff.2 fun a ha => ?_
  have hnone := List.findSome?_eq_none_iff.1 h a ha
  rw [Option.map_eq_none_iff] at hnone
  rw [hnone]
  rfl

theorem mem_front (ha : a ∈ front fs as) : a ∈ as ∧ stagingFailure? fs a = none := by
  have hnone := List.mem_takeWhile_imp ha
  exact ⟨List.takeWhile_subset _ ha, Option.isNone_iff_eq_none.1 hnone⟩

/-! ### Staging one text -/

theorem endsIn_stage_obstacle {f : Fault} (hs : stagingPath? t = some s)
    (h : fs.obstacle? s.text = some f) :
    EndsIn (stage t text) fs (.error (if f = .notFound then .error (notWritten t) else .fault f))
      fs := by
  have hwrite : EndsIn (writeText s.text text) fs (.ok (.error f)) fs :=
    endsIn_writeText_fault (Change.write_of_obstacle _ h)
  have hunlink := Change.unlinkIfPresent_of_obstacle h
  unfold stage
  rw [hs]
  refine hwrite.bind_ok ?_
  cases f with
  | nulInPath => exact endsIn_throw _
  | notFound => exact (endsIn_change hunlink).bind_ok (endsIn_raise _)
  | _ => exact (endsIn_change_error hunlink).bind_error

/-- **A text that cannot be staged** leaves an empty file at its staging place at most. -/
theorem endsIn_stage_failure (hlink : ∀ s ∈ stagingPath? a.1, NoLinkAt fs s.text)
    (h : stagingFailure? fs a = some f) :
    ∃ fs', EndsIn (stage a.1 a.2) fs (.error f) fs' ∧ ((f ≠ .notEncodable ∧ fs' = fs) ∨
      (f = .notEncodable ∧ ∃ l ∈ stagingPlace? fs a.1, Puts fs fs' l (some (.file .empty)))) := by
  have hends := isStagingEnd fs a
  rw [h] at hends
  cases hends with
  | unnamed hs =>
    refine ⟨fs, ?_, .inl ⟨nofun, rfl⟩⟩
    unfold stage
    rw [hs]
    exact endsIn_throw .unnamedPath
  | missing hs hobstacle =>
    exact ⟨fs, endsIn_stage_obstacle hs hobstacle, .inl ⟨nofun, rfl⟩⟩
  | blocked hs hobstacle hg =>
    have hend : EndsIn (stage a.1 a.2) fs _ fs := endsIn_stage_obstacle hs hobstacle
    rw [if_neg hg] at hend
    exact ⟨fs, hend, .inl ⟨nofun, rfl⟩⟩
  | notEncodable hs hl htext =>
    obtain ⟨fs', hrun, hputs⟩ := Change.write_of_unlinked_place .empty hl (hlink _ hs _ hl)
    refine ⟨fs', ?_, .inr ⟨rfl, _, mem_stagingPlace.2 ⟨_, hs, hl⟩, hputs⟩⟩
    unfold stage
    rw [hs]
    exact (endsIn_writeText_notEncodable htext hrun).bind_error

theorem endsIn_stage_success (hlink : ∀ s ∈ stagingPath? a.1, NoLinkAt fs s.text)
    (h : stagingFailure? fs a = none) :
    ∃ bytes fs', EndsIn (stage a.1 a.2) fs (.ok (staging a.1)) fs' ∧
      Puts fs fs' (stagedAt fs a) (some (.file bytes)) := by
  obtain ⟨hstaging, bytes, hbytes⟩ := hasStaging_of_not_failure h
  obtain ⟨fs', hrun, hputs⟩ := Change.write_of_unlinked_place bytes hstaging.place
    (hlink _ hstaging.path _ hstaging.place)
  refine ⟨bytes, fs', ?_, hputs⟩
  unfold stage
  rw [hstaging.path]
  exact (endsIn_writeText hbytes hrun).bind_ok (endsIn_pure _)

/-! ### Staging all texts -/

section

variable (hund : Undisturbed fs₁ targets) (h : Touches (IsWrittenPlace fs₁ targets) fs₁ fs)
  (has : ∀ a ∈ as, a.1 ∈ targets)

include hund h

/-- The way to a staged text is as it was, whatever has been written. -/
theorem same_way (ht : t ∈ targets) (hs : stagingPath? t = some s) :
    fs.obstacle? s.text = fs₁.obstacle? s.text ∧ fs.place? s.text = fs₁.place? s.text := by
  have hfree : ∀ l ∈ fs₁.lookups false s.text, l ∉ fs₁.place? s.text →
      fs.entryAt? l = fs₁.entryAt? l := by
    intro l hl hother
    apply h.elsewhere
    rintro ⟨u, hu, p, hp, hplace⟩
    exact hother (hund.ways t ht s hs l hl p (List.mem_flatMap.2 ⟨u, hu, hp⟩) hplace)
  rcases hplace : fs₁.place? s.text with _ | l
  · have htrail := trail_congr h.workingDirectory fun l hl =>
      hfree l hl (by rw [hplace]; exact nofun)
    have hresolve : fs.resolve false s.text = fs₁.resolve false s.text := by
      rw [← trail_snd, htrail, trail_snd]
    unfold obstacle? place? at *
    rw [hresolve]
    exact ⟨rfl, hplace⟩
  · have hsame : fs.place? s.text = some l := by
      refine h.place_of_same hplace fun x hx => hfree x (List.dropLast_subset _ hx) ?_
      -- a file is no step of a way
      rw [hplace]
      rintro ⟨⟩
      rcases isStep_of_place hplace l hx with hdir | ⟨target, hlink⟩
      · exact (isPlace_of_place hplace).noDirectory hdir
      · exact absurd (hund.unlinked.noLinkAt ht hs l hplace _ hlink) Bool.noConfusion
    refine ⟨?_, hsame⟩
    rw [obstacle_eq_none_iff.2 (by rw [hsame]; nofun),
      obstacle_eq_none_iff.2 (by rw [hplace]; nofun)]

theorem stagingFailure_steady (ha : a.1 ∈ targets) :
    stagingFailure? fs a = stagingFailure? fs₁ a := by
  unfold stagingFailure?
  rcases hs : stagingPath? a.1 with _ | s
  · rfl
  · dsimp only
    rw [(same_way hund h ha hs).1]

theorem stagingPlace_steady (ht : t ∈ targets) : stagingPlace? fs t = stagingPlace? fs₁ t :=
  Option.bind_congr fun _ hs => (same_way hund h ht hs).2

theorem stagedAt_steady (ha : a.1 ∈ targets) (hstaging : HasStaging fs₁ a) :
    HasStaging fs a ∧ stagedAt fs a = stagedAt fs₁ a := by
  have hplace := (same_way hund h ha hstaging.path).2
  have hat : stagedAt fs a = stagedAt fs₁ a := by
    unfold stagedAt spot
    rw [hplace]
  refine ⟨⟨hstaging.path, ?_⟩, hat⟩
  rw [hplace, hat, hstaging.place]

include has

/-- **Staging stops where the file system before tells**, with the artifacts in front of there
    staged and nothing else changed but for an empty file. -/
theorem endsIn_stageEach_steady :
    ∃ fs', EndsIn (stageEach as) fs
        (.ok (stagedOf (front fs₁ as), (stop? fs₁ as).map (·.2))) fs' ∧
      ∀ l, (∀ a ∈ front fs₁ as, l ≠ stagedAt fs₁ a) →
        fs'.entryAt? l = if l ∈ spoiled? fs₁ as then some (.file .empty) else fs.entryAt? l := by
  induction as generalizing fs with
  | nil => exact ⟨fs, endsIn_pure _, fun l _ => (if_neg nofun).symm⟩
  | cons a rest ih =>
    rw [List.forall_mem_cons] at has
    have hsame := stagingFailure_steady hund h has.1
    have hlink : ∀ s ∈ stagingPath? a.1, NoLinkAt fs s.text :=
      fun s hs => (hund.unlinked.noLinkAt has.1 hs).of_rewrites h.toRewrites
    rcases hfailure : stagingFailure? fs₁ a with _ | f <;> rw [hfailure] at hsame
    · obtain ⟨bytes, fs₂, hfirst, hputs⟩ := endsIn_stage_success hlink hsame
      obtain ⟨hstaging, -⟩ := hasStaging_of_not_failure hfailure
      rw [(stagedAt_steady hund h has.1 hstaging).2] at hputs
      have h₂ := h.puts hputs ⟨a.1, has.1, owns_stagingPlace hstaging.mem_stagingPlace⟩
        (.written bytes (isPlace_of_place hstaging.place).noDirectory)
      obtain ⟨fs', hrest, hframe⟩ := ih h₂ has.2
      unfold spoiled?
      rw [front_cons_of_staged hfailure, stop_cons_of_staged hfailure]
      refine ⟨fs', endsIn_stageEach_cons hfirst hrest, fun l hl => ?_⟩
      rw [List.forall_mem_cons] at hl
      rw [← hputs.elsewhere l hl.1]
      exact hframe l hl.2
    · obtain ⟨fs', hfirst, hchange⟩ := endsIn_stage_failure hlink hsame
      have hstop : stop? fs₁ (a :: rest) = some (a, f) := stop_cons_of_failure hfailure
      rw [front_cons_of_failure hfailure, hstop]
      refine ⟨fs', endsIn_stageEach_stop hfirst, fun l _ => ?_⟩
      rcases hchange with ⟨hne, rfl⟩ | ⟨rfl, l', hl', hputs⟩
      · rw [if_neg]
        intro hspoiled
        obtain ⟨b, hb, -⟩ := mem_spoiled.1 hspoiled
        rw [hstop] at hb
        cases hb
        exact hne rfl
      · rw [stagingPlace_steady hund h has.1] at hl'
        by_cases hl : l = l'
        · rw [hl, hputs.there, if_pos (mem_spoiled.2 ⟨a, hstop, hl'⟩)]
        · rw [hputs.elsewhere l hl, if_neg]
          intro hspoiled
          obtain ⟨b, hb, hplace⟩ := mem_spoiled.1 hspoiled
          rw [hstop] at hb
          cases hb
          exact hl (Option.mem_unique hplace hl')

omit has

/-- **Cleaning up does not fail.** -/
theorem endsIn_cleanUp_steady {ss : List Path}
    (hss : ∀ s ∈ ss, ∃ t ∈ targets, stagingPath? t = some s ∧ fs₁.place? s.text ≠ none) :
    ∃ fs', EndsIn (cleanUp ss) fs (.ok ()) fs' := by
  induction ss generalizing fs with
  | nil => exact ⟨fs, endsIn_pure ()⟩
  | cons s rest ih =>
    rw [List.forall_mem_cons] at hss
    obtain ⟨t, ht, hs, hplace⟩ := hss.1
    have hl := place_spot hplace
    have hsame := (same_way hund h ht hs).2
    rw [hl] at hsame
    have h₂ := h.puts (puts_erase fs (isPlace_of_place hl).ne_root)
      ⟨t, ht, owns_stagingPlace (mem_stagingPlace.2 ⟨s, hs, hl⟩)⟩
      ((hund.unlinked.noLinkAt ht hs).becomes_none hl)
    obtain ⟨fs', hrest⟩ := ih h₂ hss.2
    exact ⟨fs', (endsIn_change (Change.unlinkIfPresent_of_place hsame)).bind_ok hrest⟩

end

/-! ### Installing -/

theorem endsIn_install_any (fs : FileSystem) (q : Path × Path) :
    (∃ fs', EndsIn (install q) fs (.ok ()) fs') ∨
      ∃ fs', EndsIn (install q) fs (.error (.error (notWritten q.2))) fs' := by
  rcases hrun : (Change.replace q.1.text q.2.text).run.run fs with ⟨f | _, fs'⟩
  · exact .inr ⟨fs', (endsIn_attempt hrun).bind_ok (endsIn_raise _)⟩
  · exact .inl ⟨fs', (endsIn_attempt hrun).bind_ok (endsIn_pure ())⟩

/-- **Installing fails with an error that names a target**, if it fails. -/
theorem endsIn_installing (fs : FileSystem) (qs : List (Path × Path)) :
    ∃ r fs', EndsIn (qs.forM install) fs r fs' ∧
      ∀ f, r = .error f → ∃ q ∈ qs, f = .error (notWritten q.2) := by
  induction qs generalizing fs with
  | nil => exact ⟨.ok (), fs, endsIn_pure (), nofun⟩
  | cons q rest ih =>
    rcases endsIn_install_any fs q with ⟨fs', hfirst⟩ | ⟨fs', hfirst⟩
    · obtain ⟨r, fs'', hrest, hfails⟩ := ih fs'
      refine ⟨r, fs'', hfirst.bind_ok hrest, fun f hf => ?_⟩
      obtain ⟨q', hq', heq⟩ := hfails f hf
      exact ⟨q', List.mem_cons_of_mem _ hq', heq⟩
    · refine ⟨_, fs', hfirst.bind_error, fun f hf => ?_⟩
      cases hf
      exact ⟨q, List.mem_cons_self, rfl⟩

/-! ### Writing all artifacts -/

/-- How writing all artifacts ends, with what result and what it leaves beside the targets. -/
structure Settles (fs fs' : FileSystem) (as : List (Path × CodeText)) (r : Except Failure Unit) :
    Prop where
  stopped : ∀ a f, stop? fs as = some (a, f) → r = .error f
  unstopped : stop? fs as = none → ∀ f, r = .error f → ∃ a ∈ as, f = .error (notWritten a.1)
  /-- Nothing that has been staged is left. -/
  cleared : ∀ a ∈ front fs as, fs'.entryAt? (stagedAt fs a) = none
  /-- Where staging stops, an empty file is the only other trace. -/
  kept : stop? fs as ≠ none → ∀ l, (∀ a ∈ front fs as, l ≠ stagedAt fs a) →
    fs'.entryAt? l = if l ∈ spoiled? fs as then some (.file .empty) else fs.entryAt? l

section

variable (hund : Undisturbed fs₁ targets) (has : ∀ a ∈ as, a.1 ∈ targets)

include hund has

/-- Between staging and cleaning up the failure of staging is passed on, or the targets are
    installed. -/
theorem endsIn_between (h : Touches (IsWrittenPlace fs₁ targets) fs₁ fs) :
    ∃ r fs', EndsIn (match (stop? fs₁ as).map (·.2) with
        | some f => throw f
        | none => (stagedOf (front fs₁ as)).forM install : Session Unit) fs r fs' ∧
      Touches (IsWrittenPlace fs₁ targets) fs₁ fs' ∧
      (∀ a f, stop? fs₁ as = some (a, f) → r = .error f ∧ fs' = fs) ∧
      (stop? fs₁ as = none → ∀ f, r = .error f → ∃ a ∈ as, f = .error (notWritten a.1)) := by
  rcases hstop : stop? fs₁ as with _ | ⟨a, f⟩
  · obtain ⟨r, fs', hinstall, hfails⟩ := endsIn_installing fs (stagedOf (front fs₁ as))
    have htouches := (keeps_installing hund.unlinked (fun a ha => has a (mem_front ha).1)
      List.prefix_rfl fun a ha =>
        (hasStaging_of_not_failure (mem_front ha).2).1.path).of_endsIn h hinstall
    refine ⟨r, fs', hinstall, htouches, ?_, fun _ f hf => ?_⟩
    · rintro a f ⟨⟩
    · obtain ⟨q, hq, heq⟩ := hfails f hf
      obtain ⟨a, ha, rfl⟩ := List.mem_map.1 hq
      exact ⟨a, (mem_front ha).1, heq⟩
  · refine ⟨.error f, fs, endsIn_throw f, h, ?_, ?_⟩
    · rintro a f ⟨⟩
      exact ⟨rfl, rfl⟩
    · rintro ⟨⟩

/-- **Where writing all artifacts ends** can be told from the file system before. -/
theorem endsIn_writeAll_steady :
    ∃ r fs', EndsIn (writeAll as) fs₁ r fs' ∧ Settles fs₁ fs' as r := by
  have hfront : ∀ a ∈ front fs₁ as, a.1 ∈ targets := fun a ha => has a (mem_front ha).1
  have hstaging : ∀ a ∈ front fs₁ as, HasStaging fs₁ a :=
    fun a ha => (hasStaging_of_not_failure (mem_front ha).2).1
  have hplaces : ∀ s ∈ (stagedOf (front fs₁ as)).map (·.1),
      ∃ t ∈ targets, stagingPath? t = some s ∧ fs₁.place? s.text ≠ none := by
    intro s hs
    obtain ⟨a, ha, rfl⟩ := mem_stagedPaths.1 hs
    refine ⟨a.1, hfront a ha, (hstaging a ha).path, ?_⟩
    rw [(hstaging a ha).place]
    nofun
  have h : Touches (IsWrittenPlace fs₁ targets) fs₁ fs₁ := .refl _ _
  obtain ⟨fs₂, hstage, hframe⟩ := endsIn_stageEach_steady hund h has
  have h₂ := (keeps_staging hund.unlinked has fun l hl => hl.isWrittenPlace).of_endsIn h hstage
  obtain ⟨r, fs₃, hbody, h₃, hstopped, hunstopped⟩ := endsIn_between hund has h₂
  obtain ⟨fs₄, hclean⟩ := endsIn_cleanUp_steady hund h₃ hplaces
  obtain ⟨journal, hrun⟩ := hclean []
  obtain ⟨hcleared, hleft⟩ :=
    cleared_of_staged (w := ⟨fs₃, []⟩) hund.unlinked hfront hstaging h₃ hrun
  refine ⟨r, fs₄, ?_, fun a f hstop => (hstopped a f hstop).1, hunstopped,
    fun a ha => (hcleared a ha).2, fun hstop l hl => ?_⟩
  · rw [writeAll_eq]
    exact hstage.bind_ok (hbody.finallyDo hclean)
  · obtain ⟨⟨a, f⟩, hstop⟩ := Option.ne_none_iff_exists'.1 hstop
    rcases hleft l with hkept | ⟨⟨b, hb, heq⟩, -⟩
    · rw [hkept, (hstopped a f hstop).2]
      exact hframe l hl
    · exact absurd heq (hl b hb)

end

/-! ### What emission reports -/

/-- Whatever goes wrong is told by an error of writing artifacts. -/
def Reports (config : Config) (c : Collection) (directory : Path) (w : World) : Prop :=
  ∀ f, ((emit config c directory).run.run w).1 = .error f →
    ∃ reason path detail, f = .error (.artifactWrite reason path detail)

variable {fs fs' : FileSystem} {w : World} {config : Config} {c : Collection} {directory : Path}
  {a : Path × CodeText} {f : Failure}

theorem endsIn_prepare_unmade (hnul : ¬ directory.text.toList.contains '\x00' = true)
    (h : ¬ IsMade directory fs) :
    EndsIn (prepare directory) fs (.error (.error (noOutputDirectory directory)))
      (made directory fs) := by
  have hrun : (Change.makeDirectories directory).run.run fs =
      (((Change.makeDirectories directory).run.run fs).1, made directory fs) := rfl
  have hne : ((Change.makeDirectories directory).run.run fs).1 ≠ .error .nulInPath :=
    Change.makePath_ne_nul hnul _
  have hattempt := endsIn_attempt hrun
  unfold IsMade at h
  rcases hresult : ((Change.makeDirectories directory).run.run fs).1 with f | _
  · rw [hresult] at hattempt hne
    refine hattempt.bind_ok ?_
    cases f with
    | nulInPath => exact absurd rfl hne
    | _ => exact endsIn_raise _
  · exact absurd hresult h

theorem reports_of_endsIn {r : Except Failure Places}
    (h : EndsIn (emit config c directory) w.fs r fs') :
    Reports config c directory w ↔ ∀ f, r = .error f →
      ∃ reason path detail, f = .error (.artifactWrite reason path detail) := by
  obtain ⟨journal', hrun⟩ := h w.journal
  unfold Reports
  change (emit config c directory).run.run w = _ at hrun
  rw [hrun]

section

variable
  (hund : Undisturbed (made directory w.fs) (Places.inDirectory config directory).paths)

include hund

/-- Where staging stops for another reason than a missing directory, this is not reported. -/
theorem eq_notWritten_of_reports (h : Reports config c directory w)
    (hmade : IsMade directory w.fs)
    (hstop : stop? (made directory w.fs) (artifacts config c directory) = some (a, f)) :
    f = .error (notWritten a.1) := by
  obtain ⟨r, fs', hend, hsettles⟩ := endsIn_writeAll_steady hund
    (mem_of_map_eq (map_fst_artifacts config c directory))
  rw [hsettles.stopped a f hstop] at hend
  obtain ⟨reason, path, detail, rfl⟩ :=
    (reports_of_endsIn (endsIn_emit_of_writeAll hmade hend)).1 h f rfl
  rw [failure_of_error (mem_of_stop hstop).2]

/-- **Emission reports its failures** exactly if staging does not stop, or stops for want of a
    directory.  Nothing that is written may stand on the way to a staged text. -/
theorem reports_iff (hnul : ¬ directory.text.toList.contains '\x00' = true) :
    Reports config c directory w ↔ (IsMade directory w.fs → ∀ a f,
      stop? (made directory w.fs) (artifacts config c directory) = some (a, f) →
        f = .error (notWritten a.1)) := by
  refine ⟨fun h hmade a f hstop => eq_notWritten_of_reports hund h hmade hstop, fun h => ?_⟩
  by_cases hmade : IsMade directory w.fs
  · obtain ⟨r, fs', hend, hsettles⟩ := endsIn_writeAll_steady hund
      (mem_of_map_eq (map_fst_artifacts config c directory))
    rw [reports_of_endsIn (endsIn_emit_of_writeAll hmade hend)]
    intro f hf
    rcases r with g | _ <;> cases hf
    rcases hstop : stop? (made directory w.fs) (artifacts config c directory) with _ | ⟨a, g'⟩
    · obtain ⟨a, -, rfl⟩ := hsettles.unstopped hstop f rfl
      exact ⟨_, _, _, rfl⟩
    · obtain rfl := h hmade a g' hstop
      cases hsettles.stopped a _ hstop
      exact ⟨_, _, _, rfl⟩
  · have hend : EndsIn (emit config c directory) w.fs
        (.error (.error (noOutputDirectory directory))) (made directory w.fs) := by
      rw [emit_eq]
      exact (endsIn_prepare_unmade hnul hmade).bind_error
    rw [reports_of_endsIn hend]
    rintro f ⟨⟩
    exact ⟨_, _, _, rfl⟩

end

/-- Settings by which the data module belongs in a directory of its own. -/
def nested : Config := { Config.usual with dataFile := ⟨"sub/workflows.ts", by decide⟩ }

/-- Emission reports that the directory of the data module is missing. -/
theorem reports_nested :
    ¬ generated.text.toList.contains '\x00' = true ∧
      Undisturbed (made generated blank)
        (Places.inDirectory nested generated).paths ∧
      Reports nested .empty generated ⟨blank, []⟩ := by
  have hnul : ¬ generated.text.toList.contains '\x00' = true := by decide +kernel
  have hund : Undisturbed (made generated blank)
      (Places.inDirectory nested generated).paths := by decide +kernel
  refine ⟨hnul, hund, (reports_iff (w := ⟨blank, []⟩) hund hnul).2 fun _ a f hstop => ?_⟩
  have hs : stagingPath? (Places.inDirectory nested generated).data =
      some (.ofString "generated/sub/.workflows.ts.tmp") := by decide +kernel
  have hmissing : (made generated blank).obstacle?
      (Path.ofString "generated/sub/.workflows.ts.tmp").text = some .notFound := by decide +kernel
  rw [artifacts_eq, stop_cons_of_failure (IsStagingEnd.missing hs hmissing).eq] at hstop
  cases hstop
  rfl

/-- A directory stands where the data module is staged. -/
def occupied : FileSystem :=
  ⟨FileSystem.located
    [(["generated"], .directory), (["generated", ".workflows.ts.tmp"], .directory)], []⟩

/-- Emission does not report that the data module cannot be staged: it fails while it removes
    what it has not written. -/
theorem not_reports_occupied :
    ¬ generated.text.toList.contains '\x00' = true ∧
      ¬ Reports .usual .empty generated ⟨occupied, []⟩ := by
  have hnul : ¬ generated.text.toList.contains '\x00' = true := by decide +kernel
  have hund : Undisturbed (made generated occupied)
      (Places.inDirectory .usual generated).paths := by decide +kernel
  have hmade : IsMade generated occupied := by
    unfold IsMade
    decide +kernel
  refine ⟨hnul, fun h => ?_⟩
  have hs : stagingPath? (Places.inDirectory .usual generated).data =
      some (.ofString "generated/.workflows.ts.tmp") := by decide +kernel
  have hdir : (made generated occupied).obstacle?
      (Path.ofString "generated/.workflows.ts.tmp").text = some .isDirectory := by decide +kernel
  have hends : IsStagingEnd (made generated occupied)
      ((Places.inDirectory .usual generated).data, (texts .usual .empty).data) _ :=
    .blocked hs hdir nofun
  cases eq_notWritten_of_reports (w := ⟨occupied, []⟩) hund h hmade (stop_cons_of_failure hends.eq)

end WorkflowCatalog.Artifact
