/-
  WorkflowCatalog/Proofs/Emission.lean
  ====================================
  **When a failed emission leaves every target as it was.**  Staging first is meant to
  make emission all-or-nothing (`AllOrNothing`).  It does so for every failure up to the
  last text that is staged.  The targets are then replaced one by one, and one that is
  blocked stops this after those in front of it have been replaced.

  Main statement: for targets that stand apart, emission is all-or-nothing exactly if it
  succeeds, or it stops before the first target is replaced, or what it has replaced held
  the new texts before (`allOrNothing_iff`).  Making the output directory must not make a
  target either, which only odd names bring about.
-/
import WorkflowCatalog.Proofs.Encoding
import WorkflowCatalog.Proofs.PlainNames

namespace WorkflowCatalog.Artifact

open FileSystem Session
open Text (CodeText)

/-! ### What emission works on -/

/-- The artifacts: their targets in an output directory, with their texts. -/
def artifacts (config : Config) (c : Collection) (directory : Path) : List (Path × CodeText) :=
  (Places.inDirectory config directory).paths.zip (texts config c).list

/-- The file system after the output directory has been made, or has been tried to. -/
def made (directory : Path) (fs : FileSystem) : FileSystem :=
  ((Change.makeDirectories directory).run.run fs).2

/-- The output directory can be made, or is there. -/
def IsMade (directory : Path) (fs : FileSystem) : Prop :=
  ((Change.makeDirectories directory).run.run fs).1 = .ok ()

/-- Every target leads to what it led to before, whether a link at its end is followed or
    not. -/
def AsBefore (targets : List Path) (fs fs' : FileSystem) : Prop :=
  ∀ t ∈ targets, ∀ followLast, fs'.seen? followLast t.text = fs.seen? followLast t.text

/-- No path that led to no entry leads to one now. -/
def NoneAppears (targets : List Path) (fs fs' : FileSystem) : Prop :=
  ∀ t ∈ targets, ∀ followLast,
    fs.seen? followLast t.text = none → fs'.seen? followLast t.text = none

/-- If emission fails, every target is as it was before. -/
def AllOrNothing (config : Config) (c : Collection) (directory : Path) (w : World) : Prop :=
  ∀ f, ((emit config c directory).run.run w).1 = .error f →
    AsBefore (Places.inDirectory config directory).paths w.fs
      ((emit config c directory).run.run w).2.fs

/-- Every text can be staged, and no target is blocked. -/
structure Succeeds (config : Config) (c : Collection) (directory : Path) (fs : FileSystem) :
    Prop where
  isMade : IsMade directory fs
  canStage : ∀ a ∈ artifacts config c directory, canStage (made directory fs) a = true
  isOpen : ∀ a ∈ artifacts config c directory, isOpen (made directory fs) a = true

/-- Emission replaces nothing, or only what held its new text before. -/
structure LeavesTargets (config : Config) (c : Collection) (directory : Path)
    (fs : FileSystem) : Prop where
  /-- No target comes into being with the output directory. -/
  unmade : NoneAppears (Places.inDirectory config directory).paths fs (made directory fs)
  /-- The output directory cannot be made, or a text cannot be staged, or the targets in front
      of the first one that is blocked held their new texts. -/
  unmixed : ¬ IsMade directory fs ∨
    (∃ a ∈ artifacts config c directory, Artifact.canStage (made directory fs) a = false) ∨
    ∀ a ∈ (artifacts config c directory).takeWhile (Artifact.isOpen (made directory fs)),
      fs.seen? false a.1.text = a.2.utf8?.map .file

section

variable {config : Config} {c : Collection} {directory : Path} {fs fs' : FileSystem}

theorem map_fst_artifacts (config : Config) (c : Collection) (directory : Path) :
    (artifacts config c directory).map (·.1) = (Places.inDirectory config directory).paths := by
  apply List.map_fst_zip
  unfold Places.inDirectory Places.paths texts Texts.list
  cases config.schemaFile <;> simp

theorem artifacts_eq (config : Config) (c : Collection) (directory : Path) :
    artifacts config c directory =
      ((Places.inDirectory config directory).data, (texts config c).data) ::
        ((Places.inDirectory config directory).types, (texts config c).types) ::
          ((Places.inDirectory config directory).searchIndex, (texts config c).searchIndex) ::
            (Places.inDirectory config directory).schema.toList.zip
              (texts config c).schema.toList := rfl

theorem emit_eq (config : Config) (c : Collection) (directory : Path) :
    emit config c directory = prepare directory >>= fun _ =>
      writeAll (artifacts config c directory) >>= fun _ =>
        Session.lift (Traced.log (writtenEvent directory (Places.inDirectory config directory)))
          >>= fun _ => pure (Places.inDirectory config directory) := rfl

theorem endsIn_prepare (h : IsMade directory fs) :
    EndsIn (prepare directory) fs (.ok ()) (made directory fs) :=
  (endsIn_attempt (Prod.ext h rfl)).bind_ok (endsIn_pure ())

theorem endsIn_prepare_error (h : ¬ IsMade directory fs) :
    ∃ f, EndsIn (prepare directory) fs (.error f) (made directory fs) := by
  have hrun : (Change.makeDirectories directory).run.run fs =
      (((Change.makeDirectories directory).run.run fs).1, made directory fs) := rfl
  have hattempt := endsIn_attempt hrun
  unfold IsMade at h
  rcases hresult : ((Change.makeDirectories directory).run.run fs).1 with f | _
  · rw [hresult] at hattempt
    cases f with
    | nulInPath => exact ⟨_, hattempt.bind_ok (endsIn_throw _)⟩
    | _ => exact ⟨_, hattempt.bind_ok (endsIn_raise _)⟩
  · exact absurd hresult h

theorem made_grows (directory : Path) (fs : FileSystem) : Grows fs (made directory fs) :=
  Change.makePath_grows _ directory fs

/-- Nothing is lost with the output directory, so targets can only come into being. -/
theorem asBefore_made_iff {targets : List Path} :
    AsBefore targets fs (made directory fs) ↔ NoneAppears targets fs (made directory fs) := by
  constructor
  · intro h t ht followLast hnone
    rw [h t ht followLast, hnone]
  · intro h t ht followLast
    by_cases hnone : fs.seen? followLast t.text = none
    · rw [h t ht followLast hnone, hnone]
    · exact seen_of_grows (made_grows directory fs) hnone

/-! ### How emission ends -/

theorem endsIn_emit_of_writeAll {r : Except Failure Unit} (hmade : IsMade directory fs)
    (h : EndsIn (writeAll (artifacts config c directory)) (made directory fs) r fs') :
    EndsIn (emit config c directory) fs (r.map fun _ => Places.inDirectory config directory)
      fs' := by
  rw [emit_eq]
  refine (endsIn_prepare hmade).bind_ok ?_
  cases r with
  | error f => exact h.bind_error
  | ok u => exact h.bind_ok ((endsIn_lift (Traced.appends_log _)).bind_ok (endsIn_pure _))

theorem endsIn_emit_of_not_isMade (h : ¬ IsMade directory fs) :
    ∃ f, EndsIn (emit config c directory) fs (.error f) (made directory fs) := by
  obtain ⟨f, hf⟩ := endsIn_prepare_error h
  refine ⟨f, ?_⟩
  rw [emit_eq]
  exact hf.bind_error

/-- What is true of the end of an operation is true of its run. -/
theorem allOrNothing_of_endsIn {r : Except Failure Places} {journal : List Log.Event}
    (h : EndsIn (emit config c directory) fs r fs') :
    AllOrNothing config c directory ⟨fs, journal⟩ ↔
      ∀ f, r = .error f → AsBefore (Places.inDirectory config directory).paths fs fs' := by
  obtain ⟨journal', hrun⟩ := h journal
  unfold AllOrNothing
  rw [hrun]

section

variable {targets : List Path} {as : List (Path × CodeText)} {fs₁ : FileSystem}
  {a : Path × CodeText}

/-- A target that has been replaced is seen with its new text. -/
theorem seen_of_installed (hapart : Apart fs₁ targets) (has : as.map (·.1) = targets)
    (hv : Varies (targets.flatMap writtenPaths) fs₁ fs') (htext : a.2.utf8? ≠ none)
    (ha : a ∈ as.takeWhile (isOpen fs₁))
    (hdone : ∀ l ∈ fs₁.place? a.1.text, fs'.entryAt? l = a.2.utf8?.map .file)
    (followLast : Bool) : fs'.seen? followLast a.1.text = a.2.utf8?.map .file := by
  obtain ⟨bytes, hbytes⟩ := Option.ne_none_iff_exists'.1 htext
  have hopen : isOpen fs₁ a = true := List.mem_takeWhile_imp ha
  obtain ⟨l, hl⟩ := Option.isSome_iff_exists.1 hopen
  have hthere := hdone l hl
  have hend : IsEnd fs' followLast l := by
    rw [hbytes] at hthere
    refine ⟨?_, fun _ e he => ?_⟩
    · rw [hthere]
      nofun
    · rw [hthere] at he
      cases he
      rfl
  have hmem := mem_of_map_eq has a (List.takeWhile_subset _ ha)
  rw [seen_of_resolve (hv.resolve_eq hapart (mem_written_of_target hmem) hl hend), hthere]

/-- A target from the first one on that is blocked is seen as it was. -/
theorem seen_of_left (hapart : Apart fs₁ targets) (has : as.map (·.1) = targets)
    (hv : Varies (targets.flatMap writtenPaths) fs₁ fs')
    (hframe : ∀ l, (∀ t ∈ targets, l ∉ stagingPlace? fs₁ t) →
      (∀ a ∈ as.takeWhile (isOpen fs₁), l ∉ fs₁.place? a.1.text) →
        fs'.entryAt? l = fs₁.entryAt? l)
    (ha : a ∈ as.dropWhile (isOpen fs₁)) (followLast : Bool) :
    fs'.seen? followLast a.1.text = fs₁.seen? followLast a.1.text := by
  have hsplit := List.takeWhile_append_dropWhile (p := isOpen fs₁) (l := as)
  have hmem : a.1 ∈ targets := mem_of_map_eq has a ((List.dropWhile_sublist _).subset ha)
  have hdisjoint : as.Pairwise fun a b => AreDisjoint fs₁ a.1 b.1 := by
    rw [← List.pairwise_map, has]
    exact hapart.pairwise
  rw [← hsplit] at hdisjoint
  have hcross := (List.pairwise_append.1 hdisjoint).2.2
  apply seen_of_trail
  apply hv.trail_eq hapart (mem_written_of_target hmem)
  intro l hl
  apply hframe
  · intro t ht
    exact hapart.place_notMem_stagingPlace hmem ht hl
  · intro b hb hb'
    exact not_owns_of_disjoint (hcross b hb a ha) (owns_place hb') (owns_place hl)

end

/-- If all texts have been staged, the targets are as they were exactly if none of them came
    into being with the output directory, and what has been replaced held its new text. -/
theorem asBefore_iff_of_installed {targets : List Path} {as : List (Path × CodeText)}
    (hapart : Apart (made directory fs) targets) (has : as.map (·.1) = targets)
    (hv : Varies (targets.flatMap writtenPaths) (made directory fs) fs')
    (htexts : ∀ a ∈ as, a.2.utf8? ≠ none)
    (hdone : ∀ a ∈ as.takeWhile (isOpen (made directory fs)),
      ∀ l ∈ (made directory fs).place? a.1.text, fs'.entryAt? l = a.2.utf8?.map .file)
    (hframe : ∀ l, (∀ t ∈ targets, l ∉ stagingPlace? (made directory fs) t) →
      (∀ a ∈ as.takeWhile (isOpen (made directory fs)),
        l ∉ (made directory fs).place? a.1.text) →
          fs'.entryAt? l = (made directory fs).entryAt? l) :
    AsBefore targets fs fs' ↔ NoneAppears targets fs (made directory fs) ∧
      ∀ a ∈ as.takeWhile (isOpen (made directory fs)),
        fs.seen? false a.1.text = a.2.utf8?.map .file := by
  have hinstalled : ∀ a ∈ as.takeWhile (isOpen (made directory fs)), ∀ followLast,
      fs'.seen? followLast a.1.text = a.2.utf8?.map .file := by
    intro a ha
    exact seen_of_installed hapart has hv (htexts a (List.takeWhile_subset _ ha)) ha (hdone a ha)
  have hleft : ∀ a ∈ as.dropWhile (isOpen (made directory fs)), ∀ followLast,
      fs'.seen? followLast a.1.text = (made directory fs).seen? followLast a.1.text :=
    fun a ha => seen_of_left hapart has hv hframe ha
  have hcases : ∀ t ∈ targets, (∃ a ∈ as.takeWhile (isOpen (made directory fs)), a.1 = t) ∨
      ∃ a ∈ as.dropWhile (isOpen (made directory fs)), a.1 = t := by
    intro t ht
    rw [← has] at ht
    obtain ⟨a, ha, rfl⟩ := List.mem_map.1 ht
    rw [← List.takeWhile_append_dropWhile (p := isOpen (made directory fs)) (l := as)] at ha
    rcases List.mem_append.1 ha with ha | ha
    · exact .inl ⟨a, ha, rfl⟩
    · exact .inr ⟨a, ha, rfl⟩
  constructor
  · intro h
    constructor
    · intro t ht followLast hnone
      have hsame := h t ht followLast
      rcases hcases t ht with ⟨a, ha, rfl⟩ | ⟨a, ha, rfl⟩
      · rw [hinstalled a ha, hnone, Option.map_eq_none_iff] at hsame
        exact absurd hsame (htexts a (List.takeWhile_subset _ ha))
      · rw [← hleft a ha, hsame, hnone]
    · intro a ha
      have hmem := mem_of_map_eq has a (List.takeWhile_subset _ ha)
      rw [← h a.1 hmem false, hinstalled a ha]
  · rintro ⟨hunmade, hheld⟩ t ht followLast
    rcases hcases t ht with ⟨a, ha, rfl⟩ | ⟨a, ha, rfl⟩
    · have hfile := hheld a ha
      obtain ⟨bytes, hbytes⟩ :=
        Option.ne_none_iff_exists'.1 (htexts a (List.takeWhile_subset _ ha))
      rw [hinstalled a ha]
      rw [hbytes] at hfile ⊢
      exact (seen_of_file hfile).symm
    · rw [hleft a ha]
      exact asBefore_made_iff.2 hunmade a.1 ht followLast

/-- If a text could not be staged, the targets are as they were exactly if none of them came
    into being with the output directory. -/
theorem asBefore_iff_of_unstaged {targets : List Path}
    (hapart : Apart (made directory fs) targets)
    (hv : Varies (targets.flatMap writtenPaths) (made directory fs) fs')
    (hframe : ∀ l, (∀ t ∈ targets, l ∉ stagingPlace? (made directory fs) t) →
      fs'.entryAt? l = (made directory fs).entryAt? l) :
    AsBefore targets fs fs' ↔ NoneAppears targets fs (made directory fs) := by
  rw [← asBefore_made_iff]
  have hsame : ∀ t ∈ targets, ∀ followLast,
      fs'.seen? followLast t.text = (made directory fs).seen? followLast t.text := by
    intro t ht followLast
    apply seen_of_trail
    apply hv.trail_eq hapart (mem_written_of_target ht)
    intro l hl
    exact hframe l fun u hu => hapart.place_notMem_stagingPlace ht hu hl
  constructor
  · intro h t ht followLast
    rw [← hsame t ht, h t ht]
  · intro h t ht followLast
    rw [hsame t ht, h t ht]

theorem utf8_of_canStage {fs₁ : FileSystem} {a : Path × CodeText} (h : canStage fs₁ a = true) :
    a.2.utf8? ≠ none := by
  obtain ⟨-, htext⟩ := (Bool.and_eq_true _ _).mp h
  exact Option.isSome_iff_ne_none.1 htext

/-- Emission into a directory that cannot be made. -/
theorem allOrNothing_of_not_isMade {journal : List Log.Event} (hmade : ¬ IsMade directory fs) :
    AllOrNothing config c directory ⟨fs, journal⟩ ↔
      NoneAppears (Places.inDirectory config directory).paths fs (made directory fs) := by
  obtain ⟨f, hend⟩ := endsIn_emit_of_not_isMade hmade
  rw [allOrNothing_of_endsIn hend, ← asBefore_made_iff]
  exact ⟨fun h => h f rfl, fun h _ _ => h⟩

/-- Emission with a text that cannot be staged. -/
theorem allOrNothing_of_unstaged {journal : List Log.Event}
    (hapart : Apart (made directory fs) (Places.inDirectory config directory).paths)
    (hmade : IsMade directory fs)
    (hfails : ∃ a ∈ artifacts config c directory, canStage (made directory fs) a = false) :
    AllOrNothing config c directory ⟨fs, journal⟩ ↔
      NoneAppears (Places.inDirectory config directory).paths fs (made directory fs) := by
  obtain ⟨f, fs', hend, hv, hframe⟩ :=
    endsIn_writeAll_unstaged hapart (map_fst_artifacts config c directory) hfails
  rw [allOrNothing_of_endsIn (endsIn_emit_of_writeAll hmade hend),
    ← asBefore_iff_of_unstaged hapart hv hframe]
  exact ⟨fun h => h f rfl, fun h _ _ => h⟩

/-- Emission with a target that is blocked. -/
theorem allOrNothing_of_blocked {journal : List Log.Event}
    (hapart : Apart (made directory fs) (Places.inDirectory config directory).paths)
    (hmade : IsMade directory fs)
    (hstage : ∀ a ∈ artifacts config c directory, canStage (made directory fs) a = true)
    (hblocked : ∃ a ∈ artifacts config c directory, isOpen (made directory fs) a = false) :
    AllOrNothing config c directory ⟨fs, journal⟩ ↔
      NoneAppears (Places.inDirectory config directory).paths fs (made directory fs) ∧
      ∀ a ∈ (artifacts config c directory).takeWhile (isOpen (made directory fs)),
        fs.seen? false a.1.text = a.2.utf8?.map .file := by
  have has := map_fst_artifacts config c directory
  obtain ⟨r, fs', hend, hok, hv, hdone, hframe⟩ := endsIn_writeAll hapart has hstage
  rw [allOrNothing_of_endsIn (endsIn_emit_of_writeAll hmade hend),
    ← asBefore_iff_of_installed hapart has hv (fun a ha => utf8_of_canStage (hstage a ha)) hdone
      hframe]
  cases r with
  | ok u =>
    obtain ⟨a, ha, hclosed⟩ := hblocked
    rw [hok.1 rfl a ha] at hclosed
    cases hclosed
  | error f => exact ⟨fun h => h f rfl, fun h _ _ => h⟩

/-- Emission that nothing stops. -/
theorem allOrNothing_of_succeeds {journal : List Log.Event}
    (hapart : Apart (made directory fs) (Places.inDirectory config directory).paths)
    (h : Succeeds config c directory fs) :
    AllOrNothing config c directory ⟨fs, journal⟩ := by
  obtain ⟨r, fs', hend, hok, -⟩ :=
    endsIn_writeAll hapart (map_fst_artifacts config c directory) h.canStage
  rw [allOrNothing_of_endsIn (endsIn_emit_of_writeAll h.isMade hend), hok.2 h.isOpen]
  exact fun _ => nofun

/-- **Emission is all-or-nothing where no target is blocked**: with plain names of artifacts in a
    directory that is there, all different, and neither a link nor a directory at a target. -/
theorem allOrNothing_of_plain {journal : List Log.Event} {dir : Location}
    (hdir : (made directory fs).resolve true directory.text = .ok (.present dir .directory))
    (hnames : ∀ n ∈ artifactNames config, IsName n ∧ n ≠ "..")
    (hdistinct : ((artifactNames config).flatMap fun n => [n, stagingName n]).Nodup)
    (hlinks : ∀ x ∈ (artifactNames config).flatMap fun n => [n, stagingName n],
      ∀ e ∈ (made directory fs).entryAt? (dir ++ [x]), e.isLink = false)
    (hnone : NoneAppears (Places.inDirectory config directory).paths fs (made directory fs))
    (hopen : ∀ a ∈ artifacts config c directory, isOpen (made directory fs) a = true) :
    AllOrNothing config c directory ⟨fs, journal⟩ := by
  have hapart : Apart (made directory fs) (Places.inDirectory config directory).paths := by
    rw [paths_inDirectory]
    exact apart_of_plain hdir hnames hdistinct hlinks
  by_cases hmade : IsMade directory fs
  case neg => exact (allOrNothing_of_not_isMade hmade).2 hnone
  by_cases hstage : ∀ a ∈ artifacts config c directory, canStage (made directory fs) a = true
  case pos => exact allOrNothing_of_succeeds hapart ⟨hmade, hstage, hopen⟩
  have hfails : ∃ a ∈ artifacts config c directory, canStage (made directory fs) a = false := by
    simpa using hstage
  exact (allOrNothing_of_unstaged hapart hmade hfails).2 hnone

/-- **When emission is all-or-nothing.** -/
theorem allOrNothing_iff {w : World}
    (hapart : Apart (made directory w.fs) (Places.inDirectory config directory).paths) :
    AllOrNothing config c directory w ↔
      Succeeds config c directory w.fs ∨ LeavesTargets config c directory w.fs := by
  obtain ⟨fs, journal⟩ := w
  by_cases hmade : IsMade directory fs
  case neg =>
    rw [allOrNothing_of_not_isMade hmade]
    constructor
    · intro h
      exact .inr ⟨h, .inl hmade⟩
    · rintro (hsucceeds | hleaves)
      · exact absurd hsucceeds.isMade hmade
      · exact hleaves.unmade
  by_cases hstage : ∀ a ∈ artifacts config c directory, canStage (made directory fs) a = true
  case neg =>
    have hfails : ∃ a ∈ artifacts config c directory, canStage (made directory fs) a = false := by
      simpa using hstage
    rw [allOrNothing_of_unstaged hapart hmade hfails]
    constructor
    · intro h
      exact .inr ⟨h, .inr (.inl hfails)⟩
    · rintro (hsucceeds | hleaves)
      · exact absurd hsucceeds.canStage hstage
      · exact hleaves.unmade
  by_cases hopen : ∀ a ∈ artifacts config c directory, isOpen (made directory fs) a = true
  case pos =>
    have hsucceeds : Succeeds config c directory fs := ⟨hmade, hstage, hopen⟩
    exact ⟨fun _ => .inl hsucceeds, fun _ => allOrNothing_of_succeeds hapart hsucceeds⟩
  have hblocked : ∃ a ∈ artifacts config c directory, isOpen (made directory fs) a = false := by
    simpa using hopen
  rw [allOrNothing_of_blocked hapart hmade hstage hblocked]
  constructor
  · rintro ⟨hunmade, hheld⟩
    exact .inr ⟨hunmade, .inr (.inr hheld)⟩
  · rintro (hsucceeds | hleaves)
    · exact absurd hsucceeds.isOpen hopen
    · refine ⟨hleaves.unmade, ?_⟩
      rcases hleaves.unmixed with hnot | ⟨a, ha, hfail⟩ | hheld
      · exact absurd hmade hnot
      · rw [hstage a ha] at hfail
        cases hfail
      · exact hheld

end

/-! ### Targets that are blocked -/

theorem canStage_artifacts {config : Config} {c : Collection} {directory : Path}
    {fs₁ : FileSystem}
    (hplaces : ∀ t ∈ (Places.inDirectory config directory).paths,
      (stagingPlace? fs₁ t).isSome = true)
    (htexts : ∀ t ∈ (texts config c).list, t.utf8? ≠ none) :
    ∀ a ∈ artifacts config c directory, canStage fs₁ a = true := by
  intro a ha
  obtain ⟨htarget, htext⟩ := List.of_mem_zip ha
  unfold canStage
  rw [hplaces a.1 htarget, Option.isSome_iff_ne_none.2 (htexts a.2 htext)]
  rfl

/-- An output directory with a directory where the data module is written. -/
def blockedData : FileSystem where
  entries := FileSystem.located
    [(["generated"], .directory), (["generated", "workflows.ts"], .directory)]
  workingDirectory := []

/-- An output directory with a directory where the types module is written. -/
def blockedTypes : FileSystem where
  entries := FileSystem.located
    [(["generated"], .directory), (["generated", "types.ts"], .directory)]
  workingDirectory := []

/-- Nothing is replaced if the first target is blocked. -/
theorem allOrNothing_blockedData :
    Apart (made (.ofString "generated") blockedData)
        (Places.inDirectory .usual (.ofString "generated")).paths ∧
      AllOrNothing .usual .empty (.ofString "generated") ⟨blockedData, []⟩ := by
  have hapart : Apart (made (.ofString "generated") blockedData)
      (Places.inDirectory .usual (.ofString "generated")).paths := by decide +kernel
  have hunmade : NoneAppears (Places.inDirectory .usual (.ofString "generated")).paths blockedData
      (made (.ofString "generated") blockedData) := by
    unfold NoneAppears
    decide +kernel
  have hclosed : ((made (.ofString "generated") blockedData).place?
      (Places.inDirectory .usual (.ofString "generated")).data.text).isSome = false := by decide +kernel
  have hfront : (artifacts .usual .empty (.ofString "generated")).takeWhile
      (isOpen (made (.ofString "generated") blockedData)) = [] := by
    rw [artifacts_eq, List.takeWhile_cons_of_neg]
    unfold isOpen
    rw [hclosed]
    nofun
  have hleaves : LeavesTargets .usual .empty (.ofString "generated") blockedData := by
    refine ⟨hunmade, .inr (.inr ?_)⟩
    rw [hfront]
    nofun
  have hiff : AllOrNothing .usual .empty (.ofString "generated") ⟨blockedData, []⟩ ↔ _ :=
    allOrNothing_iff hapart
  exact ⟨hapart, hiff.2 (.inr hleaves)⟩

/-- The data module is replaced before the types module turns out to be blocked. -/
theorem not_allOrNothing_blockedTypes :
    ¬ AllOrNothing .usual .empty (.ofString "generated") ⟨blockedTypes, []⟩ := by
  have hapart : Apart (made (.ofString "generated") blockedTypes)
      (Places.inDirectory .usual (.ofString "generated")).paths := by decide +kernel
  have hmade : IsMade (.ofString "generated") blockedTypes := by
    unfold IsMade
    decide +kernel
  have htexts : ∀ t ∈ (texts .usual .empty).list, t.utf8? ≠ none := utf8_of_empty rfl
  have hstage : ∀ a ∈ artifacts .usual .empty (.ofString "generated"),
      canStage (made (.ofString "generated") blockedTypes) a = true :=
    canStage_artifacts (by decide +kernel) htexts
  have hplace : ((made (.ofString "generated") blockedTypes).place?
      (Places.inDirectory .usual (.ofString "generated")).data.text).isSome = true := by decide +kernel
  have hopen : isOpen (made (.ofString "generated") blockedTypes)
      ((Places.inDirectory .usual (.ofString "generated")).data, (texts .usual .empty).data) = true :=
    hplace
  have hclosed : ((made (.ofString "generated") blockedTypes).place?
      (Places.inDirectory .usual (.ofString "generated")).types.text).isSome = false := by decide +kernel
  have hblocked : ∃ a ∈ artifacts .usual .empty (.ofString "generated"),
      isOpen (made (.ofString "generated") blockedTypes) a = false := by
    rw [artifacts_eq]
    exact ⟨_, List.mem_cons_of_mem _ List.mem_cons_self, hclosed⟩
  have hbefore : blockedTypes.seen? false
      (Places.inDirectory .usual (.ofString "generated")).data.text = none := by decide +kernel
  intro h
  obtain ⟨-, hheld⟩ := (allOrNothing_of_blocked hapart hmade hstage hblocked).1 h
  rw [artifacts_eq, List.takeWhile_cons_of_pos hopen] at hheld
  have hdata := hheld _ List.mem_cons_self
  rw [hbefore] at hdata
  exact htexts (texts .usual .empty).data List.mem_cons_self (Option.map_eq_none_iff.1 hdata.symm)

end WorkflowCatalog.Artifact
