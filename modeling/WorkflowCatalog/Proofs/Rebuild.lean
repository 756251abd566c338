/-
  WorkflowCatalog/Proofs/Rebuild.lean
  ===================================
  **Building again changes nothing**, even if the artifacts are written into the tree of
  manifests.  The first build may add directories to the tree, replace files in it and
  leave others in it, but no file that is a manifest by name is among them.  So the
  second build finds the manifests of the first one (`Manifest.discover_again`), makes the
  same collection of them (`compilesTo_again`), and writes the same texts to the same
  places.

  There are two gaps.  The directories that the first build has added may stand too far below
  the root for another search.  And where the time limit is longer than can be waited, the
  answers that the first build had in time may make the second one wait.  A build of either
  kind fails before it writes anything.

  Main statement: `build_again`, over all orders in which the answers may arrive.
-/
import WorkflowCatalog.Compiler.Build
import WorkflowCatalog.Proofs.Collection
import WorkflowCatalog.Proofs.PathSets
import WorkflowCatalog.Proofs.Rewriting

namespace WorkflowCatalog.Compiler

open FileSystem Artifact Session
open Manifest (IsShallow isManifest KeepsManifests)
open Text (CodeText)

variable {fs fs' : FileSystem} {config : Config} {directory p : Path} {paths : List Path}
  {c : Collection}

/-! ### Manifests that are as they were -/

theorem readBytes_eq_ok {path : String} {bytes : ByteArray} :
    fs.readBytes path = .ok bytes ↔ ∃ loc, fs.find true path = .ok (loc, .file bytes) := by
  unfold readBytes
  rcases fs.find true path with f | ⟨loc, e⟩
  · simp [bind, Except.bind]
  · cases e <;> simp [bind, Except.bind]

/-- A manifest that could be read holds what it held. -/
theorem readBytes_again (hfs : fs.Unlinked) (hkeeps : KeepsManifests config.suffixes fs fs')
    (hp : isManifest config.suffixes p = true) {bytes : ByteArray}
    (h : fs.readBytes p.text = .ok bytes) : fs'.readBytes p.text = .ok bytes := by
  obtain ⟨loc, hfind⟩ := readBytes_eq_ok.1 h
  obtain ⟨hcomes, hentry⟩ := (find_eq_ok_iff hfs).1 hfind
  have hplace : fs.place? p.text = some loc := by
    refine (place_eq_some_iff hfs).2 ⟨hcomes, ?_⟩
    rw [hentry]
    nofun
  obtain ⟨dir, rfl, -, hname⟩ := exists_name_of_place hfs hplace
  have hmanifest : isManifest config.suffixes (.ofString p.name) = true := by
    rw [Manifest.isManifest_congr (Path.name_ofString hname.isName), hp]
  have hfind' : fs'.find true p.text = .ok (dir ++ [p.name], .file bytes) := by
    rw [find_eq_ok_iff hkeeps.unlinked, hkeeps.file_iff dir p.name hmanifest]
    exact ⟨hcomes.mono hkeeps.keepsDirectories, hentry⟩
  exact readBytes_eq_ok.2 ⟨_, hfind'⟩

theorem compileManifest_congr (h : fs'.readBytes p.text = fs.readBytes p.text) :
    compileManifest fs' config p = compileManifest fs config p := by
  rw [compileManifest_eq, compileManifest_eq]
  unfold readText
  rw [h]

/-- A manifest that cannot be read has no outcome in a run that stops for it. -/
theorem exists_readBytes_of_settle {o : Outcome}
    (h : settle true (compileManifest fs config p).outcome = .ok o) :
    ∃ bytes, fs.readBytes p.text = .ok bytes := by
  rw [outcome_compileManifest, outcome_readText] at h
  rcases hread : fs.readBytes p.text with f | bytes
  · rw [hread] at h
    cases f <;> cases h
  · exact ⟨bytes, rfl⟩

/-- In a compilation that can succeed every manifest can be read. -/
theorem exists_readBytes (h : CompilesTo fs config paths (.ok c)) (hp : p ∈ paths) :
    ∃ bytes, fs.readBytes p.text = .ok bytes := by
  obtain ⟨os, hends, -⟩ := exists_ends_of_ok h
  obtain ⟨o, ho⟩ := hends.exists_settle p hp
  exact exists_readBytes_of_settle ho

/-! ### Compiling again -/

/-- A search finds manifests only. -/
theorem isManifest_of_discover (h : (discover fs config directory).outcome = .ok paths) :
    ∀ p ∈ paths, isManifest config.suffixes p = true := by
  obtain ⟨rooms, -, rfl⟩ := Manifest.exists_walks_of_discover h
  intro p hp
  obtain ⟨r, -, n, -, -, hmanifest⟩ := Manifest.mem_foundIn.1 (Manifest.mem_sortPaths.1 hp)
  exact hmanifest

/-- A collection without workflows is one of no manifests. -/
theorem workflows_eq_nil_iff (h : CompilesTo fs config paths (.ok c)) :
    c.workflows = [] ↔ paths = [] := by
  obtain ⟨os, hos, hsettle, hbad, -, rfl⟩ := exists_outcomes_of_compilesTo h
  obtain ⟨hpaths, -⟩ := map_records_of_run hos hsettle hbad
  rw [← arrange_eq_nil, ← hpaths, List.map_eq_nil_iff]
  exact List.map_eq_nil_iff

/-- **A compilation that has succeeded succeeds again** with the same collection, if the
    manifests are as they were and no wait fails. -/
theorem compilesTo_again (hfs : fs.Unlinked) (hkeeps : KeepsManifests config.suffixes fs fs')
    (hdiscover : (discover fs config directory).outcome = .ok paths)
    (hcompile : CompilesTo fs config paths (.ok c)) {compiled : Except Failure Collection} :
    CompilesTo fs' config paths compiled ↔ compiled = .ok c ∨
      ((isTooLong config = true ∧ c.workflows ≠ []) ∧ compiled = .error .waitTooLong) := by
  rw [ne_eq, workflows_eq_nil_iff hcompile, ← ne_eq, ← not_canWait]
  refine leadsTo_iff_of_ok (hcompile.congr ?_)
  intro p hp
  obtain ⟨bytes, hbytes⟩ := exists_readBytes hcompile hp
  have hread : fs'.readBytes p.text = fs.readBytes p.text := by
    rw [hbytes]
    exact readBytes_again hfs hkeeps (isManifest_of_discover hdiscover p hp) hbytes
  unfold answers
  rw [compileManifest_congr hread]

/-! ### What building can end in -/

variable (config directory) in
/-- What building can end in, in time, and the file system that it leaves: the answers of the
    manifests arrive in some order. -/
inductive BuildsTo (given : Option String) (fs : FileSystem) :
    Except Failure Built → FileSystem → Prop where
  | undiscovered {f : Failure} (h : (discover fs config directory).outcome = .error f) :
    BuildsTo given fs (.error f) fs
  | uncompiled {paths : List Path} {f : Failure}
    (hdiscover : (discover fs config directory).outcome = .ok paths)
    (hcompile : CompilesTo fs config paths (.error f)) : BuildsTo given fs (.error f) fs
  | unwritten {paths : List Path} {c : Collection} {f : Failure} {fs' : FileSystem}
    {journal journal' : List Log.Event}
    (hdiscover : (discover fs config directory).outcome = .ok paths)
    (hcompile : CompilesTo fs config paths (.ok c))
    (hemit : (emit config c (outputDirectory config given)).run.run ⟨fs, journal⟩ =
      (.error f, ⟨fs', journal'⟩)) : BuildsTo given fs (.error f) fs'
  | built {paths : List Path} {c : Collection} {places : Places} {fs' : FileSystem}
    {journal journal' : List Log.Event}
    (hdiscover : (discover fs config directory).outcome = .ok paths)
    (hcompile : CompilesTo fs config paths (.ok c))
    (hemit : (emit config c (outputDirectory config given)).run.run ⟨fs, journal⟩ =
      (.ok places, ⟨fs', journal'⟩)) : BuildsTo given fs (.ok ⟨c, places⟩) fs'

variable {given : Option String} {b : Built}

/-- Where the search fails, building fails. -/
theorem buildsTo_iff_of_undiscovered {f : Failure} {built : Except Failure Built}
    (h : (discover fs config directory).outcome = .error f) :
    BuildsTo config directory given fs built fs' ↔ built = .error f ∧ fs' = fs := by
  constructor
  · intro hbuilt
    cases hbuilt with
    | undiscovered hdiscover =>
      cases h.symm.trans hdiscover
      exact ⟨rfl, rfl⟩
    | uncompiled hdiscover | unwritten hdiscover | built hdiscover =>
      cases h.symm.trans hdiscover
  · rintro ⟨rfl, rfl⟩
    exact .undiscovered h

/-- Where the manifests are found and have one collection, which can be written, building ends
    with its artifacts, or it fails as compiling may fail. -/
theorem buildsTo_iff_of_discovered {mayFail : Prop} {f : Failure} {places : Places}
    {fs₂ : FileSystem} {built : Except Failure Built}
    (hdiscover : (discover fs config directory).outcome = .ok paths)
    (hcompile : ∀ compiled, CompilesTo fs config paths compiled ↔
      compiled = .ok c ∨ (mayFail ∧ compiled = .error f))
    (hemit : EndsIn (emit config c (outputDirectory config given)) fs (.ok places) fs₂) :
    BuildsTo config directory given fs built fs' ↔
      (mayFail ∧ built = .error f ∧ fs' = fs) ∨ (built = .ok ⟨c, places⟩ ∧ fs' = fs₂) := by
  have hcollection : ∀ c', CompilesTo fs config paths (.ok c') → c' = c := by
    intro c' hcompile'
    rcases (hcompile _).1 hcompile' with hok | ⟨-, hfails⟩
    · exact Except.ok.inj hok
    · cases hfails
  constructor
  · intro hbuilt
    cases hbuilt with
    | undiscovered hdiscover' => cases hdiscover.symm.trans hdiscover'
    | uncompiled hdiscover' hcompile' =>
      cases hdiscover.symm.trans hdiscover'
      rcases (hcompile _).1 hcompile' with hok | ⟨hmay, hfails⟩
      · cases hok
      · cases hfails
        exact .inl ⟨hmay, rfl, rfl⟩
    | unwritten hdiscover' hcompile' hemit' =>
      cases hdiscover.symm.trans hdiscover'
      obtain rfl := hcollection _ hcompile'
      cases (hemit.eq_of_run hemit').1
    | built hdiscover' hcompile' hemit' =>
      cases hdiscover.symm.trans hdiscover'
      obtain rfl := hcollection _ hcompile'
      obtain ⟨hplaces, rfl⟩ := hemit.eq_of_run hemit'
      cases hplaces
      exact .inr ⟨rfl, rfl⟩
  · rintro (⟨hmay, rfl, rfl⟩ | ⟨rfl, rfl⟩)
    · exact .uncompiled hdiscover ((hcompile _).2 (.inr ⟨hmay, rfl⟩))
    · obtain ⟨journal, hrun⟩ := hemit []
      exact .built hdiscover ((hcompile _).2 (.inl rfl)) hrun

theorem appends_discover (fs : FileSystem) (config : Config) (directory : Path) :
    (discover fs config directory).Appends := by
  unfold discover Manifest.discover
  rcases fs.isDirectory directory.text with f | _ | _
  · exact Traced.appends_throw _
  · exact Run.appends_raise _
  · exact Traced.appends_bind (Manifest.appends_visit _ _ _ _) fun _ =>
      Traced.appends_bind (Traced.appends_log _) fun _ => Traced.appends_pure _

theorem appends_compile (fs : FileSystem) (config : Config) (directory : Path) :
    (compile fs config directory).Appends :=
  Traced.appends_bind (appends_discover fs config directory) (appends_compilePaths fs config)

theorem outcome_compile_eq_bind (fs : FileSystem) (config : Config) (directory : Path) :
    (compile fs config directory).outcome = (discover fs config directory).outcome.bind
      fun paths => (compilePaths fs config paths).outcome := by
  unfold compile
  rw [Traced.outcome_bind (appends_compilePaths fs config)]

/-- The program that works on one manifest after the other, if it has time, builds in one of
    these ways. -/
theorem buildsTo_build (htime : isOverAtOnce config = false) (w : World) :
    BuildsTo config directory given w.fs ((build config directory given).run.run w).1
      ((build config directory given).run.run w).2.fs := by
  have hreading := endsIn_reading (r := fun fs => compile fs config directory)
    (appends_compile w.fs config directory)
  rw [outcome_compile_eq_bind] at hreading
  have hfails : ∀ {f : Failure}, EndsIn (Session.reading fun fs => compile fs config directory)
      w.fs (.error f) w.fs → ∃ journal, (build config directory given).run.run w =
        (.error f, ⟨w.fs, journal⟩) := fun hend => hend.bind_error w.journal
  cases hdiscover : (discover w.fs config directory).outcome with
  | error f =>
    rw [hdiscover] at hreading
    obtain ⟨journal, hrun⟩ := hfails hreading
    rw [hrun]
    exact .undiscovered hdiscover
  | ok paths =>
    have hcompile : CompilesTo w.fs config paths (compilePaths w.fs config paths).outcome :=
      compilesTo_compilePaths htime
    rw [hdiscover] at hreading
    change EndsIn _ w.fs (compilePaths w.fs config paths).outcome w.fs at hreading
    cases hc : (compilePaths w.fs config paths).outcome with
    | error f =>
      rw [hc] at hreading hcompile
      obtain ⟨journal, hrun⟩ := hfails hreading
      rw [hrun]
      exact .uncompiled hdiscover hcompile
    | ok c =>
      rw [hc] at hreading hcompile
      obtain ⟨journal, hrun⟩ : ∃ journal,
          (Session.reading fun fs => compile fs config directory).run.run w =
            (.ok c, ⟨w.fs, journal⟩) := hreading w.journal
      unfold build
      rw [run_bind, hrun]
      dsimp only
      rw [run_bind]
      rcases hemit : (emit config c (outputDirectory config given)).run.run ⟨w.fs, journal⟩ with
        ⟨f | places, fs', journal'⟩
      · exact .unwritten hdiscover hcompile hemit
      · exact .built hdiscover hcompile hemit

/-- A build of the program that gives artifacts is one that had time. -/
theorem buildsTo_of_ok {w w₁ : World}
    (h : (build config directory given).run.run w = (.ok b, w₁)) :
    BuildsTo config directory given w.fs (.ok b) w₁.fs := by
  obtain ⟨c, w₀, hreading, hrest⟩ := bind_run_ok.1 h
  obtain ⟨hcompile, hsame⟩ := reading_run_ok (appends_compile w.fs config directory) hreading
  rw [outcome_compile_eq_bind] at hcompile
  obtain ⟨paths, hdiscover, hpaths⟩ := bind_eq_ok.1 hcompile
  obtain ⟨places, w₂, hemit, hpure⟩ := bind_run_ok.1 hrest
  cases hpure
  obtain ⟨fs₀, journal⟩ := w₀
  obtain rfl : fs₀ = w.fs := hsame
  exact .built hdiscover (compilesTo_of_ok hpaths) hemit

/-! ### Building again -/

variable (config directory given) in
/-- Building ends, and always in what has been built, and changes nothing. -/
structure Repeats (fs : FileSystem) (b : Built) : Prop where
  ends : ∃ built fs', BuildsTo config directory given fs built fs'
  same : ∀ built fs', BuildsTo config directory given fs built fs' →
    built = .ok b ∧ ∀ loc, fs'.entryAt? loc = fs.entryAt? loc

section

variable {fs₁ : FileSystem} (hfs : fs.Unlinked)
  (hnames : ∀ n ∈ artifactNames config, isManifest config.suffixes (.ofString n) = false)
  (htmp : ↑".tmp" ∉ config.suffixes.map CodeText.lower)
  (h : BuildsTo config directory given fs (.ok b) fs₁)
  (hlisted : ∀ d, (discover fs₁ config directory).outcome ≠
    .error (.error (Manifest.unlistable d)))

include hfs hnames htmp h hlisted

/-- **The ends of a second build.**  It fails where directories stand too far below the root, or
    else may fail to wait for manifests, and then leaves everything as it is; otherwise it gives
    the same collection and the same places. -/
theorem exists_buildsTo_again :
    ∃ fs₂, (∀ loc, fs₂.entryAt? loc = fs₁.entryAt? loc) ∧
      ∀ built fs', BuildsTo config directory given fs₁ built fs' ↔
        (¬ IsShallow fs₁ directory ∧ built = .error .tooDeep ∧ fs' = fs₁) ∨
        (IsShallow fs₁ directory ∧ isTooLong config = true ∧ b.collection.workflows ≠ [] ∧
          built = .error .waitTooLong ∧ fs' = fs₁) ∨
        (IsShallow fs₁ directory ∧ built = .ok b ∧ fs' = fs₂) := by
  cases h with
  | @built paths c places _ journal _ hdiscover hcompile hemit =>
    obtain ⟨hkeeps, fs₂, hagain, hnothing⟩ :=
      exists_endsIn_emit (w := ⟨fs, journal⟩) hfs hnames htmp hemit
    obtain ⟨hfound, hlost⟩ := Manifest.discover_again
      (s := ⟨fs, directory, config.suffixes, config.maxFiles.1, config.followLinks⟩)
      hkeeps hfs hdiscover hlisted
    refine ⟨fs₂, hnothing, fun built fs' => ?_⟩
    by_cases hshallow : IsShallow fs₁ directory
    · rw [buildsTo_iff_of_discovered (hfound hshallow)
        (fun _ => compilesTo_again hfs hkeeps hdiscover hcompile) hagain]
      simp only [hshallow, not_true_eq_false, false_and, true_and, false_or, and_assoc]
    · rw [buildsTo_iff_of_undiscovered (hlost hshallow)]
      simp only [hshallow, not_false_eq_true, false_and, true_and, or_false]

/-- **Building again**, in all its ends.  Where there are no links, the second build fails
    where directories stand too far below the root, or else may fail to wait for manifests, and
    these failures leave everything as it is; otherwise it gives the same collection and the
    same places, and everything in the file system is as the first build has left it.  So
    **building again changes nothing**, exactly if the tree is a shallow one and no wait fails.

    The output directory may be anywhere, also in the tree of manifests; but no artifact may
    have the name of a manifest, `.tmp` may not be the suffix of one, and every directory has to
    be one that can still be listed.  The builds may be those of the program, which works on one
    manifest after the other, if it has time or succeeds. -/
theorem build_again :
    (∃ fs₂, (∀ loc, fs₂.entryAt? loc = fs₁.entryAt? loc) ∧
      ∀ built fs', BuildsTo config directory given fs₁ built fs' ↔
        (¬ IsShallow fs₁ directory ∧ built = .error .tooDeep ∧ fs' = fs₁) ∨
        (IsShallow fs₁ directory ∧ isTooLong config = true ∧ b.collection.workflows ≠ [] ∧
          built = .error .waitTooLong ∧ fs' = fs₁) ∨
        (IsShallow fs₁ directory ∧ built = .ok b ∧ fs' = fs₂)) ∧
    (Repeats config directory given fs₁ b ↔
      IsShallow fs₁ directory ∧ (isTooLong config = false ∨ b.collection.workflows = [])) ∧
    (∀ w : World, isOverAtOnce config = false ∨
        (∃ b', ((build config directory given).run.run w).1 = .ok b') →
      BuildsTo config directory given w.fs ((build config directory given).run.run w).1
        ((build config directory given).run.run w).2.fs) := by
  obtain ⟨fs₂, hnothing, hends⟩ := exists_buildsTo_again hfs hnames htmp h hlisted
  refine ⟨⟨fs₂, hnothing, hends⟩, ⟨fun hrepeats => ?_, ?_⟩, fun w hw => ?_⟩
  · have hshallow : IsShallow fs₁ directory := by
      by_contra hdeep
      cases (hrepeats.same _ _ ((hends _ _).2 (.inl ⟨hdeep, rfl, rfl⟩))).1
    refine ⟨hshallow, ?_⟩
    by_contra hwait
    rw [not_or, Bool.not_eq_false] at hwait
    cases (hrepeats.same _ _
      ((hends _ _).2 (.inr (.inl ⟨hshallow, hwait.1, hwait.2, rfl, rfl⟩)))).1
  · rintro ⟨hshallow, hwait⟩
    refine ⟨⟨_, _, (hends _ _).2 (.inr (.inr ⟨hshallow, rfl, rfl⟩))⟩, fun built fs' hbuilt => ?_⟩
    rcases (hends _ _).1 hbuilt with ⟨hdeep, -⟩ | ⟨-, hlong, hsome, -⟩ | ⟨-, rfl, rfl⟩
    · exact absurd hshallow hdeep
    · rcases hwait with hshort | hnone
      · rw [hshort] at hlong
        cases hlong
      · exact absurd hnone hsome
    · exact ⟨rfl, hnothing⟩
  · rcases hw with htime | ⟨b', hb'⟩
    · exact buildsTo_build htime w
    · rw [hb']
      exact buildsTo_of_ok (Prod.ext hb' rfl)

end

/-- A manifest in a directory that the artifacts are to be written into. -/
def innerOutput : FileSystem where
  entries := FileSystem.located
    [(["d"], .directory), (["d", "a.yaml"], .file "name: A\ncommand: ls\n".toUTF8)]
  workingDirectory := []

/-- The collection of that manifest. -/
def innerCollection : Collection :=
  (compilePaths innerOutput .usual [.ofString "d/a.yaml"]).outcome.toOption.getD .empty

theorem compilesTo_innerOutput :
    CompilesTo innerOutput .usual [.ofString "d/a.yaml"] (.ok innerCollection) := by
  have hok : (compilePaths innerOutput .usual
      [.ofString "d/a.yaml"]).outcome.toOption.isSome = true := by decide +kernel
  unfold innerCollection
  cases h : (compilePaths innerOutput .usual [.ofString "d/a.yaml"]).outcome with
  | error f =>
    rw [h] at hok
    cases hok
  | ok c => exact compilesTo_of_ok h

theorem canWrite_innerOutput : CanWrite (made (.ofString "d/out") innerOutput)
    (artifacts .usual innerCollection (.ofString "d/out")) := by
  have htexts : ∀ t ∈ (texts .usual innerCollection).list, t.utf8? ≠ none := by
    refine utf8_of_texts ?_ ?_ ?_ rfl <;> unfold Text.CodeText.IsWhole <;> decide +kernel
  exact canWrite_artifacts (by decide +kernel) htexts

/-- The first build can succeed, and the tree can be searched afterwards.  The texts are left as
    they stand: only where they go is evaluated. -/
theorem exists_emit_innerOutput :
    ∃ fs₁ journal, (emit .usual innerCollection (outputDirectory .usual (some "d/out"))).run.run
        ⟨innerOutput, []⟩ = (.ok (.inDirectory .usual (.ofString "d/out")), ⟨fs₁, journal⟩) ∧
      fs₁.Unlinked ∧
      (discover fs₁ .usual (.ofString "d")).outcome = .ok [.ofString "d/a.yaml"] := by
  have hz : (made (.ofString "d/out") innerOutput).Unlinked := by decide +kernel
  have hmade : IsMade (.ofString "d/out") innerOutput := by
    unfold IsMade
    decide +kernel
  have hruns : (runAll ((artifacts .usual innerCollection (.ofString "d/out")).map
      (put (made (.ofString "d/out") innerOutput)) ++
        laterEdits (made (.ofString "d/out") innerOutput)
          (artifacts .usual innerCollection (.ofString "d/out")))
      (made (.ofString "d/out") innerOutput)).map
        (fun fs => (discover fs .usual (.ofString "d")).outcome) =
      some (.ok [.ofString "d/a.yaml"]) := by decide +kernel
  obtain ⟨fs₁, hrun, hdiscover⟩ := Option.map_eq_some_iff.1 hruns
  have hwrite := (does_writeAll hz _).endsIn canWrite_innerOutput _ fs₁ (.refl hz) hrun
  have hemit : EndsIn (emit .usual innerCollection (outputDirectory .usual (some "d/out")))
      innerOutput (.ok (.inDirectory .usual (.ofString "d/out"))) fs₁ :=
    endsIn_emit_of_writeAll hmade hwrite
  obtain ⟨journal, hemitted⟩ := hemit []
  obtain ⟨hkeeps, -⟩ :=
    exists_endsIn_emit (w := ⟨innerOutput, []⟩) (by decide +kernel) (by decide +kernel)
      (by decide +kernel) hemitted
  exact ⟨fs₁, journal, hemitted, hkeeps.unlinked, hdiscover⟩

/-- The first build adds a directory to the tree of manifests, and the second changes nothing. -/
theorem build_again_innerOutput :
    innerOutput.Unlinked ∧
      (∀ n ∈ artifactNames .usual, isManifest Config.usual.suffixes (.ofString n) = false) ∧
      ↑".tmp" ∉ Config.usual.suffixes.map CodeText.lower ∧
      ∃ b fs₁, BuildsTo .usual (.ofString "d") (some "d/out") innerOutput (.ok b) fs₁ ∧
        (∀ d, (discover fs₁ .usual (.ofString "d")).outcome ≠
          .error (.error (Manifest.unlistable d))) ∧
        Repeats .usual (.ofString "d") (some "d/out") fs₁ b ∧
        ∃ w₂, (build .usual (.ofString "d") (some "d/out")).run.run ⟨fs₁, []⟩ = (.ok b, w₂) ∧
          ∀ loc, w₂.fs.entryAt? loc = fs₁.entryAt? loc := by
  have hfs : innerOutput.Unlinked := by decide +kernel
  have hnames : ∀ n ∈ artifactNames .usual,
      isManifest Config.usual.suffixes (.ofString n) = false := by decide +kernel
  have htmp : ↑".tmp" ∉ Config.usual.suffixes.map CodeText.lower := by decide +kernel
  obtain ⟨fs₁, journal, hemit, hfs₁, hdiscover⟩ := exists_emit_innerOutput
  have hbuilt : BuildsTo .usual (.ofString "d") (some "d/out") innerOutput
      (.ok ⟨innerCollection, .inDirectory .usual (.ofString "d/out")⟩) fs₁ :=
    .built (by decide +kernel) compilesTo_innerOutput hemit
  have hlisted : ∀ d, (discover fs₁ .usual (.ofString "d")).outcome ≠
      .error (.error (Manifest.unlistable d)) := by
    rw [hdiscover]
    nofun
  have hshallow : IsShallow fs₁ (.ofString "d") := Manifest.isShallow_of_discover
    (s := ⟨fs₁, .ofString "d", Config.usual.suffixes, Config.usual.maxFiles.1,
      Config.usual.followLinks⟩) hfs₁ hdiscover
  obtain ⟨-, hrepeats, hprogram⟩ := build_again hfs hnames htmp hbuilt hlisted
  have hsame := hrepeats.2 ⟨hshallow, .inl (by decide +kernel)⟩
  obtain ⟨hok, hnothing⟩ := hsame.same _ _ (hprogram ⟨fs₁, []⟩ (.inl (by decide +kernel)))
  exact ⟨hfs, hnames, htmp, _, fs₁, hbuilt, hlisted, hsame, _, Prod.ext hok rfl, hnothing⟩

/-- The same manifest, where the time limit is longer than can be waited: **it is built once, and
    then a wait for it fails.** -/
theorem not_repeats_innerOutput :
    ∃ b fs₁, isOverAtOnce patient = false ∧
      (∀ n ∈ artifactNames patient, isManifest patient.suffixes (.ofString n) = false) ∧
      ↑".tmp" ∉ patient.suffixes.map CodeText.lower ∧
      BuildsTo patient (.ofString "d") (some "d/out") innerOutput (.ok b) fs₁ ∧
      BuildsTo patient (.ofString "d") (some "d/out") fs₁ (.error .waitTooLong) fs₁ ∧
      ¬ Repeats patient (.ofString "d") (some "d/out") fs₁ b := by
  obtain ⟨fs₁, journal, hemit, -, hdiscover⟩ := exists_emit_innerOutput
  have hbuilt : BuildsTo patient (.ofString "d") (some "d/out") innerOutput
      (.ok ⟨innerCollection, .inDirectory .usual (.ofString "d/out")⟩) fs₁ :=
    .built (by decide +kernel) (compilesTo_innerOutput.congr fun _ _ => rfl) hemit
  have hwait : ¬ CanWait patient [Path.ofString "d/a.yaml"] :=
    not_canWait.2 ⟨by decide +kernel, List.cons_ne_nil _ _⟩
  have hfails : BuildsTo patient (.ofString "d") (some "d/out") fs₁ (.error .waitTooLong) fs₁ :=
    .uncompiled hdiscover (leadsTo_iff.2 (.inr ⟨hwait, rfl⟩))
  refine ⟨_, fs₁, by decide +kernel, by decide +kernel, by decide +kernel, hbuilt, hfails, ?_⟩
  intro hrepeats
  cases (hrepeats.same _ _ hfails).1

end WorkflowCatalog.Compiler
