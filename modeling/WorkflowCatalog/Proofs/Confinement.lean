/-
  WorkflowCatalog/Proofs/Confinement.lean
  =======================================
  **Emission keeps to its own files, and what it leaves behind.**  Artifacts with plain
  names, each staged under a name of its own, are written to their places in the output
  directory.  Where no link stands at a staging place, nothing else is touched but the
  directories that are made for the output directory, and an emission that succeeds leaves
  no staged file (`Confined`).

  An emission that fails can leave one: a text without a UTF-8 form is found out when its
  file has been opened, and this file is not removed.  It leaves no other, unless a target
  is a link on the way to the output directory, which is replaced by a file and blocks the
  way.  Main statement: `confined_and_tidy_iff`.
-/
import WorkflowCatalog.Proofs.Stopping

namespace WorkflowCatalog

/-! ### Directories that are made -/

namespace FileSystem

/-- The path is the other one, or one of those above it. -/
def IsAbove (p q : Path) : Prop := p.anchor = q.anchor ∧ p.names <+: q.names

/-- A directory stands where nothing was, and the path or one above it leads there. -/
structure IsMadeFor (directory : Path) (fs fs' : FileSystem) (l : Location) : Prop where
  before : fs.entryAt? l = none
  there : fs'.entryAt? l = some .directory
  leads : ∃ p, IsAbove p directory ∧ fs'.resolve true p.text = .ok (.present l .directory)

/-- Nothing is different but directories that have been made for a path. -/
structure MakesFor (directory : Path) (fs fs' : FileSystem) : Prop extends Grows fs fs' where
  entry : ∀ l, fs'.entryAt? l = fs.entryAt? l ∨ IsMadeFor directory fs fs' l

variable {directory p : Path} {fs fs' fs'' : FileSystem} {l loc : Location}

theorem IsAbove.parent (h : IsAbove p directory) : IsAbove p.parent directory :=
  ⟨h.1, (List.dropLast_prefix _).trans h.2⟩

theorem MakesFor.refl (directory : Path) (fs : FileSystem) : MakesFor directory fs fs :=
  ⟨.refl fs, fun _ => .inl rfl⟩

theorem MakesFor.trans (h : MakesFor directory fs fs') (h' : MakesFor directory fs' fs'') :
    MakesFor directory fs fs'' where
  toGrows := h.toGrows.trans h'.toGrows
  entry := by
    intro l
    rcases h.entry l with hsame | hmade
    · rw [← hsame]
      refine (h'.entry l).imp_right fun hmade => ⟨?_, hmade.there, hmade.leads⟩
      rw [← hsame]
      exact hmade.before
    · obtain ⟨q, hq, hleads⟩ := hmade.leads
      refine .inr ⟨hmade.before, ?_, q, hq, resolve_of_grows h'.toGrows hleads⟩
      rw [h'.keeps l (by rw [hmade.there]; nofun), hmade.there]

theorem makesFor_makeDirectory (fs : FileSystem) (hp : IsAbove p directory) :
    MakesFor directory fs ((Change.makeDirectory p.text).run.run fs).2 := by
  have hgrows := Change.makeDirectory_grows fs p.text
  rcases Change.makeDirectory_cases fs p.text with ⟨f, hrun⟩ | ⟨loc, hplace, hnone, hrun⟩ <;>
    rw [hrun] at hgrows ⊢
  · exact .refl directory fs
  refine ⟨hgrows, fun l => ?_⟩
  by_cases hl : l = loc
  · subst hl
    have hset := puts_set fs .directory (isPlace_of_place hplace).ne_root
    refine .inr ⟨hnone, hset.there, p, hp, ?_⟩
    have hlink : ∀ e ∈ (fs.set l .directory).entryAt? l, e.isLink = false := by
      rw [hset.there]
      rintro e ⟨⟩
      rfl
    -- the way to the place goes over entries, and where the directory is put is none
    have hway : ∀ x ∈ (fs.lookups false p.text).dropLast,
        (fs.set l .directory).entryAt? x = fs.entryAt? x := by
      intro x hx
      apply hset.elsewhere
      rintro rfl
      rcases isStep_of_place hplace x hx with hdir | ⟨target, hto⟩
      · rw [hnone] at hdir
        cases hdir
      · rw [hnone] at hto
        cases hto
    have htrail : (fs.set l .directory).trail true p.text =
        (fs.lookups false p.text, .ok ((fs.set l .directory).endAt l)) :=
      trail_of_place rfl hplace (fun _ => hlink) hway
    rw [← trail_snd, htrail, endAt_some hset.there]
  · exact .inl (entryAt_set_of_ne hl)

theorem makesFor_makeDirectories (directory : Path) (fs : FileSystem) :
    MakesFor directory fs ((Change.makeDirectories directory).run.run fs).2 :=
  Change.makePath_lift (fun fs _ hp => makesFor_makeDirectory fs hp) (fun _ => IsAbove.parent)
    (fun _ _ _ => MakesFor.trans) _ ⟨rfl, List.prefix_rfl⟩ fs

end FileSystem

namespace Artifact

open FileSystem Session
open Text (CodeText)

/-! ### Entries of the output directory -/

/-- The location of one of the names in the directory that a path leads to. -/
def IsEntryOf (fs : FileSystem) (directory : Path) (names : List String) (l : Location) : Prop :=
  ∃ dir, fs.resolve true directory.text = .ok (.present dir .directory) ∧
    ∃ n ∈ names, l = dir ++ [n]

/-- The location of a target in the output directory, once that is there. -/
def IsTarget (config : Config) (directory : Path) (fs : FileSystem) : Location → Prop :=
  IsEntryOf (made directory fs) directory (artifactNames config)

/-- The location in the output directory where a text is staged. -/
def IsStaging (config : Config) (directory : Path) (fs : FileSystem) : Location → Prop :=
  IsEntryOf (made directory fs) directory ((artifactNames config).map stagingName)

/-- The artifacts have plain names, all different, and none is staged under the name of one. -/
structure HasPlainNames (config : Config) : Prop where
  isPlain : ∀ n ∈ artifactNames config, IsName n ∧ n ≠ ".."
  nodup : (artifactNames config).Nodup
  ne_staging : ∀ n ∈ artifactNames config, ∀ m ∈ artifactNames config, n ≠ stagingName m

instance (config : Config) : Decidable (HasPlainNames config) :=
  decidable_of_iff
    ((∀ n ∈ artifactNames config, IsName n ∧ n ≠ "..") ∧ (artifactNames config).Nodup ∧
      ∀ n ∈ artifactNames config, ∀ m ∈ artifactNames config, n ≠ stagingName m)
    ⟨fun h => ⟨h.1, h.2.1, h.2.2⟩, fun h => ⟨h.isPlain, h.nodup, h.ne_staging⟩⟩

/-- The entry is as before, or a directory has been made there for the output directory. -/
def IsKept (directory : Path) (fs fs' : FileSystem) (l : Location) : Prop :=
  fs'.entryAt? l = fs.entryAt? l ∨
    (IsMadeFor directory fs (made directory fs) l ∧ fs'.entryAt? l = some .directory)

/-- Emission touches its own files only, and gets them right if it succeeds. -/
structure Confined (config : Config) (c : Collection) (directory : Path) (w : World) : Prop where
  kept : ∀ l, ¬ IsTarget config directory w.fs l → ¬ IsStaging config directory w.fs l →
    IsKept directory w.fs ((emit config c directory).run.run w).2.fs l
  /-- No target is touched before all texts are staged. -/
  unstaged : ¬ AllStaged config c directory w → ∀ l, ¬ IsStaging config directory w.fs l →
    IsKept directory w.fs ((emit config c directory).run.run w).2.fs l
  written : ∀ places w', (emit config c directory).run.run w = (.ok places, w') →
    ∀ a ∈ artifacts config c directory, ∃ bytes, a.2.utf8? = some bytes ∧
      w'.fs.seen? false a.1.text = some (.file bytes)
  cleared : ∀ places w', (emit config c directory).run.run w = (.ok places, w') →
    ∀ l, IsStaging config directory w.fs l → w'.fs.entryAt? l = none

/-- Every staged file that is there after emission was there before it. -/
def Tidy (config : Config) (c : Collection) (directory : Path) (w : World) : Prop :=
  ∀ l, IsStaging config directory w.fs l → ∀ bytes,
    ((emit config c directory).run.run w).2.fs.entryAt? l = some (.file bytes) →
      ∃ bytes', w.fs.entryAt? l = some (.file bytes')

/-- No target is a link that is met on the way to the output directory. -/
def KeepsWay (config : Config) (directory : Path) (fs : FileSystem) : Prop :=
  ∀ l, IsTarget config directory fs l →
    (∃ target, (made directory fs).entryAt? l = some (.link target)) →
      l ∉ (made directory fs).lookups true directory.text

section

variable {fs fs' : FileSystem} {config : Config} {directory p : Path} {dir l : Location}
  {n m : String} {a : Path × CodeText}

theorem stagingName_inj (h : stagingName n = stagingName m) : n = m := by
  have hlist := congrArg String.toList h
  rw [toList_stagingName, toList_stagingName] at hlist
  exact String.toList_inj.1 (List.append_cancel_right (List.cons.inj hlist).2)

/-- The place of a name is in the directory. -/
theorem place_in (hn : IsName n)
    (hdir : fs.resolve true directory.text = .ok (.present dir .directory))
    (hl : fs.place? (directory / .ofString n).text = some l) : l = dir ++ [n] := by
  obtain ⟨dir', hdir', rfl, -⟩ := place_join hn hl
  rw [hdir] at hdir'
  cases hdir'
  rfl

theorem isEntryOf_place {names : List String} (hn : IsName n) (hmem : n ∈ names)
    (hl : fs.place? (directory / .ofString n).text = some l) : IsEntryOf fs directory names l := by
  obtain ⟨dir, hdir, heq, -⟩ := place_join hn hl
  exact ⟨dir, hdir, n, hmem, heq⟩

theorem mem_paths : p ∈ (Places.inDirectory config directory).paths ↔
    ∃ n ∈ artifactNames config, directory / .ofString n = p := by
  rw [paths_inDirectory]
  exact List.mem_map

/-! ### Plain names -/

variable (hplain : HasPlainNames config)

include hplain

theorem isEntryOf_stagingPlace
    (h : IsStagingPlace fs (Places.inDirectory config directory).paths l) :
    IsEntryOf fs directory ((artifactNames config).map stagingName) l := by
  obtain ⟨t, ht, hl⟩ := h
  obtain ⟨n, hn, rfl⟩ := mem_paths.1 ht
  obtain ⟨s, hs, hplace⟩ := mem_stagingPlace.1 hl
  have hname := (hplain.isPlain n hn).1
  rw [stagingPath_of_name directory hname] at hs
  cases hs
  exact isEntryOf_place (isName_stagingName hname) (List.mem_map_of_mem hn) hplace

theorem isEntryOf_writtenPlace
    (h : IsWrittenPlace fs (Places.inDirectory config directory).paths l) :
    IsEntryOf fs directory (artifactNames config) l ∨
      IsEntryOf fs directory ((artifactNames config).map stagingName) l := by
  obtain ⟨t, ht, howns⟩ := h
  by_cases hstaging : l ∈ stagingPlace? fs t
  · exact .inr (isEntryOf_stagingPlace hplain ⟨t, ht, hstaging⟩)
  · obtain ⟨n, hn, rfl⟩ := mem_paths.1 ht
    refine .inl (isEntryOf_place (hplain.isPlain n hn).1 hn ?_)
    by_contra hplace
    exact not_owns hplace hstaging howns

theorem stagesBeside_of_plain : StagesBeside fs (Places.inDirectory config directory).paths := by
  intro t ht u hu l hstaging hplace
  obtain ⟨dir, hdir, n, hn, rfl⟩ := isEntryOf_stagingPlace hplain ⟨t, ht, hstaging⟩
  obtain ⟨m, hm, rfl⟩ := mem_paths.1 hu
  obtain ⟨n', hn', rfl⟩ := List.mem_map.1 hn
  have heq := place_in (hplain.isPlain m hm).1 hdir hplace
  have hnames : stagingName n' = m := by simpa using heq
  exact hplain.ne_staging m hm n' hn' hnames.symm

end

/-! ### What is kept -/

section

variable {fs fs₁ fs' : FileSystem} {config : Config} {c : Collection} {directory : Path}
  {w w' : World} {places : Places} {dir l : Location} {n : String} {a b : Path × CodeText}

/-- What is as it was when the output directory had been made is kept. -/
theorem isKept_of_made (h : fs'.entryAt? l = (made directory fs).entryAt? l) :
    IsKept directory fs fs' l := by
  rcases (makesFor_makeDirectories directory fs).entry l with hsame | hmade
  · exact .inl (h.trans hsame)
  · exact .inr ⟨hmade, h.trans hmade.there⟩

/-- A file that is there when the output directory has been made was there before. -/
theorem file_of_made {bytes : ByteArray}
    (h : (made directory fs).entryAt? l = some (.file bytes)) :
    fs.entryAt? l = some (.file bytes) := by
  rcases (makesFor_makeDirectories directory fs).entry l with hsame | hmade
  · exact hsame.symm.trans h
  · cases hmade.there.symm.trans h

/-- There is an artifact for every name. -/
theorem exists_artifact (c : Collection) (directory : Path) (hn : n ∈ artifactNames config) :
    ∃ a ∈ artifacts config c directory, a.1 = directory / .ofString n := by
  have hmem : directory / .ofString n ∈ (artifacts config c directory).map (·.1) := by
    rw [map_fst_artifacts]
    exact mem_paths.2 ⟨n, hn, rfl⟩
  exact List.mem_map.1 hmem

/-- A text is staged under the staging name of its artifact. -/
theorem stagedAt_of_name (hn : IsName n) (hpath : a.1 = directory / .ofString n)
    (hstaging : HasStaging fs a)
    (hdir : fs.resolve true directory.text = .ok (.present dir .directory)) :
    stagedAt fs a = dir ++ [stagingName n] := by
  have hs := hstaging.path
  have hplace := hstaging.place
  rw [hpath, stagingPath_of_name directory hn] at hs
  rw [hpath, ← Option.some.inj hs] at hplace
  exact place_in (isName_stagingName hn) hdir hplace

variable (hplain : HasPlainNames config)

include hplain

/-- Artifacts that are staged at one place are one. -/
theorem eq_of_stagedAt (ha : a ∈ artifacts config c directory)
    (hb : b ∈ artifacts config c directory) (hstaging : HasStaging fs a)
    (hstaging' : HasStaging fs b) (heq : stagedAt fs a = stagedAt fs b) : a = b := by
  have has := map_fst_artifacts config c directory
  have hmem := mem_of_map_eq has
  obtain ⟨dir, hdir, -⟩ :=
    isEntryOf_stagingPlace hplain ⟨a.1, hmem a ha, hstaging.mem_stagingPlace⟩
  obtain ⟨n, hn, hpath⟩ := mem_paths.1 (hmem a ha)
  obtain ⟨m, hm, hpath'⟩ := mem_paths.1 (hmem b hb)
  have hnames : stagingName n = stagingName m := by
    rw [stagedAt_of_name (hplain.isPlain n hn).1 hpath.symm hstaging hdir,
      stagedAt_of_name (hplain.isPlain m hm).1 hpath'.symm hstaging' hdir] at heq
    simpa using heq
  have hsame : a.1 = b.1 := by rw [← hpath, ← hpath', stagingName_inj hnames]
  have hnodup : ((artifacts config c directory).map (·.1)).Nodup := by
    rw [has, paths_inDirectory]
    refine hplain.nodup.map_on fun x hx y hy hxy => ?_
    have hname := congrArg Path.name hxy
    rwa [name_of_join directory (hplain.isPlain x hx).1,
      name_of_join directory (hplain.isPlain y hy).1] at hname
  exact List.inj_on_of_nodup_map hnodup ha hb hsame

/-! ### Emission is confined -/

variable (hunlinked : ∀ l, IsStaging config directory w.fs l →
  ∀ e ∈ w.fs.entryAt? l, e.isLink = false)

include hunlinked

omit hplain in
/-- No link comes with the output directory. -/
theorem unlinked_made : ∀ l, IsStaging config directory w.fs l →
    ∀ e ∈ (made directory w.fs).entryAt? l, e.isLink = false := by
  intro l hl e he
  rcases (makesFor_makeDirectories directory w.fs).entry l with hsame | hmade
  · exact hunlinked l hl e (hsame ▸ he)
  · cases hmade.there.symm.trans he
    rfl

theorem stagesUnlinked_made :
    StagesUnlinked (made directory w.fs) (Places.inDirectory config directory).paths :=
  fun t ht l hl => unlinked_made hunlinked l (isEntryOf_stagingPlace hplain ⟨t, ht, hl⟩)

/-- **Emission keeps to its own files.** -/
theorem confined_of_plain (c : Collection) : Confined config c directory w := by
  have hstages := stagesUnlinked_made hplain hunlinked
  constructor
  case kept =>
    intro l htarget hstaging
    apply isKept_of_made
    apply (touches_emit hstages).elsewhere
    intro hwritten
    exact (isEntryOf_writtenPlace hplain hwritten).elim htarget hstaging
  case unstaged =>
    intro hunstaged l hstaging
    apply isKept_of_made
    apply (touches_emit_unstaged hstages hunstaged).elsewhere
    exact fun hplace => hstaging (isEntryOf_stagingPlace hplain hplace)
  case written =>
    intro places w' hrun
    exact (completes_of_emit hstages hrun).2.held (stagesBeside_of_plain hplain)
  case cleared =>
    rintro places w' hrun l ⟨dir, hdir, x, hx, rfl⟩
    obtain ⟨n, hn, rfl⟩ := List.mem_map.1 hx
    have hdone := (completes_of_emit hstages hrun).2
    obtain ⟨a, ha, hpath⟩ := exists_artifact c directory hn
    rw [← stagedAt_of_name (hplain.isPlain n hn).1 hpath (hdone.hasStaging a ha) hdir]
    exact hdone.cleared a ha

/-! ### What is left -/

/-- Nothing that is written stands on the way to a staged text. -/
theorem undisturbed_of_plain (hway : KeepsWay config directory w.fs) :
    Undisturbed (made directory w.fs) (Places.inDirectory config directory).paths where
  unlinked := stagesUnlinked_made hplain hunlinked
  ways := by
    intro t ht s hs l hl p hp hplace
    obtain ⟨n, hn, rfl⟩ := mem_paths.1 ht
    obtain ⟨u, hu, hpu⟩ := List.mem_flatMap.1 hp
    have hname := (hplain.isPlain n hn).1
    rw [stagingPath_of_name directory hname] at hs
    cases hs
    have hentry := isEntryOf_writtenPlace hplain ⟨u, hu, p, hpu, hplace⟩
    obtain ⟨dir, hdir⟩ : ∃ dir, (made directory w.fs).resolve true directory.text =
        .ok (.present dir .directory) := by
      rcases hentry with ⟨dir, hdir, -⟩ | ⟨dir, hdir, -⟩ <;> exact ⟨dir, hdir⟩
    have hlook : IsPlain (made directory w.fs) dir (stagingName n) :=
      ⟨isName_stagingName hname, stagingName_ne_up n,
        unlinked_made hunlinked _ ⟨dir, hdir, _, List.mem_map_of_mem hn, rfl⟩⟩
    rcases mem_lookups hdir hlook hl with hbefore | rfl
    · -- of what is met on the way to a directory, only a link can be written over
      obtain ⟨e, he, hmet⟩ := isMet_of_lookup hdir l hbefore
      obtain ⟨target, rfl⟩ : ∃ target, e = .link target := by
        cases e with
        | file bytes => simp [Entry.isLink] at hmet
        | directory => exact absurd he (isPlace_of_place hplace).noDirectory
        | link target => exact ⟨target, rfl⟩
      rcases hentry with htarget | hstaging
      · exact absurd hbefore (hway l htarget ⟨target, he⟩)
      · exact absurd (unlinked_made hunlinked l hstaging _ he) Bool.noConfusion
    · obtain ⟨m, hm, rfl⟩ := mem_paths.1 hu
      have hm' := (hplain.isPlain m hm).1
      rw [writtenPaths_of_name directory hm'] at hpu
      obtain ⟨x, hx, rfl⟩ := List.mem_map.1 hpu
      have hx' : IsName x := by
        rcases List.mem_pair.1 hx with rfl | rfl
        · exact hm'
        · exact isName_stagingName hm'
      have hsame : stagingName n = x := by simpa using place_in hx' hdir hplace
      rwa [← hsame] at hplace

omit hunlinked

variable {r : Except Failure Unit} (hsettles :
  Settles (made directory w.fs) fs' (artifacts config c directory) r)

include hsettles

/-- An empty file is left where a text without a UTF-8 form has been staged. -/
theorem spoiled_of_settles
    (hl : l ∈ spoiled? (made directory w.fs) (artifacts config c directory)) :
    fs'.entryAt? l = some (.file .empty) := by
  obtain ⟨a, hstop, hplace⟩ := mem_spoiled.1 hl
  obtain ⟨ha, hfailure⟩ := mem_of_stop hstop
  obtain ⟨hstaging, rfl⟩ := hasStaging_of_mem hplace
  rw [hsettles.kept (by rw [hstop]; nofun), if_pos hl]
  -- what is staged in front of it has other places
  intro b hb heq
  obtain ⟨hmem, hnone⟩ := mem_front hb
  obtain rfl :=
    eq_of_stagedAt hplain ha hmem hstaging (hasStaging_of_not_failure hnone).1 heq
  rw [hnone] at hfailure
  cases hfailure

/-- No other file is left that was not there. -/
theorem left_of_settles {bytes : ByteArray} (hl : IsStaging config directory w.fs l)
    (hfile : fs'.entryAt? l = some (.file bytes)) :
    l ∈ spoiled? (made directory w.fs) (artifacts config c directory) ∨
      w.fs.entryAt? l = some (.file bytes) := by
  have hother : ∀ a ∈ front (made directory w.fs) (artifacts config c directory),
      l ≠ stagedAt (made directory w.fs) a := by
    rintro a ha rfl
    rw [hsettles.cleared a ha] at hfile
    cases hfile
  by_cases hstop : stop? (made directory w.fs) (artifacts config c directory) = none
  · -- all texts have been staged
    obtain ⟨dir, hdir, x, hx, rfl⟩ := hl
    obtain ⟨n, hn, rfl⟩ := List.mem_map.1 hx
    obtain ⟨a, ha, hpath⟩ := exists_artifact c directory hn
    rw [← front_of_not_stop hstop] at ha
    have hstaging := (hasStaging_of_not_failure (mem_front ha).2).1
    exact absurd (stagedAt_of_name (hplain.isPlain n hn).1 hpath hstaging hdir).symm
      (hother a ha)
  · rw [hsettles.kept hstop l hother] at hfile
    split at hfile
    · rename_i hspoiled
      exact .inl hspoiled
    · exact .inr (file_of_made hfile)

end

section

variable {config : Config} {c : Collection} {directory : Path} {w : World} {fs' : FileSystem}

theorem tidy_of_endsIn {r : Except Failure Places}
    (h : EndsIn (emit config c directory) w.fs r fs') :
    Tidy config c directory w ↔ ∀ l, IsStaging config directory w.fs l → ∀ bytes,
      fs'.entryAt? l = some (.file bytes) → ∃ bytes', w.fs.entryAt? l = some (.file bytes') := by
  obtain ⟨journal', hrun⟩ := h w.journal
  unfold Tidy
  change (emit config c directory).run.run w = _ at hrun
  rw [hrun]

variable (hplain : HasPlainNames config) (hunlinked : ∀ l, IsStaging config directory w.fs l →
  ∀ e ∈ w.fs.entryAt? l, e.isLink = false)

include hplain hunlinked

/-- **Emission leaves no staged file** exactly if it does not stop at a text without a UTF-8
    form, or a file was there where this is staged. -/
theorem tidy_iff (hway : KeepsWay config directory w.fs) :
    Tidy config c directory w ↔ (IsMade directory w.fs →
      ∀ l ∈ spoiled? (made directory w.fs) (artifacts config c directory),
        ∃ bytes, w.fs.entryAt? l = some (.file bytes)) := by
  by_cases hmade : IsMade directory w.fs
  · obtain ⟨r, fs', hend, hsettles⟩ :=
      endsIn_writeAll_steady (undisturbed_of_plain hplain hunlinked hway)
        (mem_of_map_eq (map_fst_artifacts config c directory))
    rw [tidy_of_endsIn (endsIn_emit_of_writeAll hmade hend)]
    constructor
    · intro h _ l hl
      obtain ⟨a, hstop, hplace⟩ := mem_spoiled.1 hl
      have hmem := mem_of_map_eq (map_fst_artifacts config c directory) a (mem_of_stop hstop).1
      exact h l (isEntryOf_stagingPlace hplain ⟨a.1, hmem, hplace⟩) _
        (spoiled_of_settles hplain hsettles hl)
    · intro h l hl bytes hfile
      rcases left_of_settles hplain hsettles hl hfile with hspoiled | hbefore
      · exact h hmade l hspoiled
      · exact ⟨bytes, hbefore⟩
  · obtain ⟨f, hend⟩ := endsIn_emit_of_not_isMade hmade
    rw [tidy_of_endsIn hend]
    exact ⟨fun _ h => absurd h hmade, fun _ l _ bytes hfile => ⟨bytes, file_of_made hfile⟩⟩

/-- **Emission touches its own files only**, and leaves no staged file unless it stops at a text
    without a UTF-8 form. -/
theorem confined_and_tidy_iff :
    Confined config c directory w ∧ (KeepsWay config directory w.fs →
      (Tidy config c directory w ↔ (IsMade directory w.fs →
        ∀ l ∈ spoiled? (made directory w.fs) (artifacts config c directory),
          ∃ bytes, w.fs.entryAt? l = some (.file bytes)))) :=
  ⟨confined_of_plain hplain hunlinked c, tidy_iff hplain hunlinked⟩

end

/-! ### Without links -/

section

variable {fs : FileSystem} {config : Config} {directory : Path} {l : Location} {e : Entry}

theorem isLink_of_unlinked (h : fs.Unlinked) (he : e ∈ fs.entryAt? l) : e.isLink = false := by
  cases e with
  | link target => exact absurd he (h.entryAt_ne_link target)
  | _ => rfl

/-- Where no links are, none is on the way to the output directory. -/
theorem keepsWay_of_unlinked (h : fs.Unlinked) : KeepsWay config directory fs := by
  have hmade : (made directory fs).Unlinked := (Change.makePath_adds _ directory h).unlinked
  rintro l - ⟨target, hlink⟩
  exact absurd hlink (hmade.entryAt_ne_link target)

end

/-- Emission into a directory that is made touches nothing else and leaves no staged file. -/
theorem confined_and_tidy_intoBlank :
    HasPlainNames .usual ∧
      (∀ l, IsStaging .usual generated blank l →
        ∀ e ∈ blank.entryAt? l, e.isLink = false) ∧
      KeepsWay .usual generated blank ∧
      Confined .usual .empty generated ⟨blank, []⟩ ∧
      Tidy .usual .empty generated ⟨blank, []⟩ := by
  have hplain : HasPlainNames .usual := by decide +kernel
  have hfs : blank.Unlinked := by decide
  have hunlinked : ∀ l, IsStaging .usual generated blank l →
      ∀ e ∈ blank.entryAt? l, e.isLink = false := fun _ _ _ => isLink_of_unlinked hfs
  obtain ⟨hconfined, htidy⟩ :=
    confined_and_tidy_iff (c := .empty) (w := ⟨blank, []⟩) hplain hunlinked
  refine ⟨hplain, hunlinked, keepsWay_of_unlinked hfs, hconfined,
    (htidy (keepsWay_of_unlinked hfs)).2 fun _ l hl => ?_⟩
  obtain ⟨a, hstop, -⟩ := mem_spoiled.1 hl
  obtain ⟨ha, hfailure⟩ := mem_of_stop hstop
  exact absurd (utf8_of_notEncodable hfailure)
    (utf8_of_empty rfl a.2 (List.of_mem_zip ha).2)

/-- The collection of a workflow whose name is half a surrogate pair. -/
def halfNamed : Collection :=
  .ofWorkflows [{
    name := ⟨(Text.CodePoint.ofNumber? 0xd800).toList⟩, command := "", description := none,
    tags := none, arguments := none, sourceUrl := none, author := none, authorUrl := none,
    shells := none, slug := .ofFilename "a.yaml" }]

/-- Emission stops at the data module, and leaves the file that it has opened for it. -/
theorem not_tidy_halfNamed :
    HasPlainNames .usual ∧
      (∀ l, IsStaging .usual generated blank l → blank.entryAt? l = none) ∧
      ¬ Tidy .usual halfNamed generated ⟨blank, []⟩ := by
  have hplain : HasPlainNames .usual := by decide +kernel
  have hfs : blank.Unlinked := by decide
  have hnone : ∀ l, IsStaging .usual generated blank l → blank.entryAt? l = none := by
    rintro l ⟨dir, -, n, -, rfl⟩
    simp [entryAt?, entryUp?, blank]
  refine ⟨hplain, hnone, fun h => ?_⟩
  have hs : stagingPath? (Places.inDirectory .usual generated).data =
      some (.ofString "generated/.workflows.ts.tmp") := by decide +kernel
  have hl : (made generated blank).place? (Path.ofString "generated/.workflows.ts.tmp").text =
      some ["generated", ".workflows.ts.tmp"] := by decide +kernel
  have htext : (texts .usual halfNamed).data.utf8? = none := by
    rw [← Option.isNone_iff_eq_none]
    decide +kernel
  have hends : IsStagingEnd (made generated blank)
      ((Places.inDirectory .usual generated).data, (texts .usual halfNamed).data) _ :=
    .notEncodable hs hl htext
  have hspoiled : ["generated", ".workflows.ts.tmp"] ∈
      spoiled? (made generated blank) (artifacts .usual halfNamed generated) :=
    mem_spoiled.2 ⟨_, stop_cons_of_failure hends.eq, mem_stagingPlace.2 ⟨_, hs, hl⟩⟩
  obtain ⟨bytes, hbefore⟩ := (tidy_iff (w := ⟨blank, []⟩) hplain
    (fun _ _ _ => isLink_of_unlinked hfs) (keepsWay_of_unlinked hfs)).1 h isMade_blank _ hspoiled
  cases hbefore

end Artifact

end WorkflowCatalog
