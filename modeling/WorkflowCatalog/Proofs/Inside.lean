/-
  WorkflowCatalog/Proofs/Inside.lean
  ==================================
  **Which artifact names keep emission inside the output directory.**  A name is any text.  It
  is taken as a path from the output directory, and the text of the artifact is staged beside
  the file that this path leads to.  So a name with directories that never lead above the
  output directory keeps both inside, if no links are there (`staysInside_of_leadsInside`).

  Any other name leads elsewhere from some output directory, if a file can be there at all:
  a name that leads up, one that starts at the root, and an empty one, whose text is staged
  beside the output directory (`exists_not_staysInside`).  Main statement: `staysInside_iff`.
-/
import WorkflowCatalog.Proofs.Confinement
import WorkflowCatalog.Proofs.Descent

namespace WorkflowCatalog.Artifact

open FileSystem Session
open Text (CodeText)

/-! ### Inside the output directory -/

/-- A location below the output directory, once that is there. -/
def InOutput (directory : Path) (fs : FileSystem) (l : Location) : Prop :=
  ∃ dir, (made directory fs).resolve true directory.text = .ok (.present dir .directory) ∧
    dir <+: l ∧ l ≠ dir

/-- The output directory holds no links. -/
def HoldsNoLinks (directory : Path) (fs : FileSystem) : Prop :=
  ∀ l, InOutput directory fs l → ∀ e ∈ fs.entryAt? l, e.isLink = false

/-- Emission leaves everything outside the output directory as it is, but for the directories
    that are made for it. -/
def StaysInside (config : Config) (c : Collection) (directory : Path) (w : World) : Prop :=
  ∀ l, ¬ InOutput directory w.fs l →
    IsKept directory w.fs ((emit config c directory).run.run w).2.fs l

/-- A relative path with a last name, whose directories never lead above where it starts. -/
structure LeadsInside (n : String) : Prop where
  isRelative : (Path.ofString n).anchor = .relative
  isNamed : (Path.ofString n).names ≠ []
  below : Path.depth? (Path.ofString n).parent.names ≠ none

instance (n : String) : Decidable (LeadsInside n) :=
  decidable_of_iff ((Path.ofString n).anchor = .relative ∧ (Path.ofString n).names ≠ [] ∧
      Path.depth? (Path.ofString n).parent.names ≠ none)
    ⟨fun h => ⟨h.1, h.2.1, h.2.2⟩, fun h => ⟨h.isRelative, h.isNamed, h.below⟩⟩

/-- There can be a file where the text of an artifact of the name is staged. -/
def CanBeStaged (n : String) : Prop :=
  ((Path.ofString n).anchor = .relative ∧ (Path.ofString n).names = []) ∨
    ∃ s, stagingPath? (.ofString n) = some s ∧ CanBeFile s

section

variable {fs : FileSystem} {config : Config} {directory : Path} {dir l : Location} {n m : String}
  {w : World}

/-! ### Names that lead inside -/

/-- No link comes with the output directory. -/
theorem hasNoLinkBelow_made (hlinks : HoldsNoLinks directory fs)
    (hdir : (made directory fs).resolve true directory.text = .ok (.present dir .directory)) :
    (made directory fs).HasNoLinkBelow dir := by
  intro l hbelow hne e he
  rcases (makesFor_makeDirectories directory fs).entry l with hsame | hmade
  · exact hlinks l ⟨dir, hdir, hbelow, hne⟩ e (hsame ▸ he)
  · cases hmade.there.symm.trans he
    rfl

/-- **What is in the directory of an artifact is inside.** -/
theorem inOutput_of_parent (hn : LeadsInside n) (hlinks : HoldsNoLinks directory fs)
    (hdir : (made directory fs).resolve true (directory / .ofString n).parent.text =
      .ok (.present dir .directory)) : InOutput directory fs (dir ++ [m]) := by
  obtain ⟨d, hd⟩ := Option.ne_none_iff_exists'.1 hn.below
  obtain ⟨below, -, hwalk⟩ := walk_of_depth hd
  have hrelative : (Path.ofString n).parent.anchor = .relative := hn.isRelative
  obtain ⟨hanchor, hnames⟩ := Path.join_relative directory hrelative
  rw [Path.parent_join directory hn.isRelative hn.isNamed] at hdir
  obtain ⟨top, htop, rfl⟩ :=
    resolve_below hanchor hnames hd (fun _ => hasNoLinkBelow_made hlinks) hdir
  rw [hwalk, List.append_assoc]
  exact ⟨top, htop, List.prefix_append _ _, by simp⟩

section

variable (hnames : ∀ n ∈ artifactNames config, LeadsInside n) (hlinks : HoldsNoLinks directory fs)

include hnames hlinks

theorem inOutput_of_stagingPlace
    (h : IsStagingPlace (made directory fs) (Places.inDirectory config directory).paths l) :
    InOutput directory fs l := by
  obtain ⟨t, ht, hl⟩ := h
  obtain ⟨n, hn, rfl⟩ := mem_paths.1 ht
  obtain ⟨s, hs, hplace⟩ := mem_stagingPlace.1 hl
  obtain ⟨dir, hdir, rfl, -⟩ := place_staging hs hplace
  exact inOutput_of_parent (hnames n hn) hlinks hdir

theorem inOutput_of_writtenPlace
    (h : IsWrittenPlace (made directory fs) (Places.inDirectory config directory).paths l) :
    InOutput directory fs l := by
  obtain ⟨t, ht, howns⟩ := h
  by_cases hstaging : l ∈ stagingPlace? (made directory fs) t
  · exact inOutput_of_stagingPlace hnames hlinks ⟨t, ht, hstaging⟩
  · obtain ⟨n, hn, rfl⟩ := mem_paths.1 ht
    have hplace : l ∈ (made directory fs).place? (directory / .ofString n).text := by
      by_contra hplace
      exact not_owns hplace hstaging howns
    obtain ⟨dir, hdir, rfl, -⟩ := place_parent hplace
    exact inOutput_of_parent (hnames n hn) hlinks hdir

theorem stagesUnlinked_of_leadsInside :
    StagesUnlinked (made directory fs) (Places.inDirectory config directory).paths := by
  intro t ht l hl
  obtain ⟨dir, hdir, hbelow, hne⟩ := inOutput_of_stagingPlace hnames hlinks ⟨t, ht, hl⟩
  exact hasNoLinkBelow_made hlinks hdir l hbelow hne

end

/-- **Emission stays inside, if all names lead inside.** -/
theorem staysInside_of_leadsInside (hnames : ∀ n ∈ artifactNames config, LeadsInside n)
    (c : Collection) (hlinks : HoldsNoLinks directory w.fs) :
    StaysInside config c directory w := by
  intro l hout
  apply isKept_of_made
  apply (touches_emit (stagesUnlinked_of_leadsInside hnames hlinks)).elsewhere
  intro hwritten
  exact hout (inOutput_of_writtenPlace hnames hlinks hwritten)

/-! ### Names that lead elsewhere -/

/-- Where no links are, what is written stands on no way to a text that is staged. -/
theorem undisturbed_of_unlinked {targets : List Path} (hfs : fs.Unlinked)
    (hplaces : ∀ t ∈ targets, (stagingPlace? fs t).isSome = true) : Undisturbed fs targets where
  unlinked := fun _ _ _ _ _ => isLink_of_unlinked hfs
  ways := by
    intro t ht s hs l hl p _ hplace
    obtain ⟨x, hx⟩ := Option.isSome_iff_exists.1 (hplaces t ht)
    obtain ⟨s', hs', hplace'⟩ := mem_stagingPlace.1 hx
    rw [Option.mem_def, hs'] at hs
    cases hs
    have hlast := (isPlace_of_place hplace').last
    have hlooks := List.dropLast_append_getLast? x hlast
    rw [← hlooks, List.mem_append, List.mem_singleton] at hl
    rcases hl with hway | rfl
    · -- the way goes over directories
      rcases isStep_of_place hplace' l hway with hdir | ⟨target, hlink⟩
      · exact absurd hdir (isPlace_of_place hplace).noDirectory
      · exact absurd hlink (hfs.entryAt_ne_link target)
    · exact hplace'

/-- **A file elsewhere is removed** by emission, if a text is staged where it is. -/
theorem not_staysInside_of_file {c : Collection} {top : Location} {t : Path} {bytes : ByteArray}
    (hfs : fs.Unlinked) (hthere : fs.find true directory.text = .ok (top, .directory))
    (hplaces : ∀ t ∈ (Places.inDirectory config directory).paths,
      (stagingPlace? fs t).isSome = true)
    (htexts : ∀ t ∈ (texts config c).list, t.utf8? ≠ none)
    (ht : t ∈ (Places.inDirectory config directory).paths) (hl : l ∈ stagingPlace? fs t)
    (hfile : fs.entryAt? l = some (.file bytes)) (hout : ¬ top <+: l) :
    ¬ StaysInside config c directory ⟨fs, []⟩ := by
  have hmake := Change.makeDirectories_of_find hfs hthere
  have hmade : made directory fs = fs := congrArg Prod.snd hmake
  have hisMade : IsMade directory fs := congrArg Prod.fst hmake
  have hcan := canStage_artifacts hplaces htexts
  have hnone : ∀ a ∈ artifacts config c directory, stagingFailure? fs a = none := by
    intro a ha
    obtain ⟨hs, hplace, htext⟩ := canStage_iff.1 (hcan a ha)
    exact (IsStagingEnd.staged hs hplace htext).eq
  have hpaths := map_fst_artifacts config c directory
  obtain ⟨r, fs', hend, hsettles⟩ :=
    endsIn_writeAll_steady (undisturbed_of_unlinked hfs hplaces) (mem_of_map_eq hpaths)
  rw [← hpaths] at ht
  obtain ⟨a, ha, rfl⟩ := List.mem_map.1 ht
  have hfront : a ∈ front fs (artifacts config c directory) := by
    rw [front_of_not_stop]
    · exact ha
    · unfold stop?
      rw [List.findSome?_eq_none_iff]
      intro b hb
      rw [hnone b hb]
      rfl
  have hcleared := hsettles.cleared a hfront
  rw [(hasStaging_of_mem hl).2] at hcleared
  have hnot : ¬ InOutput directory fs l := by
    rintro ⟨dir, hdir, hbelow, -⟩
    obtain ⟨hcomes, hentry⟩ := (find_eq_ok_iff hfs).1 hthere
    rw [hmade, hcomes.resolve hfs, endAt_some hentry] at hdir
    cases hdir
    exact hout hbelow
  intro h
  have hkept := h l hnot
  obtain ⟨journal, hrun⟩ := endsIn_emit_of_writeAll hisMade (hmade.symm ▸ hend) []
  change (emit config c directory).run.run ⟨fs, []⟩ = _ at hrun
  rw [hrun] at hkept
  rcases hkept with hsame | ⟨hnew, -⟩
  · dsimp only at hsame
    rw [hcleared, hfile] at hsame
    cases hsame
  · rw [hnew.before] at hfile
    cases hfile

end

/-- Settings by which all artifacts have one name. -/
def sharing (n : Validation.SomeText) : Config :=
  { Config.usual with dataFile := n, typesFile := n, searchIndexFile := n }

theorem eq_of_mem_sharing {n : Validation.SomeText} {m : String}
    (h : m ∈ artifactNames (sharing n)) : m = n.1 := by
  simpa [artifactNames, sharing, Config.usual] using h

/-- Settings by which a JSON schema is written under a name. -/
def withSchema (n : String) : Config := { Config.usual with schemaFile := some n }

theorem artifactNames_withSchema (n : String) :
    artifactNames (withSchema n) = artifactNames .usual ++ [n] := rfl

/-- A directory, and a file beside it that is called like what is staged for the directory. -/
def beside : FileSystem where
  entries := FileSystem.located [(["r"], .directory), ([".r.tmp"], .file .empty)]
  workingDirectory := []

section

variable {n : String} {s : Path}

theorem dot_join (p : Path) : Path.ofString "." / p = p := by
  have hdot : Path.ofString "." = ⟨.relative, [], nofun⟩ := by decide +kernel
  rw [hdot]
  obtain ⟨a, names, hnames⟩ := p
  cases a <;> rfl

/-- A text is staged in the directory of its target, under a name that does not lead up. -/
theorem staging_beside {t : Path} (hs : stagingPath? t = some s) :
    t.names ≠ [] ∧ s.names ≠ [] ∧ s.name ≠ ".." ∧ s.anchor = t.anchor ∧ s.parent = t.parent := by
  obtain ⟨hname, rfl⟩ := stagingPath_eq_some hs
  have hstaging := isName_stagingName hname
  obtain ⟨hanchor, hnames⟩ := join_name t.parent hstaging
  refine ⟨?_, by simp [hnames], ?_, hanchor, parent_of_join _ hstaging⟩
  · intro hnil
    refine hname.1 ?_
    unfold Path.name
    rw [hnil]
    rfl
  · rw [name_of_join _ hstaging]
    exact stagingName_ne_up _

/-- A name that does not lead inside leads a staged text elsewhere. -/
theorem exists_not_staysInside_named (hs : stagingPath? (.ofString n) = some s) (hcan : CanBeFile s)
    (hn : ¬ LeadsInside n) (hne : n ≠ "") :
    ∃ fs : FileSystem, fs.Unlinked ∧
      ¬ StaysInside (sharing ⟨n, hne⟩) .empty (.ofString ".") ⟨fs, []⟩ := by
  obtain ⟨hnamed, hstagingNamed, hup, hanchor, hparent⟩ := staging_beside hs
  -- a relative name has a last name here, so it is its directories that lead above
  have habove : s.anchor = .relative → Path.depth? s.parent.names = none := by
    intro hrelative
    rw [hanchor] at hrelative
    rw [hparent]
    by_contra hdepth
    exact hn ⟨hrelative, hnamed, hdepth⟩
  obtain ⟨fs, top, l, hfs, hthere, hplace, hfile, hout⟩ :=
    exists_elsewhere hcan hstagingNamed hup habove
  have hl := mem_stagingPlace.2 ⟨_, hs, hplace⟩
  have hpaths : ∀ t ∈ (Places.inDirectory (sharing ⟨n, hne⟩) (.ofString ".")).paths,
      t = Path.ofString n := by
    intro t ht
    obtain ⟨m, hm, rfl⟩ := mem_paths.1 ht
    rw [eq_of_mem_sharing hm, dot_join]
  have hmem : Path.ofString n ∈ (Places.inDirectory (sharing ⟨n, hne⟩) (.ofString ".")).paths :=
    mem_paths.2 ⟨n, by simp [artifactNames, sharing], dot_join _⟩
  have hdot : (Path.ofString ".").text = "." := by decide +kernel
  refine ⟨fs, hfs, not_staysInside_of_file hfs (hdot.symm ▸ hthere) (fun t ht => ?_)
    (utf8_of_empty rfl) hmem hl hfile hout⟩
  rw [hpaths t ht]
  exact Option.isSome_iff_exists.2 ⟨l, hl⟩

/-- Under a name without names, the text of a JSON schema is staged beside the output
    directory. -/
theorem not_staysInside_unnamed (hanchor : (Path.ofString n).anchor = .relative)
    (hnames : (Path.ofString n).names = []) :
    ¬ StaysInside (withSchema n) .empty (.ofString "r") ⟨beside, []⟩ := by
  have hpath : Path.ofString "r" / Path.ofString n = Path.ofString "r" := by
    obtain ⟨hanchor', hnames'⟩ := Path.join_relative (Path.ofString "r") hanchor
    rw [hnames, List.append_nil] at hnames'
    exact Path.eq_of_parts hanchor' hnames'
  have hpaths : (Places.inDirectory (withSchema n) (.ofString "r")).paths =
      (Places.inDirectory .usual (.ofString "r")).paths ++ [Path.ofString "r"] := by
    rw [paths_inDirectory, paths_inDirectory, artifactNames_withSchema, List.map_append,
      List.map_singleton, hpath]
  have hplaces : ∀ t ∈ (Places.inDirectory .usual (.ofString "r")).paths ++ [Path.ofString "r"],
      (stagingPlace? beside t).isSome = true := by decide +kernel
  have htexts : ∀ t ∈ (texts (withSchema n) .empty).list, t.utf8? ≠ none := by
    have hlist : (texts (withSchema n) .empty).list =
        (texts .usual .empty).list ++ [Json.document Schema.collectionSchema] := rfl
    intro t ht
    rw [hlist, List.mem_append, List.mem_singleton] at ht
    rcases ht with ht | rfl
    · exact utf8_of_empty rfl t ht
    · exact utf8_of_schema
  have hl : [".r.tmp"] ∈ stagingPlace? beside (.ofString "r") := by decide +kernel
  have hthere : beside.find true (Path.ofString "r").text = .ok (["r"], .directory) := by
    decide +kernel
  refine not_staysInside_of_file (by decide +kernel) hthere (hpaths ▸ hplaces) htexts ?_ hl rfl
    (by decide)
  rw [hpaths]
  simp

/-- **Any other name leads elsewhere**, beside names that lead inside, from some output directory
    in a file system without links. -/
theorem exists_not_staysInside (h : CanBeStaged n) (hn : ¬ LeadsInside n) :
    ∃ config directory, ∃ fs : FileSystem,
      (∀ m ∈ artifactNames config, m = n ∨ LeadsInside m) ∧ fs.Unlinked ∧
        ¬ StaysInside config .empty directory ⟨fs, []⟩ := by
  rcases h with ⟨hanchor, hnames⟩ | ⟨s, hs, hcan⟩
  · refine ⟨withSchema n, .ofString "r", beside, fun m hm => ?_, by decide +kernel,
      not_staysInside_unnamed hanchor hnames⟩
    have husual : ∀ m ∈ artifactNames .usual, LeadsInside m := by decide +kernel
    rw [artifactNames_withSchema, List.mem_append, List.mem_singleton] at hm
    exact hm.symm.imp_right (husual m)
  · have hne : n ≠ "" := by
      rintro rfl
      have hnone : stagingPath? (.ofString "") = none := by decide +kernel
      rw [hnone] at hs
      cases hs
    obtain ⟨fs, hfs, hout⟩ := exists_not_staysInside_named hs hcan hn hne
    exact ⟨_, _, fs, fun m hm => .inl (eq_of_mem_sharing hm), hfs, hout⟩

end

/-- **Emission stays inside the output directory** under all settings that give a name, beside
    names that lead inside, exactly if this name leads inside too. -/
theorem staysInside_iff (n : String) (h : CanBeStaged n) :
    (∀ config, (∀ m ∈ artifactNames config, m = n ∨ LeadsInside m) →
        ∀ c directory w, HoldsNoLinks directory w.fs → StaysInside config c directory w) ↔
      LeadsInside n := by
  constructor
  · intro hinside
    by_contra hn
    obtain ⟨config, directory, fs, hnames, hfs, hout⟩ := exists_not_staysInside h hn
    exact hout (hinside config hnames _ _ _ fun _ _ _ => isLink_of_unlinked hfs)
  · intro hn config hnames c directory w hlinks
    refine staysInside_of_leadsInside (fun m hm => ?_) c hlinks
    rcases hnames m hm with rfl | hm
    · exact hn
    · exact hm

/-- A directory inside the output directory does no harm. -/
theorem staysInside_nested :
    CanBeStaged "sub/workflows.ts" ∧ HoldsNoLinks generated blank ∧
      StaysInside nested .empty generated ⟨blank, []⟩ := by
  have hstaging : stagingPath? (.ofString "sub/workflows.ts") =
      some (.ofString "sub/.workflows.ts.tmp") := by decide +kernel
  have hcan : CanBeFile (.ofString "sub/.workflows.ts.tmp") :=
    ⟨⟨by decide +kernel, by decide +kernel, by decide +kernel⟩, by decide +kernel,
      by decide +kernel⟩
  have hblank : blank.Unlinked := by decide
  have hlinks : HoldsNoLinks generated blank := fun _ _ _ => isLink_of_unlinked hblank
  have hn : CanBeStaged "sub/workflows.ts" := .inr ⟨_, hstaging, hcan⟩
  exact ⟨hn, hlinks,
    (staysInside_iff _ hn).2 (by decide +kernel) nested (by decide +kernel) _ _ _ hlinks⟩

/-- Settings by which the types module is written above the output directory. -/
def climbing : Config := { Config.usual with typesFile := ⟨"../x.ts", by decide⟩ }

/-- A file beside the place of the output directory. -/
def neighbour : FileSystem := ⟨[(["x.ts"], .file "keep\n".toUTF8)], []⟩

/-- The types module is another file. -/
theorem types_ne_keep (config : Config) (c : Collection) :
    (texts config c).types.utf8? ≠ some "keep\n".toUTF8 := by
  change (CodeText.ofString (Schema.declarations Schema.entities)).utf8? ≠ _
  unfold CodeText.utf8?
  rw [CodeText.toString?_ofString]
  intro h
  have hsame : Schema.declarations Schema.entities = "keep\n" :=
    String.toByteArray_inj.1 (Option.some.inj h)
  have hfirst := congrArg (fun s => s.toList.head?) hsame
  simp [Schema.declarations, Schema.generatedHeader] at hfirst

/-- The types module takes the place of a file that is not in the output directory. -/
theorem not_staysInside_climbing :
    HoldsNoLinks generated neighbour ∧
      ¬ StaysInside climbing .empty generated ⟨neighbour, []⟩ := by
  have hfs : neighbour.Unlinked := by decide +kernel
  have hmade : IsMade generated neighbour := by
    unfold IsMade
    decide +kernel
  have hmadeUnlinked : (made generated neighbour).Unlinked := by decide +kernel
  have hcan : CanWrite (made generated neighbour) (artifacts climbing .empty generated) :=
    canWrite_artifacts (by decide +kernel) (utf8_of_empty rfl)
  have hunlinked : StagesUnlinked (made generated neighbour)
      (Places.inDirectory climbing generated).paths :=
    fun _ _ _ _ _ => isLink_of_unlinked hmadeUnlinked
  have hbeside : StagesBeside (made generated neighbour)
      (Places.inDirectory climbing generated).paths := by decide +kernel
  have hplace : (made generated neighbour).place?
      (Places.inDirectory climbing generated).types.text = some ["x.ts"] := by decide +kernel
  have htop : (made generated neighbour).resolve true generated.text =
      .ok (.present ["generated"] .directory) := by decide +kernel
  obtain ⟨w', hrun⟩ := exists_emit_ok hmade hmadeUnlinked hcan (by decide +kernel)
  obtain ⟨-, hdone⟩ := completes_of_emit (w := ⟨neighbour, []⟩) hunlinked hrun
  have hmem : ((Places.inDirectory climbing generated).types, (texts climbing .empty).types) ∈
      artifacts climbing .empty generated := List.mem_cons_of_mem _ List.mem_cons_self
  obtain ⟨bytes, hbytes, hseen⟩ := hdone.held hbeside _ hmem
  rw [seen_of_place (hdone.way _ hmem _ hplace)] at hseen
  have hbefore : neighbour.entryAt? ["x.ts"] = some (.file "keep\n".toUTF8) := rfl
  refine ⟨fun _ _ _ => isLink_of_unlinked hfs, fun hinside => ?_⟩
  have hout : ¬ InOutput generated neighbour ["x.ts"] := by
    rintro ⟨dir, hdir, hbelow, -⟩
    rw [htop] at hdir
    cases hdir
    exact absurd hbelow (by decide)
  have hkept := hinside _ hout
  rw [hrun] at hkept
  rcases hkept with hsame | ⟨hnew, -⟩
  · rw [hseen, hbefore] at hsame
    cases hsame
    exact types_ne_keep climbing .empty hbytes
  · rw [hnew.before] at hbefore
    cases hbefore

end WorkflowCatalog.Artifact
