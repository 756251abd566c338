/-
  WorkflowCatalog/Proofs/LostLinks.lean
  =====================================
  **A search finds the manifests of its tree exactly if it loses no link.**  A directory that
  is taken for a file is listed like a file, if its name has the suffix.  So a search that
  gets through its tree finds the manifests, whatever their suffixes and their limit, only if
  it loses no link (`losesNoLink_iff`), and then it does.  Without links to directories it
  loses none (`losesNoLink_of_no_links`).

  A lost link can also hide what is there: a search may find nothing although there is a
  manifest (`not_lists_lostLink`).

  What a search finds does not depend on the order of the entries, and no more levels change
  it, unless they were too few.  With as many levels as there are entries, and two more, they
  never are.
-/
import WorkflowCatalog.Proofs.Discovery

namespace WorkflowCatalog.Manifest

open FileSystem
open Text (CodeText)

variable {s : Search} {rooms rooms' : List Room} {r : Room} {n : String}

/-! ### Trees in which no link can be lost -/

/-- **Only a link can be lost**: if no link leads to a directory, none is. -/
theorem losesNoLink_of_no_links (hfs : s.fs.WellFormed)
    (h : ∀ dir n target, s.fs.entryAt? (dir ++ [n]) = some (.link target) →
      s.fs.directoryAt? dir n = none) : LosesNoLink s := by
  intro rooms e _ r _ n hn hleads
  obtain ⟨entry, hentry⟩ := (mem_namesIn hfs).1 hn
  cases entry with
  | directory =>
    unfold isDir isDirectoryEntry
    rw [hentry]
  | file bytes => exact absurd (directoryAt_file (isEntryName_of_mem_namesIn hfs hn) hentry) hleads
  | link target => exact absurd (h r.loc n target hentry) hleads

/-! ### Other suffixes and limits -/

/-- More directories hold more manifests. -/
theorem length_foundIn_mono (h : rooms' <:+ rooms) :
    (foundIn s rooms').length ≤ (foundIn s rooms).length := by
  obtain ⟨front, rfl⟩ := h
  unfold foundIn
  rw [List.flatMap_append, List.length_append]
  exact Nat.le_add_left _ _

/-- A search that loses no link loses none with other suffixes and another limit. -/
theorem LosesNoLink.other (h : LosesNoLink s) (hw : Walks s (fromRoot s) [] rooms .complete)
    (suffixes : List CodeText) (most : Int) :
    LosesNoLink { s with suffixes, most } := by
  intro rooms' e' hw' r hr n hn hleads
  have hr' : r ∈ rooms := by
    rcases hw.compare rfl hw' with ⟨-, rfl⟩ | ⟨-, hsuffix⟩
    · exact hr
    · exact hsuffix.subset hr
  exact h rooms _ hw r hr' n hn hleads

/-- With a limit that is high enough, a walk with other suffixes goes all the way. -/
theorem Walks.complete_other (hw : Walks s (fromRoot s) [] rooms .complete)
    {suffixes : List CodeText} {most : Int} {e' : Ending}
    (hw' : Walks { s with suffixes, most } (fromRoot s) [] rooms' e')
    (hmost : ((foundIn { s with suffixes, most } rooms).length : Int) ≤ most) :
    e' = .complete ∧ rooms' = rooms := by
  rcases hw.compare rfl hw' with hsame | ⟨hfull, hsuffix⟩
  · exact hsame
  · have hlt := hw'.lt_length_foundIn hfull
    have hle := length_foundIn_mono (s := { s with suffixes, most }) hsuffix
    dsimp only at hlt
    omega

/-- A search that ends with paths lists the manifests, if it finds them. -/
theorem FindsManifests.lists_of_outcome (h : FindsManifests s) {ps : List Path}
    (houtcome : (discover s).outcome = .ok ps) : Lists s ps := by
  by_cases hroom : (h.finite.toFinset.card : Int) ≤ s.most
  · obtain ⟨ps', hps, hlists⟩ := h.lists hroom
    rw [houtcome] at hps
    cases hps
    exact hlists
  · have herror := h.tooMany (Int.not_le.1 hroom)
    rw [houtcome] at herror
    cases herror

/-- A directory that is taken for a file is listed as a manifest if it has the suffix. -/
theorem mem_foundIn_of_lost {suffixes : List CodeText} {most : Int}
    (hfs : s.fs.WellFormed) (hr : r ∈ rooms) (hn : n ∈ s.fs.namesIn r.loc)
    (hfile : isDir s r n = false) (hsuffix : suffixOf (Path.ofString n).name ∈ suffixes) :
    (.ofString r.path / .ofString n : Path) ∈ foundIn { s with suffixes, most } rooms := by
  refine mem_foundIn.2 ⟨r, hr, n, mem_filesIn.2 ⟨hn, hfile⟩, rfl, ?_⟩
  rw [isManifest_join _ (isEntryName_of_mem_namesIn hfs hn).isName]
  unfold isManifest isManifestName
  rw [List.contains_iff_mem]
  exact List.mem_map_of_mem hsuffix

/-- **To find the manifests for all suffixes and limits is to lose no link.** -/
theorem losesNoLink_iff (hfs : s.fs.WellFormed) (hroot : s.fs.isDirectory s.root.text = .ok true)
    (hw : Walks s (fromRoot s) [] rooms .complete) :
    LosesNoLink s ↔ ∀ suffixes most, 0 ≤ most → FindsManifests { s with suffixes, most } := by
  constructor
  · intro hlinks suffixes most hmost
    obtain ⟨rooms', e', hw', houtcome⟩ :=
      exists_walks_discover (s := { s with suffixes, most }) hroot
    refine findsManifests_of_walks hfs hmost hw' houtcome ?_ ?_ (hlinks.other hw suffixes most)
    · rintro d rfl
      rcases hw.compare rfl hw' with ⟨he, -⟩ | ⟨he, -⟩ <;> cases he
    · rintro rfl
      rcases hw.compare rfl hw' with ⟨he, -⟩ | ⟨he, -⟩ <;> cases he
  · intro hall rooms'' e'' hw'' r hr n hn hleads
    obtain ⟨rfl, -⟩ := hw.unique hw''
    by_contra hnot
    have hfile : isDir s r n = false := Bool.eq_false_iff.2 hnot
    -- the search for just this suffix, without a limit that matters
    obtain ⟨suffixes, hsuffixes⟩ : ∃ suffixes, suffixes = [suffixOf (Path.ofString n).name] :=
      ⟨_, rfl⟩
    obtain ⟨most, hmost⟩ : ∃ most : Int, most = (foundIn { s with suffixes } rooms).length :=
      ⟨_, rfl⟩
    have hpos : 0 ≤ most := by omega
    obtain ⟨rooms', e', hw', houtcome⟩ :=
      exists_walks_discover (s := { s with suffixes, most }) hroot
    obtain ⟨rfl, rfl⟩ := hw.complete_other hw' (Int.le_of_eq hmost.symm)
    have hlists := (hall suffixes most hpos).lists_of_outcome houtcome
    have hfound : (.ofString r.path / .ofString n : Path) ∈
        foundIn { s with suffixes, most } rooms' :=
      mem_foundIn_of_lost hfs hr hn hfile (by rw [hsuffixes]; exact List.mem_cons_self)
    obtain ⟨m, hm, hplace⟩ := hlists.sound _ (mem_sortPaths.2 hfound)
    have hentered := entered_fromRoot hfs hw
    rw [(hentered r hr).placeOf (isEntryName_of_mem_namesIn hfs hn).isName] at hplace
    cases hplace
    exact hleads hm.2.2.1

/-! ### The search -/

/-- A search that finds the manifests of its tree is not too deep. -/
theorem FindsManifests.not_isTooDeep (h : FindsManifests s)
    (hroot : s.fs.isDirectory s.root.text = .ok true) : ¬ IsTooDeep s := by
  intro hdeep
  have herror := (isTooDeep_iff hroot).1 hdeep
  by_cases hroom : (h.finite.toFinset.card : Int) ≤ s.most
  · obtain ⟨ps, hps, -⟩ := h.lists hroom
    rw [herror] at hps
    cases hps
  · have hmany := h.tooMany (Int.not_le.1 hroom)
    rw [herror] at hmany
    cases hmany

/-- **A search that loses no link lists the manifests of its tree**, each once, in ascending
    order, unless there are too many, a directory cannot be listed or the tree is too deep.
    One that gets through its tree does so for all suffixes and limits only if it loses no
    link.  More levels make no difference to a search that is not too deep, and the order of
    the entries makes none to any. -/
theorem discover_lists (hfs : s.fs.WellFormed) (hmost : 0 ≤ s.most)
    (hroot : s.fs.isDirectory s.root.text = .ok true)
    (hlisted : ∀ d, (discover s).outcome ≠ .error (.error (unlistable d))) :
    (LosesNoLink s → (FindsManifests s ↔ ¬ IsTooDeep s)) ∧
    ((∃ ps, (discover s).outcome = .ok ps) →
      (LosesNoLink s ↔ ∀ suffixes most, 0 ≤ most → FindsManifests { s with suffixes, most })) ∧
    (IsTooDeep s ↔ (discover s).outcome = .error .tooDeep) ∧
    (s.fs.entries.length + 1 < maxLevels → ¬ IsTooDeep s) ∧
    (∀ levels, maxLevels ≤ levels → ¬ IsTooDeep s →
      (visit s levels s.root.text ⟨[], []⟩).outcome =
        (visit s maxLevels s.root.text ⟨[], []⟩).outcome) ∧
    (∀ levels, enoughLevels s.fs ≤ levels →
      (visit s levels s.root.text ⟨[], []⟩).outcome ≠ .error .tooDeep) ∧
    ∀ fs', IsReordered s.fs fs' →
      (discover { s with fs := fs' }).outcome = (discover s).outcome := by
  obtain ⟨rooms, e, hw, houtcome⟩ := exists_walks_discover hroot
  refine ⟨fun hlinks => ⟨fun hfinds => hfinds.not_isTooDeep hroot, fun hdeep => ?_⟩, ?_,
    isTooDeep_iff hroot, not_isTooDeep_of_few hfs, fun levels hle hdeep => ?_,
    fun levels hle => outcome_visit_ne_tooDeep hfs hle _,
    fun fs' h => outcome_discover_reordered hfs h hroot⟩
  · refine findsManifests_of_walks hfs hmost hw houtcome ?_ ?_ hlinks
    · rintro d rfl
      exact hlisted d houtcome
    · rintro rfl
      exact hdeep ⟨rooms, hw⟩
  · rintro ⟨ps, hps⟩
    obtain ⟨rooms', hw', -⟩ := exists_walks_of_discover hps
    exact losesNoLink_iff hfs hroot hw'
  · refine outcome_visit_of_le hle _ fun herror => hdeep ((isTooDeep_iff hroot).2 ?_)
    rw [outcome_discover hroot, herror]
    rfl

/-- A directory with a link back to itself below it, and a second way to what is below. -/
def looped : Search where
  fs := {
    entries := FileSystem.located [(["d"], .directory), (["d", "m.yaml"], .file "".toUTF8),
      (["d", "sub"], .directory), (["d", "sub", "n.YML"], .file "".toUTF8),
      (["d", "sub", "up"], .link ".."), (["d", "alias"], .link "sub")]
    workingDirectory := [] }
  root := .ofString "d"
  suffixes := [".yaml", ".yml"]
  most := 2
  followLinks := true

/-- The directory below is entered under the link to it, and passed over under its own name. -/
def loopedRooms : List Room := [⟨"d/alias", ["d", "sub"]⟩, ⟨"d", ["d"]⟩]

theorem walks_looped : Walks looped (fromRoot looped) [] loopedRooms .complete := by
  have hroot : fromRoot looped = [⟨948 + 1 + 1, "d"⟩] := by decide +kernel
  have hfirst : aheadOf looped (948 + 1) ⟨"d", ["d"]⟩ =
      [⟨948 + 1, "d/alias"⟩, ⟨948 + 1, "d/sub"⟩] := by decide +kernel
  have hsecond : aheadOf looped 948 ⟨"d/alias", ["d", "sub"]⟩ = [⟨947 + 1, "d/alias/up"⟩] := by
    decide +kernel
  have hlist : looped.fs.listDirectory "d" = .ok (["d"], ["m.yaml", "sub", "alias"]) := by
    decide +kernel
  have hlistAlias : looped.fs.listDirectory "d/alias" = .ok (["d", "sub"], ["n.YML", "up"]) := by
    decide +kernel
  have hlistUp : looped.fs.listDirectory "d/alias/up" =
      .ok (["d"], ["m.yaml", "sub", "alias"]) := by decide +kernel
  have hlistSub : looped.fs.listDirectory "d/sub" = .ok (["d", "sub"], ["n.YML", "up"]) := by
    decide +kernel
  rw [hroot]
  refine .enter hlist (by decide) (by decide +kernel) ?_
  rw [hfirst]
  refine .enter hlistAlias (by decide) (by decide +kernel) ?_
  rw [hsecond]
  exact .again hlistUp (by decide) (.again hlistSub (by decide) .done)

theorem losesNoLink_looped : LosesNoLink looped := by
  intro rooms e hw
  obtain ⟨rfl, -⟩ := walks_looped.unique hw
  decide +kernel

/-- Both manifests are found, in spite of the loop. -/
theorem discover_lists_looped :
    looped.fs.WellFormed ∧ 0 ≤ looped.most ∧
      looped.fs.isDirectory looped.root.text = .ok true ∧
      (∀ d, (discover looped).outcome ≠ .error (.error (unlistable d))) ∧ LosesNoLink looped ∧
      ¬ IsTooDeep looped ∧ Lists looped [.ofString "d/alias/n.YML", .ofString "d/m.yaml"] := by
  have hfs : looped.fs.WellFormed := by decide +kernel
  have hroot : looped.fs.isDirectory looped.root.text = .ok true := by decide +kernel
  have houtcome : (discover looped).outcome =
      .ok [.ofString "d/alias/n.YML", .ofString "d/m.yaml"] := by decide +kernel
  have hlisted : ∀ d, (discover looped).outcome ≠ .error (.error (unlistable d)) := by
    intro d
    rw [houtcome]
    nofun
  have hmost : 0 ≤ looped.most := by decide
  obtain ⟨hfinds, -, -, hfew, -⟩ := discover_lists hfs hmost hroot hlisted
  have hdeep : ¬ IsTooDeep looped := hfew (by decide +kernel)
  have hlists := ((hfinds losesNoLink_looped).2 hdeep).lists_of_outcome houtcome
  exact ⟨hfs, hmost, hroot, hlisted, losesNoLink_looped, hdeep, hlists⟩

/-! ### A tree in which a link is lost -/

/-- Links in a row, the last of which leads to a target. -/
def linkRow (name target : String) (count : Nat) : List (Location × Entry) :=
  (List.range count).map fun i =>
    ([name ++ toString (i + 1)],
      .link (if i + 1 = count then target else name ++ toString (i + 2)))

/-- Two ways lead to a directory, and from there a row of links to a manifest.  The first of
    the ways is a row of links too. -/
def lostLink : Search where
  fs := {
    entries := FileSystem.located ([(["e"], .directory),
      (["e", "m.yaml"], .file "name: A\n".toUTF8), (["d"], .directory),
      (["d", "x"], .link "../q1"), (["w"], .directory), (["w", "a"], .link "../r1"),
      (["w", "b"], .link "../d")] ++ linkRow "q" "e" 24 ++ linkRow "r" "d" 24)
    workingDirectory := [] }
  root := .ofString "w"
  suffixes := [".yaml", ".yml"]
  most := 10000
  followLinks := true

theorem mem_manifests_lostLink : (["e"], "m.yaml") ∈ manifests lostLink := by
  have hw : Reaches lostLink ["w"] := .root (by decide +kernel)
  have hd : Reaches lostLink ["d"] :=
    hw.step (n := "b") (by decide +kernel) (.inl rfl) (by decide +kernel)
  have he : Reaches lostLink ["e"] :=
    hd.step (n := "x") (by decide +kernel) (.inl rfl) (by decide +kernel)
  exact ⟨he, by decide +kernel, by decide +kernel, by decide +kernel⟩

/-- **A search can find nothing although there is a manifest.**  Under the first way the links
    are too many, and under the second the directory has been entered before. -/
theorem not_lists_lostLink :
    lostLink.fs.WellFormed ∧ 0 ≤ lostLink.most ∧
      lostLink.fs.isDirectory lostLink.root.text = .ok true ∧
      (∀ d, (discover lostLink).outcome ≠ .error (.error (unlistable d))) ∧
      (discover lostLink).outcome ≠ .error .tooDeep ∧ ¬ FindsManifests lostLink := by
  have houtcome : (discover lostLink).outcome = .ok [] := by decide +kernel
  refine ⟨by decide +kernel, by decide, by decide +kernel, ?_, ?_, ?_⟩
  · intro d
    rw [houtcome]
    nofun
  · rw [houtcome]
    nofun
  · intro hfinds
    have hlists := hfinds.lists_of_outcome houtcome
    obtain ⟨p, ⟨hp, -⟩, -⟩ := hlists.complete _ mem_manifests_lostLink
    cases hp

end WorkflowCatalog.Manifest
