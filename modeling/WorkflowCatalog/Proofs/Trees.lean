/-
  WorkflowCatalog/Proofs/Trees.lean
  =================================
  **Searching a tree without links.**  There the directories that a search enters stand
  below its root, each where the names of its path lead (`InTree`).  What is found are
  the files below the root that are manifests by name, each under the path of the root
  with the names that lead to it (`mem_foundIn_of_isManifestBelow`).

  The search has a level for each name of the way from the root to a directory, so it is too
  deep exactly if a directory stands too far below the root (`IsShallow`).

  So a search finds the same whatever has happened to other files, and whichever directories
  have been added, if only the files that are manifests are as they were (`KeepsManifests`),
  every directory can still be listed and none has been added too far below.  Main statement:
  `discover_again`.
-/
import WorkflowCatalog.Proofs.LostLinks
import WorkflowCatalog.Proofs.Unlinked

namespace WorkflowCatalog.Manifest

open FileSystem

variable {s : Search} {rooms : List Room} {r : Room} {e : Ending} {p : Path} {root : Location}

/-! ### Directories below the root -/

/-- A directory that has been entered stands below the root where the names of its path
    lead, and not too far below. -/
def InTree (s : Search) (root : Location) (r : Room) : Prop :=
  ∃ dirs, (Path.ofString r.path).anchor = s.root.anchor ∧
    (Path.ofString r.path).names = s.root.names ++ dirs ∧ r.loc = root ++ dirs ∧
    dirs.length < maxLevels

/-- The same of a directory to come to.  For each name of its way a level has been used up. -/
structure IsAhead (s : Search) (root : Location) (dirs : List String) (a : Ahead) : Prop where
  anchor : (Path.ofString a.path).anchor = s.root.anchor
  names : (Path.ofString a.path).names = s.root.names ++ dirs
  stands : s.fs.entryAt? (root ++ dirs) = some .directory
  leads : ∀ here, s.fs.find true a.path = .ok (here, .directory) →
    Entered s ⟨a.path, here⟩ ∧ here = root ++ dirs
  levels : a.levels + dirs.length = maxLevels

/-- No directory stands too far below another one. -/
def IsShallow (fs : FileSystem) (directory : Path) : Prop :=
  ∀ root, fs.find true directory.text = .ok (root, .directory) →
    ∀ dirs, fs.entryAt? (root ++ dirs) = some .directory → dirs.length < maxLevels

/-- Without links, a name leads to the directory that stands there. -/
theorem eq_of_directoryAt {fs : FileSystem} (hfs : fs.Unlinked) {dir l : Location} {n : String}
    (hn : n ∈ fs.namesIn dir) (h : fs.directoryAt? dir n = some l) : l = dir ++ [n] := by
  have hname := isEntryName_of_mem_namesIn hfs.wellFormed hn
  obtain ⟨entry, hentry⟩ := (mem_namesIn hfs.wellFormed).1 hn
  cases entry with
  | directory =>
    rw [directoryAt_directory hname hentry] at h
    exact (Option.some.inj h).symm
  | file bytes =>
    rw [directoryAt_file hname hentry] at h
    cases h
  | link target => exact absurd hentry (hfs.entryAt_ne_link target)

theorem losesNoLink_of_unlinked (hfs : s.fs.Unlinked) : LosesNoLink s := by
  refine losesNoLink_of_no_links hfs.wellFormed ?_
  intro dir n target hentry
  exact absurd hentry (hfs.entryAt_ne_link target)

theorem isAhead_root (hfs : s.fs.Unlinked)
    (hroot : s.fs.find true s.root.text = .ok (root, .directory)) :
    IsAhead s root [] ⟨maxLevels, s.root.text⟩ where
  anchor := by rw [Path.ofString_text]
  names := by rw [Path.ofString_text, List.append_nil]
  stands := by
    rw [List.append_nil]
    exact entryAt_of_find hfs.wellFormed hroot
  leads here hfind := by
    refine ⟨canEnter_root here hfind, ?_⟩
    rw [hroot] at hfind
    cases hfind
    rw [List.append_nil]
  levels := rfl

/-- **From directory to directory**, with one level less. -/
theorem IsAhead.below (hfs : s.fs.Unlinked) {dirs : List String} {levels : Nat} {d n : String}
    {here : Location} (h : IsAhead s root dirs ⟨levels + 1, d⟩)
    (hfind : s.fs.find true d = .ok (here, .directory)) (hn : n ∈ directoriesIn s ⟨d, here⟩) :
    IsAhead s root (dirs ++ [n]) ⟨levels, Manifest.below d n⟩ := by
  obtain ⟨hentered, rfl⟩ := h.leads here hfind
  obtain ⟨⟨hname, hdir⟩, -⟩ := mem_directoriesIn.1 hn
  have hentry := isEntryName_of_mem_namesIn hfs.wellFormed hname
  obtain ⟨hanchor, hnames⟩ := join_name (.ofString d) hentry.isName
  have htext := (hentered.isTextOf.below hentry.isName).ofString_eq
  obtain ⟨l, hl⟩ := exists_directoryAt hentered.isTextOf hentered.find hentry hdir
  obtain rfl := eq_of_directoryAt hfs hname hl
  refine ⟨?_, ?_, ?_, ?_, ?_⟩
  · rw [htext, hanchor, h.anchor]
  · rw [htext, hnames, h.names, List.append_assoc]
  · rw [← List.append_assoc]
    obtain ⟨entry, hstands⟩ := (mem_namesIn hfs.wellFormed).1 hname
    cases entry with
    | directory => exact hstands
    | file bytes =>
      rw [directoryAt_file hentry hstands] at hl
      cases hl
    | link target => exact absurd hstands (hfs.entryAt_ne_link target)
  · intro here' hfind'
    refine ⟨hentered.canEnter hfs.wellFormed hn here' hfind', ?_⟩
    have hleads := directoryAt_of_find_below hentered.isTextOf hentered.find hentry.isName hfind'
    rw [eq_of_directoryAt hfs hname hleads, List.append_assoc]
  · have hlevels := h.levels
    rw [List.length_append, List.length_singleton]
    dsimp only at hlevels ⊢
    omega

/-- **All directories that are entered stand below the root**, and one for which no level is
    left stands too far below. -/
theorem Walks.inTree (hfs : s.fs.Unlinked) (hw : Walks s (fromRoot s) [] rooms e)
    (hroot : s.fs.find true s.root.text = .ok (root, .directory)) :
    (∀ r ∈ rooms, Entered s r ∧ InTree s root r) ∧
      (e = .deep → ∃ d dirs, IsAhead s root dirs ⟨0, d⟩) := by
  refine hw.forall_rooms (Q := fun a => ∃ dirs, IsAhead s root dirs a)
    (P := fun r => Entered s r ∧ InTree s root r) ?_ ?_ nofun
  · rintro levels d here ⟨dirs, hahead⟩ hfind
    obtain ⟨hentered, hloc⟩ := hahead.leads here hfind
    have hlevels := hahead.levels
    dsimp only at hlevels
    have hroom : dirs.length < maxLevels := by omega
    exact ⟨⟨hentered, dirs, hahead.anchor, hahead.names, hloc, hroom⟩,
      fun n hn => ⟨dirs ++ [n], hahead.below hfs hfind hn⟩⟩
  · unfold fromRoot
    rw [List.forall_mem_singleton]
    exact ⟨[], isAhead_root hfs hroot⟩

/-- Every directory below the root can be reached. -/
theorem reaches_below (hfs : s.fs.Unlinked)
    (hroot : s.fs.find true s.root.text = .ok (root, .directory)) {dirs : List String}
    (h : s.fs.entryAt? (root ++ dirs) = some .directory) : Reaches s (root ++ dirs) := by
  induction dirs using List.reverseRecOn with
  | nil =>
    rw [List.append_nil]
    exact .root hroot
  | append_singleton dirs n ih =>
    rw [← List.append_assoc] at h ⊢
    have habove := entryAt_dropLast hfs.wellFormed h
    rw [List.dropLast_concat] at habove
    have hname : n ∈ s.fs.namesIn (root ++ dirs) := (mem_namesIn hfs.wellFormed).2 ⟨_, h⟩
    refine .step (ih habove) hname (.inr ?_) ?_
    · unfold isLinkEntry
      rw [h]
    · exact directoryAt_directory (isEntryName_of_mem_namesIn hfs.wellFormed hname) h

/-! ### What is found -/

/-- The path leads from the root to a file that is a manifest by name. -/
def IsManifestBelow (s : Search) (root : Location) (p : Path) : Prop :=
  ∃ dirs n bytes, p.anchor = s.root.anchor ∧ p.names = s.root.names ++ dirs ++ [n] ∧
    s.fs.entryAt? (root ++ dirs ++ [n]) = some (.file bytes) ∧ isManifest s.suffixes p = true

section

variable (hfs : s.fs.Unlinked) (hw : Walks s (fromRoot s) [] rooms e)
  (hroot : s.fs.find true s.root.text = .ok (root, .directory))

include hfs hw hroot

/-- **Only manifests below the root are found.** -/
theorem isManifestBelow_of_mem_foundIn (hp : p ∈ foundIn s rooms) : IsManifestBelow s root p := by
  obtain ⟨r, hr, n, hn, rfl, hmanifest⟩ := mem_foundIn.1 hp
  obtain ⟨hname, hfile⟩ := mem_filesIn.1 hn
  obtain ⟨-, dirs, hanchor, hnames, hloc, -⟩ := (hw.inTree hfs hroot).1 r hr
  have hentry := isEntryName_of_mem_namesIn hfs.wellFormed hname
  obtain ⟨hanchor', hnames'⟩ := join_name (.ofString r.path) hentry.isName
  obtain ⟨entry, hstands⟩ := (mem_namesIn hfs.wellFormed).1 hname
  cases entry with
  | file bytes =>
    refine ⟨dirs, n, bytes, hanchor'.trans hanchor, ?_, ?_, hmanifest⟩
    · rw [hnames', hnames]
    · rw [← hloc, hstands]
  | directory =>
    unfold isDir isDirectoryEntry at hfile
    rw [hstands] at hfile
    cases hfile
  | link target => exact absurd hstands (hfs.entryAt_ne_link target)

/-- **A complete search finds every manifest below the root.** -/
theorem mem_foundIn_of_isManifestBelow (hcomplete : e = .complete) (hp : IsManifestBelow s root p) :
    p ∈ foundIn s rooms := by
  subst hcomplete
  obtain ⟨dirs, n, bytes, hanchor, hnames, hstands, hmanifest⟩ := hp
  have habove := directory_of_entryAt hfs.wellFormed (by simp) hstands
  rw [List.dropLast_concat] at habove
  obtain ⟨r, hr, hloc⟩ := exists_room_of_reaches hfs.wellFormed (losesNoLink_of_unlinked hfs) hw
    (reaches_below hfs hroot habove)
  obtain ⟨-, dirs', hanchor', hnames', hloc', -⟩ := (hw.inTree hfs hroot).1 r hr
  obtain rfl : dirs' = dirs := List.append_cancel_left (hloc'.symm.trans hloc)
  have hname : n ∈ s.fs.namesIn r.loc := by
    rw [mem_namesIn hfs.wellFormed, hloc]
    exact ⟨_, hstands⟩
  have hfile : isDir s r n = false := by
    unfold isDir isDirectoryEntry
    rw [hloc, hstands]
  obtain ⟨hanchor'', hnames''⟩ := join_name (.ofString r.path)
    (isEntryName_of_mem_namesIn hfs.wellFormed hname).isName
  refine mem_foundIn.2 ⟨r, hr, n, mem_filesIn.2 ⟨hname, hfile⟩, ?_, hmanifest⟩
  apply Path.eq_of_parts
  · rw [hanchor'', hanchor', hanchor]
  · rw [hnames'', hnames', hnames]

/-- **A search that gets through its tree is in a shallow one.** -/
theorem isShallow_of_complete (hcomplete : e = .complete) : IsShallow s.fs s.root := by
  subst hcomplete
  intro root' hroot' dirs hstands
  rw [hroot] at hroot'
  cases hroot'
  obtain ⟨r, hr, hloc⟩ := exists_room_of_reaches hfs.wellFormed (losesNoLink_of_unlinked hfs) hw
    (reaches_below hfs hroot hstands)
  obtain ⟨-, dirs', -, -, hloc', hroom⟩ := (hw.inTree hfs hroot).1 r hr
  obtain rfl : dirs' = dirs := List.append_cancel_left (hloc'.symm.trans hloc)
  exact hroom

/-- One that lacks a level is not. -/
theorem not_isShallow_of_deep (hdeep : e = .deep) : ¬ IsShallow s.fs s.root := by
  intro hshallow
  obtain ⟨d, dirs, hahead⟩ := (hw.inTree hfs hroot).2 hdeep
  have hroom := hshallow root hroot dirs hahead.stands
  have hlevels := hahead.levels
  dsimp only at hlevels
  omega

end

theorem nodup_foundIn (hfs : s.fs.WellFormed) (hw : Walks s (fromRoot s) [] rooms e) :
    (foundIn s rooms).Nodup :=
  (nodup_places hfs (entered_fromRoot hfs hw) (hw.distinct hfs distinct_nil).nodup).of_map

/-! ### Searching again -/

/-- Directories stay directories, and files that are manifests by name stay as they are. -/
structure KeepsManifests (suffixes : List Text.CodeText) (fs fs' : FileSystem) : Prop where
  unlinked : fs'.Unlinked
  keepsDirectories : KeepsDirectories fs fs'
  file_iff : ∀ dir n, isManifest suffixes (.ofString n) = true → ∀ bytes,
    fs'.entryAt? (dir ++ [n]) = some (.file bytes) ↔ fs.entryAt? (dir ++ [n]) = some (.file bytes)

/-- Whether a path is a manifest is a matter of its name. -/
theorem isManifest_congr {suffixes : List Text.CodeText} {p q : Path} (h : p.name = q.name) :
    isManifest suffixes p = isManifest suffixes q := by
  unfold isManifest
  rw [h]

/-- A search that finds manifests is in a shallow tree. -/
theorem isShallow_of_discover (hfs : s.fs.Unlinked) {ps : List Path}
    (h : (discover s).outcome = .ok ps) : IsShallow s.fs s.root := by
  obtain ⟨root, hroot⟩ := isDirectory_eq_true.1 (isDirectory_of_discover h)
  obtain ⟨rooms, hw, -⟩ := exists_walks_of_discover h
  exact isShallow_of_complete hfs hw hroot rfl

section

variable {fs' : FileSystem} (hkeeps : KeepsManifests s.suffixes s.fs fs')

include hkeeps

theorem KeepsManifests.isManifestBelow_iff :
    IsManifestBelow { s with fs := fs' } root p ↔ IsManifestBelow s root p := by
  unfold IsManifestBelow
  refine exists_congr fun dirs => exists_congr fun n => exists_congr fun bytes =>
    and_congr_right fun _ => and_congr_right fun hnames => and_congr_left fun hmanifest =>
      hkeeps.file_iff _ n ?_ bytes
  have hn : IsName n := p.names_ok n (by simp [hnames])
  rw [isManifest_congr (q := p), hmanifest]
  rw [Path.name_ofString hn, Path.name, hnames, List.getLast?_concat]
  rfl

/-- **A search finds the same manifests again**, if their files are as they were and every
    directory can be listed, exactly if no directory stands too far below its root now. -/
theorem discover_again (hfs : s.fs.Unlinked) {ps : List Path}
    (h : (discover s).outcome = .ok ps)
    (hlisted : ∀ d, (discover { s with fs := fs' }).outcome ≠ .error (.error (unlistable d))) :
    (IsShallow fs' s.root → (discover { s with fs := fs' }).outcome = .ok ps) ∧
      (¬ IsShallow fs' s.root → (discover { s with fs := fs' }).outcome = .error .tooDeep) := by
  obtain ⟨root, hroot⟩ := isDirectory_eq_true.1 (isDirectory_of_discover h)
  have hroot' := find_directory_mono hfs hkeeps.unlinked hkeeps.keepsDirectories hroot
  obtain ⟨rooms, hw, rfl⟩ := exists_walks_of_discover h
  obtain ⟨rooms', e', hw', houtcome'⟩ :=
    exists_walks_discover (s := { s with fs := fs' }) (isDirectory_eq_true.2 ⟨root, hroot'⟩)
  have hfound := nodup_foundIn hfs.wellFormed hw
  have hfound' := nodup_foundIn hkeeps.unlinked.wellFormed hw'
  have hsubset : ∀ p ∈ foundIn { s with fs := fs' } rooms', p ∈ foundIn s rooms := by
    intro p hp
    have hbelow := isManifestBelow_of_mem_foundIn hkeeps.unlinked hw' hroot' hp
    rw [hkeeps.isManifestBelow_iff] at hbelow
    exact mem_foundIn_of_isManifestBelow hfs hw hroot rfl hbelow
  cases e' with
  | unlisted d => exact absurd houtcome' (hlisted d)
  | full =>
    -- no more are found than before, and these were not too many
    have hmany := hw'.lt_length_foundIn rfl
    have hfew := hw.length_foundIn_le nofun (Nat.zero_le _)
    have hlength := (hfound'.subperm hsubset).length_le
    dsimp only at hmany
    omega
  | deep =>
    have hnot := not_isShallow_of_deep hkeeps.unlinked hw' hroot' rfl
    exact ⟨fun hshallow => absurd hshallow hnot, fun _ => houtcome'⟩
  | complete =>
    have hshallow := isShallow_of_complete hkeeps.unlinked hw' hroot' rfl
    refine ⟨fun _ => ?_, fun hnot => absurd hshallow hnot⟩
    rw [houtcome']
    refine congrArg Except.ok (eq_of_ascending (pairwise_sortPaths hfound')
      (pairwise_sortPaths hfound) ?_)
    intro p
    rw [mem_sortPaths, mem_sortPaths]
    refine ⟨hsubset p, fun hp => ?_⟩
    apply mem_foundIn_of_isManifestBelow hkeeps.unlinked hw' hroot' rfl
    rw [hkeeps.isManifestBelow_iff]
    exact isManifestBelow_of_mem_foundIn hfs hw hroot hp

end

end WorkflowCatalog.Manifest
