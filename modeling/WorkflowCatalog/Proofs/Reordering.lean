/-
  WorkflowCatalog/Proofs/Reordering.lean
  ======================================
  **A search does not depend on the order of the entries.**  An entry is found by its
  location, and the names in a directory are sorted before anything is done with them.  So
  a walk over a file system is a walk over any other with the same entries
  (`Walks.reordered`).
-/
import Mathlib.Data.List.Perm.Basic
import WorkflowCatalog.Proofs.Walk

namespace WorkflowCatalog.Manifest

open FileSystem

variable {s : Search} {todo : List Ahead} {rooms rooms' : List Room} {e : Ending} {d : String}

/-! ### File systems with the same entries -/

/-- The same entries in another order. -/
structure IsReordered (fs fs' : FileSystem) : Prop where
  entries : fs'.entries.Perm fs.entries
  workingDirectory : fs'.workingDirectory = fs.workingDirectory

theorem IsReordered.namesIn {fs fs' : FileSystem} (h : IsReordered fs fs') (loc : Location) :
    (fs'.namesIn loc).Perm (fs.namesIn loc) :=
  h.entries.filterMap _

section

variable {fs fs' : FileSystem} (hfs : fs.WellFormed) (h : IsReordered fs fs')

include hfs h

theorem IsReordered.entryAt (loc : Location) : fs'.entryAt? loc = fs.entryAt? loc := by
  have hnodup : (fs'.entries.map (·.1)).Nodup := (h.entries.map (·.1)).nodup_iff.2 hfs.nodup
  by_cases hloc : loc = []
  · subst hloc
    rfl
  · refine Option.ext ?_
    intro e
    rw [entryAt_eq_some_iff hnodup hloc, entryAt_eq_some_iff hfs.nodup hloc, h.entries.mem_iff]

theorem IsReordered.wellFormed : fs'.WellFormed where
  nodup := (h.entries.map (·.1)).nodup_iff.2 hfs.nodup
  ne_root e he := hfs.ne_root e (h.entries.mem_iff.1 he)
  isEntryName e he := hfs.isEntryName e (h.entries.mem_iff.1 he)
  inDirectory e he := by
    rw [h.entryAt hfs]
    exact hfs.inDirectory e (h.entries.mem_iff.1 he)
  workingDirectory := by
    rw [h.entryAt hfs, h.workingDirectory]
    exact hfs.workingDirectory

theorem IsReordered.find (followLast : Bool) (d : String) :
    fs'.find followLast d = fs.find followLast d := by
  have htrail : fs'.trail followLast d = fs.trail followLast d :=
    trail_congr h.workingDirectory fun l _ => h.entryAt hfs l
  unfold FileSystem.find
  rw [← trail_snd, ← trail_snd, htrail]

theorem IsReordered.isDirectory (d : String) : fs'.isDirectory d = fs.isDirectory d := by
  unfold FileSystem.isDirectory
  rw [h.find hfs]

theorem IsReordered.isDirectoryEntry (loc : Location) (d n : String) :
    fs'.isDirectoryEntry loc d n = fs.isDirectoryEntry loc d n := by
  unfold FileSystem.isDirectoryEntry
  rw [h.entryAt hfs, h.find hfs]

theorem IsReordered.isLinkEntry (loc : Location) (n : String) :
    fs'.isLinkEntry loc n = fs.isLinkEntry loc n := by
  unfold FileSystem.isLinkEntry
  rw [h.entryAt hfs]

end

/-- Sorted names do not tell the order in which they were given. -/
theorem sortTexts_perm {ts us : List String} (h : ts.Perm us) : sortTexts ts = sortTexts us := by
  have hsorted : ∀ l : List String, (sortTexts l).Pairwise fun t u => t ≤ u :=
    sortBy_pairwise id
  have hperm : (sortTexts ts).Perm (sortTexts us) :=
    ((sortBy_perm id ts).trans h).trans (sortBy_perm id us).symm
  exact hperm.eq_of_pairwise (fun _ _ _ _ => Std.le_antisymm) (hsorted ts) (hsorted us)

/-! ### Walks over them -/

section

variable {fs' : FileSystem} (hfs : s.fs.WellFormed) (h : IsReordered s.fs fs')

include hfs h

theorem filesIn_reordered (r : Room) : filesIn { s with fs := fs' } r = filesIn s r := by
  unfold filesIn isDir
  simp only [h.isDirectoryEntry hfs]
  exact sortTexts_perm ((h.namesIn r.loc).filter _)

theorem directoriesIn_reordered (r : Room) :
    directoriesIn { s with fs := fs' } r = directoriesIn s r := by
  have hnames : sortTexts ((fs'.namesIn r.loc).filter (isDir { s with fs := fs' } r)) =
      sortTexts ((s.fs.namesIn r.loc).filter (isDir s r)) := by
    unfold isDir
    simp only [h.isDirectoryEntry hfs]
    exact sortTexts_perm ((h.namesIn r.loc).filter _)
  unfold directoriesIn onward
  simp only [h.isLinkEntry hfs]
  rw [hnames]

theorem foundIn_reordered (rooms : List Room) :
    foundIn { s with fs := fs' } rooms = foundIn s rooms := by
  unfold foundIn
  simp only [filesIn_reordered hfs h]
  rfl

theorem listDirectory_reordered {here : Location} {names : List String}
    (hlist : s.fs.listDirectory d = .ok (here, names)) :
    fs'.listDirectory d = .ok (here, fs'.namesIn here) := by
  rw [listDirectory_eq_ok, h.find hfs]
  exact ⟨(listDirectory_eq_ok.1 hlist).1, rfl⟩

theorem listDirectory_error_reordered {f : Fault} (hlist : s.fs.listDirectory d = .error f) :
    fs'.listDirectory d = .error f := by
  unfold listDirectory at hlist ⊢
  rw [h.find hfs]
  cases hfind : s.fs.find true d with
  | error g =>
    rw [hfind] at hlist
    exact hlist
  | ok found =>
    obtain ⟨loc, e⟩ := found
    rw [hfind] at hlist
    cases e with
    | directory => cases hlist
    | _ => exact hlist

theorem Walks.reordered (hw : Walks s todo rooms rooms' e) :
    Walks { s with fs := fs' } todo rooms rooms' e := by
  induction hw with
  | done => exact .done
  | deep => exact .deep
  | unlisted hlist => exact .unlisted (listDirectory_error_reordered hfs h hlist)
  | again hlist hmem _ ih => exact .again (listDirectory_reordered hfs h hlist) hmem ih
  | full hlist hnew hfull =>
    refine .full (listDirectory_reordered hfs h hlist) hnew ?_
    rwa [foundIn_reordered hfs h]
  | enter hlist hnew hroom _ ih =>
    refine .enter (listDirectory_reordered hfs h hlist) hnew ?_ ?_
    · rwa [foundIn_reordered hfs h]
    · unfold aheadOf
      rwa [directoriesIn_reordered hfs h]

end

end WorkflowCatalog.Manifest
