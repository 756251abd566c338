/-
  WorkflowCatalog/Proofs/UnlinkedChange.lean
  ==========================================
  **Changes where there are no links.**  A file is written exactly to a path that has a
  place (`write_eq_ok_iff`), and moved exactly from a place where one stands to a place
  (`replace_eq_ok_iff`).  What is put at a place, or taken away from it, leaves a file
  system without links one (`Unlinked.set_place`).

  Making a path adds directories where nothing was (`makePath_adds`).  The path leads to a
  directory then, and making it again changes nothing (`makeDirectories_of_find`).
-/
import WorkflowCatalog.Proofs.Unlinked

namespace WorkflowCatalog.FileSystem

variable {fs fs' : FileSystem} {loc dir : Location} {n path : String}

/-! ### Changes of entries -/

theorem entryAt_set (fs : FileSystem) {e : Entry} (hloc : loc ≠ []) (l : Location) :
    (fs.set loc e).entryAt? l = if l = loc then some e else fs.entryAt? l := by
  split
  · rename_i heq
    rw [heq]
    exact entryAt_set_self hloc
  · rename_i hne
    exact entryAt_set_of_ne hne

theorem entryAt_erase (fs : FileSystem) (hloc : loc ≠ []) (l : Location) :
    (fs.erase loc).entryAt? l = if l = loc then none else fs.entryAt? l := by
  split
  · rename_i heq
    rw [heq]
    exact entryAt_erase_self hloc
  · rename_i hne
    exact entryAt_erase_of_ne hne

theorem erase_of_none (hloc : loc ≠ []) (h : fs.entryAt? loc = none) : fs.erase loc = fs := by
  unfold entryAt? entryUp? at h
  rw [if_neg hloc, Option.map_eq_none_iff, List.find?_eq_none] at h
  have hentries : (fs.entries.filter fun e => e.1 != loc.reverse) = fs.entries := by
    rw [List.filter_eq_self]
    intro e he
    simpa using h e he
  unfold erase
  dsimp only
  rw [hentries]

/-- What stands at a place is moved to another one, or left where it is. -/
def moved (fs : FileSystem) (source target : Location) (e : Entry) : FileSystem :=
  if source = target then fs else (fs.erase source).set target e

theorem entryAt_moved {s t : Location} {e : Entry} (hs : s ≠ []) (ht : t ≠ [])
    (he : fs.entryAt? s = some e) (l : Location) :
    (fs.moved s t e).entryAt? l =
      if l = t then some e else if l = s then none else fs.entryAt? l := by
  unfold moved
  by_cases hst : s = t
  · subst hst
    rw [if_pos rfl]
    split
    · rename_i heq
      rw [heq, he]
    · rfl
  · rw [if_neg hst, entryAt_set _ ht, entryAt_erase _ hs]

theorem workingDirectory_moved (fs : FileSystem) (s t : Location) (e : Entry) :
    (fs.moved s t e).workingDirectory = fs.workingDirectory := by
  unfold moved
  split <;> rfl

namespace Unlinked

theorem erase (hfs : fs.Unlinked) (hplace : fs.entryAt? loc ≠ some .directory) :
    (fs.erase loc).Unlinked := by
  have hkeeps : ∀ l, fs.entryAt? l = some .directory →
      (fs.erase loc).entryAt? l = some .directory := by
    intro l hl
    rw [entryAt_erase_of_ne, hl]
    rintro rfl
    exact hplace hl
  have hrest : ∀ e ∈ (fs.erase loc).entries, e ∈ fs.entries :=
    fun e he => (List.mem_filter.1 he).1
  have hwell : (fs.erase loc).WellFormed := by
    constructor
    case nodup => exact hfs.wellFormed.nodup.sublist (List.filter_sublist.map _)
    case ne_root => exact fun e he => hfs.wellFormed.ne_root e (hrest e he)
    case isEntryName => exact fun e he => hfs.wellFormed.isEntryName e (hrest e he)
    case inDirectory => exact fun e he => hkeeps _ (hfs.wellFormed.inDirectory e (hrest e he))
    case workingDirectory => exact hkeeps _ hfs.wellFormed.workingDirectory
  exact ⟨hwell, fun e he => hfs.noLink e (hrest e he)⟩

theorem set (hfs : fs.Unlinked) {e : Entry} (hdir : fs.entryAt? dir = some .directory)
    (hn : IsEntryName n) (hplace : fs.entryAt? (dir ++ [n]) ≠ some .directory)
    (he : e.isLink = false) : (fs.set (dir ++ [n]) e).Unlinked := by
  have hne : dir ++ [n] ≠ [] := by simp
  have hrest := hfs.erase hplace
  have hkeeps : ∀ l, (fs.erase (dir ++ [n])).entryAt? l = some .directory →
      (fs.set (dir ++ [n]) e).entryAt? l = some .directory := by
    intro l hl
    have hother : l ≠ dir ++ [n] := by
      rintro rfl
      rw [entryAt_erase_self hne] at hl
      cases hl
    rw [entryAt_set_of_ne hother, ← entryAt_erase_of_ne hother, hl]
  have hwell : (fs.set (dir ++ [n]) e).WellFormed := by
    constructor
    case nodup =>
      change ((dir ++ [n]).reverse :: (fs.erase (dir ++ [n])).entries.map (·.1)).Nodup
      refine List.nodup_cons.2 ⟨?_, hrest.wellFormed.nodup⟩
      intro hmem
      obtain ⟨e', he', hat⟩ := List.mem_map.1 hmem
      simpa [hat] using (List.mem_filter.1 he').2
    case ne_root =>
      exact List.forall_mem_cons.2 ⟨mt List.reverse_eq_nil_iff.1 hne, hrest.wellFormed.ne_root⟩
    case isEntryName =>
      refine List.forall_mem_cons.2 ⟨?_, hrest.wellFormed.isEntryName⟩
      simpa using hn
    case inDirectory =>
      refine List.forall_mem_cons.2 ⟨?_, ?_⟩
      · refine hkeeps _ ?_
        rw [entryAt_erase_of_ne (by simp)]
        simpa using hdir
      · exact fun e' he' => hkeeps _ (hrest.wellFormed.inDirectory e' he')
    case workingDirectory => exact hkeeps _ hrest.wellFormed.workingDirectory
  exact ⟨hwell, List.forall_mem_cons.2 ⟨he, hrest.noLink⟩⟩

/-- An entry is put at a place. -/
theorem set_place (hfs : fs.Unlinked) {e : Entry} (h : fs.place? path = some loc)
    (he : e.isLink = false) : (fs.set loc e).Unlinked := by
  obtain ⟨dir, n, rfl, hdir, -, hn⟩ := exists_of_place hfs h
  exact hfs.set hdir hn ((place_eq_some_iff hfs).1 h).2 he

theorem moved (hfs : fs.Unlinked) {target : String} {s t : Location} {e : Entry}
    (hs : fs.entryAt? s ≠ some .directory) (ht : fs.place? target = some t)
    (he : e.isLink = false) : (fs.moved s t e).Unlinked := by
  unfold FileSystem.moved
  split
  · exact hfs
  · rename_i hne
    obtain ⟨dir, n, rfl, hdir, -, hn⟩ := exists_of_place hfs ht
    refine (hfs.erase hs).set ?_ hn ?_ he
    · rw [entryAt_erase_of_ne, hdir]
      rintro rfl
      exact hs hdir
    · rw [entryAt_erase_of_ne (Ne.symm hne)]
      exact ((place_eq_some_iff hfs).1 ht).2

end Unlinked

/-! ### Changes of files -/

namespace Change

section

variable {bytes : ByteArray} {source target : String}

theorem write_of_place (hfs : fs.Unlinked) (h : fs.place? path = some loc) :
    (write path bytes).run.run fs = (.ok (), fs.set loc (.file bytes)) := by
  obtain ⟨hcomes, hdir⟩ := (place_eq_some_iff hfs).1 h
  unfold write
  rw [run_bind, run_resolve, hcomes.resolve hfs]
  rcases hentry : fs.entryAt? loc with _ | _ | _ | target
  · obtain ⟨dir, name, hend, hname⟩ := endAt_none (isPlace_of_place h).ne_root hentry
    rw [hend, ← hname]
    rfl
  · rw [endAt_some hentry]
    rfl
  · exact absurd hentry hdir
  · exact absurd hentry (hfs.entryAt_ne_link target)

/-- **A file is written exactly to a path that has a place.** -/
theorem write_eq_ok_iff (hfs : fs.Unlinked) :
    (write path bytes).run.run fs = (.ok (), fs') ↔
      ∃ loc, fs.place? path = some loc ∧ fs' = fs.set loc (.file bytes) := by
  constructor
  · intro h
    rcases hplace : fs.place? path with _ | loc
    · have hres := resolve_of_no_place hplace
      rw [← resolve_true_eq hfs] at hres
      obtain ⟨f, hf⟩ := write_fails bytes hres
      rw [hf] at h
      cases h
    · rw [write_of_place hfs hplace] at h
      cases h
      exact ⟨loc, rfl, rfl⟩
  · rintro ⟨loc, hplace, rfl⟩
    exact write_of_place hfs hplace

theorem unlinkIfPresent_of_place (h : fs.place? path = some loc) :
    (unlinkIfPresent path).run.run fs = (.ok (), fs.erase loc) := by
  have hloc := (isPlace_of_place h).ne_root
  unfold unlinkIfPresent unlink
  rw [run_tryCatch, run_bind, run_resolve, resolve_of_place h]
  rcases hentry : fs.entryAt? loc with _ | _ | _ | _
  · obtain ⟨dir, name, hend, -⟩ := endAt_none hloc hentry
    rw [hend, erase_of_none hloc hentry]
    rfl
  · rw [endAt_some hentry]
    rfl
  · exact absurd hentry (isPlace_of_place h).noDirectory
  · rw [endAt_some hentry]
    rfl

theorem replace_of_places (hfs : fs.Unlinked) {s t : Location} (hs : fs.place? source = some s)
    (ht : fs.place? target = some t) (hbytes : fs.entryAt? s = some (.file bytes)) :
    (replace source target).run.run fs = (.ok (), fs.moved s t (.file bytes)) := by
  unfold replace FileSystem.moved
  rw [run_bind, run_resolve, resolve_of_place hs]
  dsimp only
  rw [run_bind, run_resolve, resolve_of_place ht, endAt_some hbytes]
  dsimp only
  rcases hentry : fs.entryAt? t with _ | _ | _ | _
  · obtain ⟨dir, name, hend, hname⟩ := endAt_none (isPlace_of_place ht).ne_root hentry
    have hne : s ≠ t := by
      rintro rfl
      rw [hbytes] at hentry
      cases hentry
    rw [hend, if_neg hne, ← hname]
    rfl
  · rw [endAt_some hentry]
    dsimp only
    by_cases hne : s = t
    · rw [if_pos hne, if_pos hne]
      rfl
    · rw [if_neg hne, if_neg hne]
      rfl
  · exact absurd hentry (isPlace_of_place ht).noDirectory
  · exact absurd hentry (hfs.entryAt_ne_link _)

/-- **A file is moved exactly from a place where one stands to a place.** -/
theorem replace_eq_ok_iff (hfs : fs.Unlinked) :
    (replace source target).run.run fs = (.ok (), fs') ↔
      ∃ s t bytes, fs.place? source = some s ∧ fs.place? target = some t ∧
        fs.entryAt? s = some (.file bytes) ∧ fs' = fs.moved s t (.file bytes) := by
  constructor
  · intro h
    have hrun := h
    unfold replace at h
    rw [run_bind, run_resolve] at h
    rcases hs : fs.place? source with _ | s
    · rcases resolve_of_no_place hs with ⟨f, hres⟩ | ⟨l, hres⟩
      · rw [hres] at h
        cases h
      · rw [hres] at h
        dsimp only at h
        rw [run_bind, run_resolve] at h
        rcases htarget : fs.resolve false target with f | t <;> rw [htarget] at h <;> cases h
    · rw [resolve_of_place hs] at h
      dsimp only at h
      rw [run_bind, run_resolve] at h
      rcases hentry : fs.entryAt? s with _ | bytes | _ | link
      · obtain ⟨dir, name, hend, -⟩ := endAt_none (isPlace_of_place hs).ne_root hentry
        rw [hend] at h
        rcases htarget : fs.resolve false target with f | t <;> rw [htarget] at h <;> cases h
      · rcases ht : fs.place? target with _ | t
        · obtain ⟨f, hf⟩ := replace_blocked hentry (resolve_of_place hs) ht
          rw [hf] at hrun
          cases hrun
        · rw [replace_of_places hfs hs ht hentry] at hrun
          cases hrun
          exact ⟨s, t, bytes, rfl, rfl, hentry, rfl⟩
      · exact absurd hentry (isPlace_of_place hs).noDirectory
      · exact absurd hentry (hfs.entryAt_ne_link link)
  · rintro ⟨s, t, bytes, hs, ht, hbytes, rfl⟩
    exact replace_of_places hfs hs ht hbytes

end

end Change

/-! ### Making directories -/

/-- Directories are added where nothing was. -/
structure Adds (fs fs' : FileSystem) : Prop where
  unlinked : fs'.Unlinked
  workingDirectory : fs'.workingDirectory = fs.workingDirectory
  entry : ∀ l, fs'.entryAt? l = fs.entryAt? l ∨
    (fs.entryAt? l = none ∧ fs'.entryAt? l = some .directory)

theorem Adds.refl (h : fs.Unlinked) : Adds fs fs := ⟨h, rfl, fun _ => .inl rfl⟩

theorem Adds.trans {fs'' : FileSystem} (h : Adds fs fs') (h' : Adds fs' fs'') : Adds fs fs'' where
  unlinked := h'.unlinked
  workingDirectory := h'.workingDirectory.trans h.workingDirectory
  entry := by
    intro l
    rcases h'.entry l with hsame' | ⟨hnone', hdir'⟩
    · rw [hsame']
      exact h.entry l
    · rcases h.entry l with hsame | ⟨-, hdir⟩
      · exact .inr ⟨hsame ▸ hnone', hdir'⟩
      · rw [hdir] at hnone'
        cases hnone'

theorem Adds.keepsDirectories (h : Adds fs fs') : KeepsDirectories fs fs' where
  workingDirectory := h.workingDirectory
  directory := by
    intro l hl
    rcases h.entry l with hsame | ⟨hnone, -⟩
    · rw [hsame, hl]
    · rw [hl] at hnone
      cases hnone

/-- The files are the same. -/
theorem Adds.file_iff (h : Adds fs fs') {l : Location} {bytes : ByteArray} :
    fs'.entryAt? l = some (.file bytes) ↔ fs.entryAt? l = some (.file bytes) := by
  rcases h.entry l with hsame | ⟨hnone, hdir⟩
  · rw [hsame]
  · simp [hnone, hdir]

namespace Change

/-- **A directory is made exactly where nothing is.** -/
theorem makeDirectory_cases (fs : FileSystem) (path : String) :
    (∃ f, (makeDirectory path).run.run fs = (.error f, fs)) ∨
      ∃ loc, fs.place? path = some loc ∧ fs.entryAt? loc = none ∧
        (makeDirectory path).run.run fs = (.ok (), fs.set loc .directory) := by
  unfold makeDirectory create
  rw [run_bind, run_resolve]
  rcases hres : fs.resolve false path with f | ⟨l, e⟩ | ⟨dir, name⟩
  · exact .inl ⟨f, rfl⟩
  · exact .inl ⟨.exists_, rfl⟩
  · have hplace : fs.place? path = some (dir ++ [name]) := by
      unfold place?
      rw [hres]
      rfl
    refine .inr ⟨dir ++ [name], hplace, ?_, rfl⟩
    rcases hentry : fs.entryAt? (dir ++ [name]) with _ | e
    · rfl
    · rw [resolve_of_place hplace, endAt_some hentry] at hres
      cases hres

theorem adds_set (hfs : fs.Unlinked) (hplace : fs.place? path = some loc)
    (hnone : fs.entryAt? loc = none) : Adds fs (fs.set loc .directory) where
  unlinked := hfs.set_place hplace rfl
  workingDirectory := rfl
  entry := by
    intro l
    rw [entryAt_set _ (isPlace_of_place hplace).ne_root]
    split
    · rename_i heq
      exact .inr ⟨heq ▸ hnone, rfl⟩
    · exact .inl rfl

theorem makeDirectory_adds (fs : FileSystem) (path : String) (hfs : fs.Unlinked) :
    Adds fs ((makeDirectory path).run.run fs).2 := by
  rcases makeDirectory_cases fs path with ⟨f, hrun⟩ | ⟨loc, hplace, hnone, hrun⟩
  · rw [hrun]
    exact .refl hfs
  · rw [hrun]
    exact adds_set hfs hplace hnone

/-- **Making a path adds directories only.** -/
theorem makePath_adds (fuel : Nat) (p : Path) (hfs : fs.Unlinked) :
    Adds fs ((makePath fuel p).run.run fs).2 :=
  @makePath_lift (fun fs fs' => fs.Unlinked → Adds fs fs') (fun _ => True)
    (fun fs p _ => makeDirectory_adds fs p.text) (fun _ h => h)
    (fun _ _ _ h h' hfs => (h hfs).trans (h' (h hfs).unlinked)) fuel p trivial fs hfs

theorem find_of_makeDirectory (hfs : fs.Unlinked)
    (h : (makeDirectory path).run.run fs = (.ok (), fs')) :
    ∃ loc, fs'.find true path = .ok (loc, .directory) := by
  rcases makeDirectory_cases fs path with ⟨f, hrun⟩ | ⟨loc, hplace, hnone, hrun⟩
  · rw [hrun] at h
    cases h
  · rw [hrun] at h
    cases h
    have hadds := adds_set hfs hplace hnone
    refine ⟨loc, (find_eq_ok_iff hadds.unlinked).2 ⟨?_, ?_⟩⟩
    · exact ((place_eq_some_iff hfs).1 hplace).1.mono hadds.keepsDirectories
    · exact entryAt_set_self (isPlace_of_place hplace).ne_root

theorem find_of_acceptDirectory {f : Fault}
    (h : (acceptDirectory path f).run.run fs = (.ok (), fs')) :
    ∃ loc, fs'.find true path = .ok (loc, .directory) := by
  have hsame : fs' = fs := by
    have hsnd := acceptDirectory_same fs path f
    rwa [h] at hsnd
  subst hsame
  rw [← isDirectory_eq_true]
  unfold acceptDirectory at h
  split at h
  · cases h
  · rw [run_bind, run_get] at h
    dsimp only at h
    rcases hdir : fs'.isDirectory path with g | _ | _
    · rw [hdir] at h
      cases h
    · rw [hdir] at h
      cases h
    · rfl

theorem find_of_makeLeaf (hfs : fs.Unlinked)
    (h : (makeLeaf path).run.run fs = (.ok (), fs')) :
    ∃ loc, fs'.find true path = .ok (loc, .directory) := by
  unfold makeLeaf at h
  rw [run_tryCatch] at h
  rcases hrun : (makeDirectory path).run.run fs with ⟨f | _, fs₁⟩
  · rw [hrun] at h
    dsimp only at h
    split at h
    · cases h
    · exact find_of_acceptDirectory h
  · rw [hrun] at h
    cases h
    exact find_of_makeDirectory hfs hrun

/-- **A path that has been made leads to a directory.** -/
theorem find_of_makePath {fuel : Nat} {p : Path} (hfs : fs.Unlinked)
    (h : (makePath fuel p).run.run fs = (.ok (), fs')) :
    ∃ loc, fs'.find true p.text = .ok (loc, .directory) := by
  cases fuel with
  | zero => exact find_of_makeLeaf hfs h
  | succ fuel =>
    unfold makePath at h
    rw [run_tryCatch] at h
    have hadds := makeDirectory_adds fs p.text hfs
    rcases hrun : (makeDirectory p.text).run.run fs with ⟨f | _, fs₁⟩
    · rw [hrun] at h hadds
      dsimp only at h
      split at h
      · split at h
        · cases h
        · rw [run_bind] at h
          have hparent := makePath_adds fuel p.parent hadds.unlinked
          rcases hpath : (makePath fuel p.parent).run.run fs₁ with ⟨g | _, fs₂⟩
          · rw [hpath] at h
            cases h
          · rw [hpath] at h hparent
            exact find_of_makeLeaf hparent.unlinked h
      · exact find_of_acceptDirectory h
    · rw [hrun] at h
      cases h
      exact find_of_makeDirectory hfs hrun

/-- **A path that leads to a directory is left as it is.** -/
theorem makeDirectories_of_find {p : Path} (hfs : fs.Unlinked)
    (h : fs.find true p.text = .ok (loc, .directory)) :
    (makeDirectories p).run.run fs = (.ok (), fs) := by
  obtain ⟨hcomes, hdir⟩ := (find_eq_ok_iff hfs).1 h
  have hmake : (makeDirectory p.text).run.run fs = (.error .exists_, fs) := by
    unfold makeDirectory create
    rw [run_bind, run_resolve, hcomes.resolve hfs, endAt_some hdir]
    rfl
  unfold makeDirectories makePath
  rw [run_tryCatch, hmake]
  dsimp only
  rw [if_neg (by simp)]
  unfold acceptDirectory
  rw [if_neg (by simp), run_bind, run_get]
  dsimp only
  rw [isDirectory_eq_true.2 ⟨loc, h⟩]
  rfl

end Change

end WorkflowCatalog.FileSystem
