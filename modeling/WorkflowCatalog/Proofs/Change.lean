/-
  WorkflowCatalog/Proofs/Change.lean
  ==================================
  **What a change of the file system does.**  Writing to a place and removing what stands
  there puts an entry at one location (`Puts`), and moving a file changes two (`Moves`).
  Where the path has no place, nothing changes.

  Making directories puts directories where nothing was (`Grows`).  A path that leads to
  an entry goes on leading to it then (`seen_of_grows`).
-/
import WorkflowCatalog.Proofs.Journal
import WorkflowCatalog.Proofs.Resolution

namespace WorkflowCatalog.FileSystem

/-! ### Single locations -/

/-- An entry, or none, is put at a location. -/
structure Puts (fs fs' : FileSystem) (loc : Location) (e : Option Entry) : Prop where
  workingDirectory : fs'.workingDirectory = fs.workingDirectory
  there : fs'.entryAt? loc = e
  elsewhere : ∀ l, l ≠ loc → fs'.entryAt? l = fs.entryAt? l

/-- What stands at a location is moved to another one. -/
structure Moves (fs fs' : FileSystem) (source target : Location) : Prop where
  workingDirectory : fs'.workingDirectory = fs.workingDirectory
  gone : fs'.entryAt? source = none
  there : fs'.entryAt? target = fs.entryAt? source
  elsewhere : ∀ l, l ≠ source → l ≠ target → fs'.entryAt? l = fs.entryAt? l

variable {fs fs' : FileSystem} {loc : Location} {path : String}

theorem puts_set (fs : FileSystem) {loc : Location} (e : Entry) (h : loc ≠ []) :
    Puts fs (fs.set loc e) loc (some e) :=
  ⟨rfl, entryAt_set_self h, fun _ => entryAt_set_of_ne⟩

theorem puts_erase (fs : FileSystem) {loc : Location} (h : loc ≠ []) :
    Puts fs (fs.erase loc) loc none :=
  ⟨rfl, entryAt_erase_self h, fun _ => entryAt_erase_of_ne⟩

theorem moves_set {source target : Location} {e : Entry} (hsource : source ≠ [])
    (htarget : target ≠ []) (hne : source ≠ target) (he : fs.entryAt? source = some e) :
    Moves fs ((fs.erase source).set target e) source target where
  workingDirectory := rfl
  gone := by
    rw [entryAt_set_of_ne hne]
    exact entryAt_erase_self hsource
  there := by
    rw [he]
    exact entryAt_set_self htarget
  elsewhere := by
    intro l hs ht
    rw [entryAt_set_of_ne ht, entryAt_erase_of_ne hs]

/-! ### Ways to a place -/

/-- The end of a way to a place is put together from its location again. -/
theorem endAt_none (h : loc ≠ []) (hentry : fs.entryAt? loc = none) :
    ∃ dir name, fs.endAt loc = .absent dir name ∧ dir ++ [name] = loc := by
  refine ⟨loc.dropLast, loc.getLast h, ?_, List.dropLast_concat_getLast h⟩
  rw [endAt, hentry, List.getLast?_eq_some_getLast h]
  rfl

theorem endAt_some {e : Entry} (hentry : fs.entryAt? loc = some e) :
    fs.endAt loc = .present loc e := by
  rw [endAt, hentry]

theorem resolve_of_place (h : fs.place? path = some loc) :
    fs.resolve false path = .ok (fs.endAt loc) := by
  have htrail : fs.trail false path = _ := trail_of_place rfl h nofun fun _ _ => rfl
  rw [← trail_snd, htrail]

/-- A path without a place leads to a directory, or nowhere. -/
theorem resolve_of_no_place (h : fs.place? path = none) :
    (∃ f, fs.resolve false path = .error f) ∨
      ∃ l, fs.resolve false path = .ok (.present l .directory) := by
  unfold place? at h
  rcases hres : fs.resolve false path with f | t
  · exact .inl ⟨f, rfl⟩
  · rw [hres] at h
    rcases t with ⟨l, _ | _ | _⟩ | ⟨dir, name⟩
    · cases h
    · exact .inr ⟨l, rfl⟩
    · cases h
    · cases h

/-! ### Writing and removing -/

namespace Change

theorem run_get (fs : FileSystem) : (get : Change FileSystem).run.run fs = (.ok fs, fs) := rfl

theorem run_resolve (fs : FileSystem) (followLast : Bool) (path : String) :
    (resolve followLast path).run.run fs = (fs.resolve followLast path, fs) := by
  unfold resolve
  rw [run_bind, run_get]
  dsimp only
  cases fs.resolve followLast path <;> rfl

theorem write_puts {bytes : ByteArray} (hloc : loc ≠ []) (hend : IsEnd fs true loc)
    (h : fs.resolve true path = .ok (fs.endAt loc)) :
    ∃ fs', (write path bytes).run.run fs = (.ok (), fs') ∧
      Puts fs fs' loc (some (.file bytes)) := by
  refine ⟨fs.set loc (.file bytes), ?_, puts_set fs _ hloc⟩
  unfold write
  rw [run_bind, run_resolve, h]
  rcases hentry : fs.entryAt? loc with _ | _ | _ | _
  · obtain ⟨dir, name, he, hname⟩ := endAt_none hloc hentry
    rw [he, ← hname]
    rfl
  · rw [endAt_some hentry]
    rfl
  · exact absurd hentry hend.noDirectory
  · exact absurd (hend.noLink rfl _ hentry) Bool.noConfusion

theorem write_fails (bytes : ByteArray)
    (h : (∃ f, fs.resolve true path = .error f) ∨
      ∃ l, fs.resolve true path = .ok (.present l .directory)) :
    ∃ f, (write path bytes).run.run fs = (.error f, fs) := by
  unfold write
  rw [run_bind, run_resolve]
  rcases h with ⟨f, h⟩ | ⟨l, h⟩
  · exact ⟨f, by rw [h]⟩
  · refine ⟨.isDirectory, ?_⟩
    rw [h]
    rfl

theorem unlinkIfPresent_puts (hloc : loc ≠ []) (hend : IsEnd fs false loc)
    (h : fs.resolve false path = .ok (fs.endAt loc)) :
    ∃ fs', (unlinkIfPresent path).run.run fs = (.ok (), fs') ∧ Puts fs fs' loc none := by
  unfold unlinkIfPresent unlink
  rw [run_tryCatch, run_bind, run_resolve, h]
  rcases hentry : fs.entryAt? loc with _ | _ | _ | _
  · obtain ⟨dir, name, he, -⟩ := endAt_none hloc hentry
    rw [he]
    exact ⟨fs, rfl, rfl, hentry, fun _ _ => rfl⟩
  · rw [endAt_some hentry]
    exact ⟨fs.erase loc, rfl, puts_erase fs hloc⟩
  · exact absurd hentry hend.noDirectory
  · rw [endAt_some hentry]
    exact ⟨fs.erase loc, rfl, puts_erase fs hloc⟩

theorem unlinkIfPresent_of_no_place (h : fs.place? path = none) :
    ((unlinkIfPresent path).run.run fs).2 = fs := by
  unfold unlinkIfPresent unlink
  rw [run_tryCatch, run_bind, run_resolve]
  rcases resolve_of_no_place h with ⟨f, h⟩ | ⟨l, h⟩
  · rw [h]
    cases f <;> rfl
  · rw [h]
    rfl

/-! ### Moving -/

theorem replace_moves {source target : String} {s t : Location} {bytes : ByteArray}
    (hs : s ≠ []) (ht : t ≠ []) (hne : s ≠ t) (hbytes : fs.entryAt? s = some (.file bytes))
    (hend : IsEnd fs false t) (hsource : fs.resolve false source = .ok (fs.endAt s))
    (htarget : fs.resolve false target = .ok (fs.endAt t)) :
    ∃ fs', (replace source target).run.run fs = (.ok (), fs') ∧ Moves fs fs' s t := by
  refine ⟨(fs.erase s).set t (.file bytes), ?_, moves_set hs ht hne hbytes⟩
  unfold replace
  rw [run_bind, run_resolve, hsource]
  dsimp only
  rw [run_bind, run_resolve, htarget, endAt_some hbytes]
  rcases hentry : fs.entryAt? t with _ | _ | _ | _
  · obtain ⟨dir, name, he, hname⟩ := endAt_none ht hentry
    rw [he, ← hname]
    rfl
  · rw [endAt_some hentry]
    dsimp only
    rw [if_neg hne]
    rfl
  · exact absurd hentry hend.noDirectory
  · rw [endAt_some hentry]
    dsimp only
    rw [if_neg hne]
    rfl

/-- A file is not moved to a path that leads to a directory or nowhere. -/
theorem replace_blocked {source target : String} {s : Location} {bytes : ByteArray}
    (hbytes : fs.entryAt? s = some (.file bytes))
    (hsource : fs.resolve false source = .ok (fs.endAt s)) (htarget : fs.place? target = none) :
    ∃ f, (replace source target).run.run fs = (.error f, fs) := by
  unfold replace
  rw [run_bind, run_resolve, hsource]
  dsimp only
  rw [run_bind, run_resolve, endAt_some hbytes]
  rcases resolve_of_no_place htarget with ⟨f, h⟩ | ⟨l, h⟩
  · exact ⟨f, by rw [h]⟩
  · refine ⟨.isDirectory, ?_⟩
    rw [h]
    rfl

end Change

/-! ### Making directories -/

/-- No entry is lost or changed. -/
structure Grows (fs fs' : FileSystem) : Prop where
  workingDirectory : fs'.workingDirectory = fs.workingDirectory
  keeps : ∀ l, fs.entryAt? l ≠ none → fs'.entryAt? l = fs.entryAt? l

theorem Grows.refl (fs : FileSystem) : Grows fs fs := ⟨rfl, fun _ _ => rfl⟩

theorem Grows.trans {fs'' : FileSystem} (h : Grows fs fs') (h' : Grows fs' fs'') :
    Grows fs fs'' where
  workingDirectory := h'.workingDirectory.trans h.workingDirectory
  keeps := by
    intro l hl
    have hkeep := h.keeps l hl
    rw [h'.keeps l (by rw [hkeep]; exact hl), hkeep]

/-- A path that leads to an entry goes on leading to it. -/
theorem resolve_of_grows {followLast : Bool} {e : Entry} (h : Grows fs fs')
    (hres : fs.resolve followLast path = .ok (.present loc e)) :
    fs'.resolve followLast path = .ok (.present loc e) := by
  have hsame : fs'.trail followLast path = fs.trail followLast path := by
    apply trail_congr h.workingDirectory
    intro l hl
    obtain ⟨e', he', -⟩ := isMet_of_lookup hres l hl
    apply h.keeps
    rw [Option.mem_def.1 he']
    nofun
  rw [← trail_snd, hsame, trail_snd, hres]

theorem seen_of_grows {followLast : Bool} (h : Grows fs fs')
    (hseen : fs.seen? followLast path ≠ none) :
    fs'.seen? followLast path = fs.seen? followLast path := by
  unfold seen? at hseen ⊢
  split at hseen
  · rename_i loc e hres
    rw [resolve_of_grows h hres]
  · exact absurd rfl hseen

namespace Change

theorem makeDirectory_grows (fs : FileSystem) (path : String) :
    Grows fs ((makeDirectory path).run.run fs).2 := by
  unfold makeDirectory create
  rw [run_bind, run_resolve]
  rcases hres : fs.resolve false path with f | ⟨l, e⟩ | ⟨dir, name⟩
  · exact .refl fs
  · exact .refl fs
  · have hplace : fs.place? path = some (dir ++ [name]) := by
      unfold place?
      rw [hres]
      rfl
    have hnone : fs.entryAt? (dir ++ [name]) = none := by
      have hend := resolve_of_place hplace
      rw [hres] at hend
      rcases hentry : fs.entryAt? (dir ++ [name]) with _ | e
      · rfl
      · rw [endAt_some hentry] at hend
        cases hend
    refine ⟨rfl, fun l hl => entryAt_set_of_ne ?_⟩
    rintro rfl
    exact hl hnone

theorem acceptDirectory_same (fs : FileSystem) (path : String) (f : Fault) :
    ((acceptDirectory path f).run.run fs).2 = fs := by
  unfold acceptDirectory
  split
  · rfl
  · rw [run_bind, run_get]
    dsimp only
    rcases fs.isDirectory path with g | _ | _ <;> rfl

section

variable {R : FileSystem → FileSystem → Prop} {A : Path → Prop}
  (hmake : ∀ fs p, A p → R fs ((makeDirectory p.text).run.run fs).2)

include hmake

theorem makeLeaf_lift (fs : FileSystem) {p : Path} (hp : A p) :
    R fs ((makeLeaf p.text).run.run fs).2 := by
  unfold makeLeaf
  rw [run_tryCatch]
  have hone := hmake fs p hp
  rcases hrun : (makeDirectory p.text).run.run fs with ⟨f | _, fs'⟩
  · rw [hrun] at hone
    dsimp only
    split
    · exact hone
    · rw [acceptDirectory_same]
      exact hone
  · rw [hrun] at hone
    exact hone

/-- **What making one directory keeps to, making a path keeps to**, if it can be done again and
    again, and if parents are paths of the same kind. -/
theorem makePath_lift (hparent : ∀ p, A p → A p.parent)
    (htrans : ∀ fs fs' fs'', R fs fs' → R fs' fs'' → R fs fs'') (fuel : Nat) {p : Path} (hp : A p)
    (fs : FileSystem) : R fs ((makePath fuel p).run.run fs).2 := by
  induction fuel generalizing p fs with
  | zero => exact makeLeaf_lift hmake fs hp
  | succ fuel ih =>
    unfold makePath
    rw [run_tryCatch]
    have hone := hmake fs p hp
    rcases hrun : (makeDirectory p.text).run.run fs with ⟨f | _, fs'⟩
    · rw [hrun] at hone
      dsimp only
      split
      · split
        · exact hone
        · rw [run_bind]
          have hmade := htrans _ _ _ hone (ih (hparent p hp) fs')
          rcases hpath : (makePath fuel p.parent).run.run fs' with ⟨g | _, fs''⟩
          · rw [hpath] at hmade
            exact hmade
          · rw [hpath] at hmade
            exact htrans _ _ _ hmade (makeLeaf_lift hmake fs'' hp)
      · rw [acceptDirectory_same]
        exact hone
    · rw [hrun] at hone
      exact hone

end

/-- **Making directories loses and changes nothing.** -/
theorem makePath_grows (fuel : Nat) (p : Path) (fs : FileSystem) :
    Grows fs ((makePath fuel p).run.run fs).2 :=
  makePath_lift (fun fs p (_ : True) => makeDirectory_grows fs p.text) (fun _ h => h)
    (fun _ _ _ => Grows.trans) fuel trivial fs

end Change

end WorkflowCatalog.FileSystem
