/-
  WorkflowCatalog/Proofs/Overwriting.lean
  =======================================
  **Where paths lead while files are written over.**  Writing, moving and removing files
  makes files of entries that are no directories, and nothing of files (`Becomes`).  So the
  way to a place can be lost, where a file takes the place of a link on it, but no path
  comes to a place that it has not led to before (`Rewrites.place_of_place`).  A path that
  has lost its way meets a file where a directory should be (`Rewrites.place_or_blocked`).

  The changes of files are told by what stands in their way: a path that leads to a
  directory or nowhere meets an *obstacle* (`obstacle?`), and any other has a place.  Where
  no link stands at the place that is written, changes touch the places of their paths and
  nothing else (`touches_write`, `touches_unlinkIfPresent`, `touches_replace`).
-/
import WorkflowCatalog.Proofs.UnlinkedChange

namespace WorkflowCatalog.FileSystem

/-! ### Entries that are written over -/

/-- What can come of an entry, or of none, where files are written, moved and removed. -/
inductive Becomes : Option Entry → Option Entry → Prop where
  | same (e : Option Entry) : Becomes e e
  | written {e : Option Entry} (bytes : ByteArray) (h : e ≠ some .directory) :
    Becomes e (some (.file bytes))
  | removed (bytes : ByteArray) : Becomes (some (.file bytes)) none

/-- Nothing but files has come, and nothing but files has gone. -/
structure Rewrites (fs fs' : FileSystem) : Prop where
  workingDirectory : fs'.workingDirectory = fs.workingDirectory
  becomes : ∀ l, Becomes (fs.entryAt? l) (fs'.entryAt? l)

/-- An entry from which a way can go on. -/
def IsStep (fs : FileSystem) (l : Location) : Prop :=
  fs.entryAt? l = some .directory ∨ ∃ target, fs.entryAt? l = some (.link target)

section

variable {e e' : Option Entry}

theorem Becomes.directory (h : Becomes (some .directory) e') : e' = some .directory := by
  cases h with
  | same => rfl
  | written bytes hne => exact absurd rfl hne

theorem Becomes.of_directory (h : Becomes e (some .directory)) : e = some .directory := by
  cases h
  rfl

theorem Becomes.of_link {target : String} (h : Becomes e (some (.link target))) :
    e = some (.link target) := by
  cases h
  rfl

theorem Becomes.link {target : String} (h : Becomes (some (.link target)) e') :
    e' = some (.link target) ∨ ∃ bytes, e' = some (.file bytes) := by
  cases h with
  | same => exact .inl rfl
  | written bytes => exact .inr ⟨bytes, rfl⟩

/-- No link comes. -/
theorem Becomes.isLink (h : Becomes e e') (hlink : ∀ x ∈ e, x.isLink = false) :
    ∀ x ∈ e', x.isLink = false := by
  cases h with
  | same => exact hlink
  | written bytes =>
    rintro x ⟨⟩
    rfl
  | removed bytes => exact nofun

/-- A file can be removed from where neither a directory nor a link has been. -/
theorem Becomes.to_none (hdir : e ≠ some .directory) (hlink : ∀ x ∈ e, x.isLink = false) :
    Becomes e none := by
  rcases e with _ | _ | _ | target
  · exact .same none
  · exact .removed _
  · exact absurd rfl hdir
  · exact absurd (hlink _ rfl) Bool.noConfusion

end

theorem Rewrites.refl (fs : FileSystem) : Rewrites fs fs := ⟨rfl, fun _ => .same _⟩

/-! ### Ways that are kept -/

section

variable {fs fs' : FileSystem} {followLast : Bool} {onLink onLink' : Location → List String → Trail}
  {here loc l : Location} {n : String} {names : List String}

/-- A step from which a way goes on is as it was. -/
theorem Rewrites.eq_of_isStep (h : Rewrites fs fs') (hstep : IsStep fs' l) :
    fs.entryAt? l = fs'.entryAt? l := by
  have hbecomes := h.becomes l
  rcases hstep with hdir | ⟨target, hlink⟩
  · rw [hdir] at hbecomes ⊢
    exact hbecomes.of_directory
  · rw [hlink] at hbecomes ⊢
    exact hbecomes.of_link

theorem mem_dropLast_cons {x a : Location} {ls : List Location} (h : x ∈ (a :: ls).dropLast) :
    x = a ∨ x ∈ ls.dropLast := by
  cases ls with
  | nil => exact absurd h List.not_mem_nil
  | cons b ls => exact List.mem_cons.1 h

/-- On the way to a place only directories and links are met. -/
theorem trailAlong_steps
    (hlink : ∀ here names, LeadsTo (onLink here names) loc →
      ∀ x ∈ (onLink here names).1.dropLast, IsStep fs x)
    (h : LeadsTo (trailAlong fs followLast onLink here names) loc) :
    ∀ x ∈ (trailAlong fs followLast onLink here names).1.dropLast, IsStep fs x := by
  obtain ⟨t, ht, hspot⟩ := h
  induction names generalizing here with
  | nil => exact fun x hx => absurd hx List.not_mem_nil
  | cons n rest ih =>
    rcases name_cases n with rfl | rfl | hn | hn
    · exact ih ht
    · exact ih ht
    · rw [trailAlong_long hn] at ht
      cases ht
    rw [trailAlong_name hn] at ht ⊢
    dsimp only at ht ⊢
    rcases onward_cases ht with ⟨-, hway, -⟩ | ⟨hentry, hway⟩ | ⟨target, hentry, -, -, hway⟩
    · rw [hway]
      exact fun x hx => absurd hx List.not_mem_nil
    · rw [hway] at ht ⊢
      intro x hx
      rcases mem_dropLast_cons hx with rfl | hx
      · exact .inl hentry
      · exact ih ht x hx
    · rw [hway] at ht ⊢
      intro x hx
      rcases mem_dropLast_cons hx with rfl | hx
      · exact .inr ⟨target, hentry⟩
      · exact hlink _ _ ⟨t, ht, hspot⟩ x hx

theorem trailFollow_steps {fuel : Nat}
    (h : LeadsTo (trailFollow fs followLast fuel here names) loc) :
    ∀ x ∈ (trailFollow fs followLast fuel here names).1.dropLast, IsStep fs x := by
  induction fuel generalizing here names with
  | zero => exact trailAlong_steps (fun _ _ h => absurd h not_leadsTo_error) h
  | succ fuel ih => exact trailAlong_steps (fun _ _ => ih) h

/-- Where a link on the way to a place has changed, the way ends at a file. -/
theorem trailAlong_blocked (hbecomes : ∀ l, Becomes (fs.entryAt? l) (fs'.entryAt? l))
    (hlink : ∀ here names, LeadsTo (onLink here names) loc →
      (∃ x ∈ (onLink here names).1.dropLast, fs'.entryAt? x ≠ fs.entryAt? x) →
        (onLink' here names).2 = .error .notDirectory)
    (h : LeadsTo (trailAlong fs false onLink here names) loc)
    (hchanged : ∃ x ∈ (trailAlong fs false onLink here names).1.dropLast,
      fs'.entryAt? x ≠ fs.entryAt? x) :
    (trailAlong fs' false onLink' here names).2 = .error .notDirectory := by
  obtain ⟨t, ht, hspot⟩ := h
  induction names generalizing here with
  | nil =>
    obtain ⟨x, hx, -⟩ := hchanged
    exact absurd hx List.not_mem_nil
  | cons n rest ih =>
    rcases name_cases n with rfl | rfl | hn | hn
    · exact ih hchanged ht
    · exact ih hchanged ht
    · rw [trailAlong_long hn] at ht
      cases ht
    have hway : trailAlong fs false onLink here (n :: rest) = _ := trailAlong_name hn
    rw [hway] at ht hchanged
    rw [trailAlong_name hn]
    dsimp only at ht hchanged ⊢
    obtain ⟨x, hx, hne⟩ := hchanged
    have hnext := hbecomes (here ++ [n])
    rcases onward_cases ht with ⟨-, hend, -⟩ | ⟨hentry, hgo⟩ | ⟨target, hentry, hlast, hempty, hgo⟩
    · rw [hend] at hx
      exact absurd hx List.not_mem_nil
    · rw [hentry] at hnext
      have hsame := hnext.directory
      rw [hgo] at ht hx
      rw [hsame]
      rcases mem_dropLast_cons hx with rfl | hx
      · exact absurd (hsame.trans hentry.symm) hne
      · exact ih ⟨x, hx, hne⟩ ht
    · rw [hentry] at hnext
      rw [hgo] at ht hx
      have hrest : rest ≠ [] := fun hnil => hlast ⟨hnil, rfl⟩
      rcases hnext.link with hsame | ⟨bytes, hfile⟩
      · rw [hsame, onward_link hlast hempty]
        rcases mem_dropLast_cons hx with rfl | hx
        · exact absurd (hsame.trans hentry.symm) hne
        · exact hlink _ _ ⟨t, ht, hspot⟩ ⟨x, hx, hne⟩
      · rw [hfile]
        dsimp only [onward]
        rw [if_neg hrest]

theorem trailFollow_blocked {fuel : Nat}
    (hbecomes : ∀ l, Becomes (fs.entryAt? l) (fs'.entryAt? l))
    (h : LeadsTo (trailFollow fs false fuel here names) loc)
    (hchanged : ∃ x ∈ (trailFollow fs false fuel here names).1.dropLast,
      fs'.entryAt? x ≠ fs.entryAt? x) :
    (trailFollow fs' false fuel here names).2 = .error .notDirectory := by
  induction fuel generalizing here names with
  | zero => exact trailAlong_blocked hbecomes (fun _ _ h => absurd h not_leadsTo_error) h hchanged
  | succ fuel ih => exact trailAlong_blocked hbecomes (fun _ _ => ih) h hchanged

end

section

variable {fs fs' : FileSystem} {path : String} {loc : Location}

/-- The locations on the way to a place lead on. -/
theorem isStep_of_place (h : fs.place? path = some loc) :
    ∀ x ∈ (fs.lookups false path).dropLast, IsStep fs x := by
  have hleads := leadsTo_of_place h
  unfold lookups
  rcases trail_cases path with ⟨f, hnowhere⟩ | hway
  · rw [hnowhere] at hleads
    exact absurd hleads not_leadsTo_error
  · rw [hway] at hleads ⊢
    exact trailFollow_steps hleads

theorem place_of_resolve_endAt (h : fs.resolve false path = .ok (fs.endAt loc))
    (hdir : fs.entryAt? loc ≠ some .directory) : fs.place? path = some loc := by
  unfold place?
  rw [h]
  exact spot_endAt hdir

/-- A way to a place that is as it was leads to the place. -/
theorem Rewrites.place_of_same (h : Rewrites fs fs') (hplace : fs.place? path = some loc)
    (hsame : ∀ x ∈ (fs.lookups false path).dropLast, fs'.entryAt? x = fs.entryAt? x) :
    fs'.place? path = some loc := by
  have hdir : fs'.entryAt? loc ≠ some .directory := by
    intro hdir
    have hbecomes := h.becomes loc
    rw [hdir] at hbecomes
    exact (isPlace_of_place hplace).noDirectory hbecomes.of_directory
  have htrail : fs'.trail false path = _ := trail_of_place h.workingDirectory hplace nofun hsame
  refine place_of_resolve_endAt ?_ hdir
  rw [← trail_snd, htrail]

/-- **No path comes to a new place**, and the way to its place is as it was. -/
theorem Rewrites.place_of_place (h : Rewrites fs fs') (hplace : fs'.place? path = some loc) :
    fs.place? path = some loc ∧
      ∀ x ∈ (fs.lookups false path).dropLast, fs'.entryAt? x = fs.entryAt? x := by
  have hsteps : ∀ x ∈ (fs'.lookups false path).dropLast, fs.entryAt? x = fs'.entryAt? x :=
    fun x hx => h.eq_of_isStep (isStep_of_place hplace x hx)
  have hdir : fs.entryAt? loc ≠ some .directory := by
    intro hdir
    have hbecomes := h.becomes loc
    rw [hdir] at hbecomes
    exact (isPlace_of_place hplace).noDirectory hbecomes.directory
  have htrail : fs.trail false path = _ :=
    trail_of_place h.workingDirectory.symm hplace nofun hsteps
  constructor
  · refine place_of_resolve_endAt ?_ hdir
    rw [← trail_snd, htrail]
  · intro x hx
    unfold lookups at hx
    rw [htrail] at hx
    exact (hsteps x hx).symm

/-- **A path keeps its place, or its way is blocked.** -/
theorem Rewrites.place_or_blocked (h : Rewrites fs fs') (hplace : fs.place? path = some loc) :
    fs'.place? path = some loc ∨ fs'.resolve false path = .error .notDirectory := by
  by_cases hsame : ∀ x ∈ (fs.lookups false path).dropLast, fs'.entryAt? x = fs.entryAt? x
  · exact .inl (h.place_of_same hplace hsame)
  right
  have hchanged : ∃ x ∈ (fs.lookups false path).dropLast, fs'.entryAt? x ≠ fs.entryAt? x := by
    simpa using hsame
  have hleads := leadsTo_of_place hplace
  unfold lookups at hchanged
  rw [← trail_snd]
  rcases trail_cases path with ⟨f, hnowhere⟩ | hway
  · rw [hnowhere] at hleads
    exact absurd hleads not_leadsTo_error
  · rw [hway] at hleads hchanged ⊢
    rw [h.workingDirectory]
    exact trailFollow_blocked h.becomes hleads hchanged

end

/-! ### Obstacles -/

/-- What keeps a file from being written to a path, or from being removed there. -/
def obstacle? (fs : FileSystem) (path : String) : Option Fault :=
  match fs.resolve false path with
  | .error f => some f
  | .ok (.present _ .directory) => some .isDirectory
  | .ok _ => none

section

variable {fs fs' : FileSystem} {path : String} {loc : Location} {f : Fault}

/-- **An obstacle or a place.** -/
theorem obstacle_eq_none_iff : fs.obstacle? path = none ↔ fs.place? path ≠ none := by
  unfold obstacle? place?
  rcases fs.resolve false path with f | ⟨l, _ | _ | _⟩ | ⟨dir, name⟩ <;> simp [spot?]

theorem exists_obstacle (h : fs.place? path = none) : ∃ f, fs.obstacle? path = some f := by
  rw [← Option.ne_none_iff_exists']
  exact fun hnone => obstacle_eq_none_iff.1 hnone h

theorem obstacle_cases (h : fs.obstacle? path = some f) :
    fs.resolve false path = .error f ∨
      (f = .isDirectory ∧ ∃ l, fs.resolve false path = .ok (.present l .directory)) := by
  unfold obstacle? at h
  rcases hres : fs.resolve false path with g | ⟨l, _ | _ | _⟩ | ⟨dir, name⟩ <;> rw [hres] at h <;>
    cases h
  · exact .inl rfl
  · exact .inr ⟨rfl, l, rfl⟩

theorem resolve_true_of_obstacle (h : fs.obstacle? path = some f) :
    fs.resolve true path = fs.resolve false path := by
  rw [← trail_snd, trail_unlinked, trail_snd]
  intro l target hlink
  rcases obstacle_cases h with hres | ⟨-, l', hres⟩ <;> rw [hlink] at hres <;> cases hres

namespace Change

/-! ### What single changes do -/

theorem write_of_obstacle (bytes : ByteArray) (h : fs.obstacle? path = some f) :
    (write path bytes).run.run fs = (.error f, fs) := by
  unfold write
  rw [run_bind, run_resolve, resolve_true_of_obstacle h]
  rcases obstacle_cases h with hres | ⟨rfl, l, hres⟩
  · rw [hres]
  · rw [hres]
    rfl

/-- A file is written to a place where no link stands. -/
theorem write_of_unlinked_place (bytes : ByteArray) (h : fs.place? path = some loc)
    (hlink : ∀ e ∈ fs.entryAt? loc, e.isLink = false) :
    ∃ fs', (write path bytes).run.run fs = (.ok (), fs') ∧
      Puts fs fs' loc (some (.file bytes)) := by
  have hplace := isPlace_of_place h
  have hend : IsEnd fs true loc := ⟨hplace.noDirectory, fun _ => hlink⟩
  apply write_puts hplace.ne_root hend
  rw [← trail_snd, trail_of_place rfl h hend.noLink fun _ _ => rfl]

theorem unlinkIfPresent_of_obstacle (h : fs.obstacle? path = some f) :
    (unlinkIfPresent path).run.run fs = (if f = .notFound then .ok () else .error f, fs) := by
  unfold unlinkIfPresent unlink
  rw [run_tryCatch, run_bind, run_resolve]
  rcases obstacle_cases h with hres | ⟨rfl, l, hres⟩
  · rw [hres]
    cases f <;> rfl
  · rw [hres]
    rfl

/-- What is there is moved, unless something is in the way. -/
theorem replace_cases (fs : FileSystem) (source target : String) :
    (∃ f, (replace source target).run.run fs = (.error f, fs)) ∨
      ∃ s t e, fs.place? source = some s ∧ fs.place? target = some t ∧
        fs.entryAt? s = some e ∧ (replace source target).run.run fs = (.ok (), fs.moved s t e) := by
  unfold replace
  rw [run_bind, run_resolve]
  rcases hsource : fs.place? source with _ | s
  · rcases resolve_of_no_place hsource with ⟨f, hres⟩ | ⟨l, hres⟩
    · rw [hres]
      exact .inl ⟨f, rfl⟩
    · rw [hres]
      dsimp only
      rw [run_bind, run_resolve]
      rcases fs.resolve false target with g | t
      · exact .inl ⟨g, rfl⟩
      · exact .inl ⟨.isDirectory, rfl⟩
  rw [resolve_of_place hsource]
  dsimp only
  rw [run_bind, run_resolve]
  rcases htarget : fs.place? target with _ | t
  · rcases resolve_of_no_place htarget with ⟨f, hres⟩ | ⟨l, hres⟩
    · rw [hres]
      exact .inl ⟨f, rfl⟩
    · rw [hres]
      dsimp only
      left
      rcases fs.endAt s with ⟨l', _ | _ | _⟩ | ⟨dir, name⟩ <;> exact ⟨_, rfl⟩
  rw [resolve_of_place htarget]
  dsimp only
  rcases hentry : fs.entryAt? s with _ | e
  · obtain ⟨dir, name, hend, -⟩ := endAt_none (isPlace_of_place hsource).ne_root hentry
    rw [hend]
    exact .inl ⟨.notFound, rfl⟩
  right
  refine ⟨s, t, e, rfl, rfl, hentry, ?_⟩
  have hfile : e ≠ .directory := by
    rintro rfl
    exact (isPlace_of_place hsource).noDirectory hentry
  rw [endAt_some hentry]
  unfold FileSystem.moved
  rcases hthere : fs.entryAt? t with _ | e'
  · obtain ⟨dir, name, hend, hname⟩ := endAt_none (isPlace_of_place htarget).ne_root hthere
    have hne : s ≠ t := by
      rintro rfl
      rw [hentry] at hthere
      cases hthere
    rw [hend, if_neg hne, ← hname]
    cases e with
    | directory => exact absurd rfl hfile
    | file | link => rfl
  · rw [endAt_some hthere]
    have hfile' : e' ≠ .directory := by
      rintro rfl
      exact (isPlace_of_place htarget).noDirectory hthere
    cases e with
    | directory => exact absurd rfl hfile
    | file | link =>
      cases e' with
      | directory => exact absurd rfl hfile'
      | file | link =>
        dsimp only
        split <;> rfl

end Change

end

/-! ### Touched locations -/

/-- Files come and go at some locations, and everything else stays. -/
structure Touches (D : Location → Prop) (fs fs' : FileSystem) : Prop extends Rewrites fs fs' where
  elsewhere : ∀ l, ¬ D l → fs'.entryAt? l = fs.entryAt? l

/-- No link stands at the place of the path. -/
def NoLinkAt (fs : FileSystem) (path : String) : Prop :=
  ∀ l ∈ fs.place? path, ∀ e ∈ fs.entryAt? l, e.isLink = false

section

variable {D : Location → Prop} {fs fs' fs'' : FileSystem} {path source target : String}
  {l s t : Location}

theorem Touches.refl (D : Location → Prop) (fs : FileSystem) : Touches D fs fs :=
  ⟨.refl fs, fun _ _ => rfl⟩

theorem Touches.puts {e : Option Entry} (h : Touches D fs fs') (hputs : Puts fs' fs'' l e)
    (hl : D l) (he : Becomes (fs.entryAt? l) e) : Touches D fs fs'' where
  workingDirectory := hputs.workingDirectory.trans h.workingDirectory
  becomes := by
    intro x
    by_cases hx : x = l
    · rw [hx, hputs.there]
      exact he
    · rw [hputs.elsewhere x hx]
      exact h.becomes x
  elsewhere := by
    intro x hx
    rw [hputs.elsewhere x fun heq => hx (heq ▸ hl)]
    exact h.elsewhere x hx

theorem Touches.moved {bytes : ByteArray} (h : Touches D fs fs') (hs : s ≠ []) (ht : t ≠ [])
    (hfile : fs'.entryAt? s = some (.file bytes)) (hsource : D s) (htarget : D t)
    (hgone : Becomes (fs.entryAt? s) none) (hthere : fs.entryAt? t ≠ some .directory) :
    Touches D fs (fs'.moved s t (.file bytes)) where
  workingDirectory := (workingDirectory_moved _ _ _ _).trans h.workingDirectory
  becomes := by
    intro x
    rw [entryAt_moved hs ht hfile]
    split
    · rename_i hx
      rw [hx]
      exact .written bytes hthere
    · split
      · rename_i hx
        rw [hx]
        exact hgone
      · exact h.becomes x
  elsewhere := by
    intro x hx
    have hne : x ≠ s := fun heq => hx (heq ▸ hsource)
    have hne' : x ≠ t := fun heq => hx (heq ▸ htarget)
    rw [entryAt_moved hs ht hfile, if_neg hne', if_neg hne]
    exact h.elsewhere x hx

theorem NoLinkAt.of_rewrites (h : NoLinkAt fs path) (hrewrites : Rewrites fs fs') :
    NoLinkAt fs' path := by
  intro l hl
  exact (hrewrites.becomes l).isLink (h l (hrewrites.place_of_place hl).1)

/-- A file that stands where no link has been can be taken away. -/
theorem NoLinkAt.becomes_none (h : NoLinkAt fs path) (hl : fs.place? path = some l) :
    Becomes (fs.entryAt? l) none :=
  .to_none (isPlace_of_place hl).noDirectory (h l hl)

/-- What stands at a place without links is a file. -/
theorem NoLinkAt.exists_file {e : Entry} (h : NoLinkAt fs path) (hl : fs.place? path = some l)
    (he : fs.entryAt? l = some e) : ∃ bytes, e = .file bytes := by
  cases e with
  | file bytes => exact ⟨bytes, rfl⟩
  | directory => exact absurd he (isPlace_of_place hl).noDirectory
  | link target => exact absurd (h l hl _ he) Bool.noConfusion

/-- Taking away a file blocks no way. -/
theorem place_erase {other : String} (hlink : NoLinkAt fs path) (hl : fs.place? path = some l)
    (hs : fs.place? other = some s) : (fs.erase l).place? other = some s := by
  have hplace := isPlace_of_place hl
  have htouches : Touches (· = l) fs (fs.erase l) :=
    (Touches.refl _ fs).puts (puts_erase fs hplace.ne_root) rfl (hlink.becomes_none hl)
  refine htouches.place_of_same hs fun x hx => htouches.elsewhere x ?_
  rintro rfl
  rcases isStep_of_place hs x hx with hdir | ⟨target, htarget⟩
  · exact hplace.noDirectory hdir
  · exact absurd (hlink x hl _ htarget) Bool.noConfusion

variable (hlink : NoLinkAt fs path) (hD : ∀ l ∈ fs.place? path, D l) (h : Touches D fs fs')

include hlink hD h

theorem touches_write (bytes : ByteArray) :
    Touches D fs ((Change.write path bytes).run.run fs').2 := by
  rcases hplace : fs'.place? path with _ | l
  · obtain ⟨f, hf⟩ := exists_obstacle hplace
    rw [Change.write_of_obstacle bytes hf]
    exact h
  · have hl := (h.place_of_place hplace).1
    obtain ⟨fs'', hrun, hputs⟩ := Change.write_of_unlinked_place bytes hplace
      (hlink.of_rewrites h.toRewrites l hplace)
    rw [hrun]
    exact h.puts hputs (hD l hl) (.written bytes (isPlace_of_place hl).noDirectory)

theorem touches_unlinkIfPresent :
    Touches D fs ((Change.unlinkIfPresent path).run.run fs').2 := by
  rcases hplace : fs'.place? path with _ | l
  · obtain ⟨f, hf⟩ := exists_obstacle hplace
    rw [Change.unlinkIfPresent_of_obstacle hf]
    exact h
  · have hl := (h.place_of_place hplace).1
    rw [Change.unlinkIfPresent_of_place hplace]
    exact h.puts (puts_erase fs' (isPlace_of_place hl).ne_root) (hD l hl) (hlink.becomes_none hl)

theorem touches_replace (hD' : ∀ l ∈ fs.place? target, D l) :
    Touches D fs ((Change.replace path target).run.run fs').2 := by
  rcases Change.replace_cases fs' path target with ⟨f, hrun⟩ | ⟨s, t, e, hs, ht, he, hrun⟩
  · rw [hrun]
    exact h
  · have hsource := (h.place_of_place hs).1
    have htarget := (h.place_of_place ht).1
    obtain ⟨bytes, rfl⟩ := (hlink.of_rewrites h.toRewrites).exists_file hs he
    rw [hrun]
    exact h.moved (isPlace_of_place hs).ne_root (isPlace_of_place ht).ne_root he
      (hD s hsource) (hD' t htarget) (hlink.becomes_none hsource)
      (isPlace_of_place htarget).noDirectory

end

end WorkflowCatalog.FileSystem
