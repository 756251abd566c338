/-
  WorkflowCatalog/Proofs/Edits.lean
  =================================
  **Edits of files in directories that stay.**  A file is put at a location, moved from one
  to another, or a location is cleared (`Edit`).  At places of paths this changes no
  directory, and so no place either (`Over.place_eq`).

  What edits lead to depends on what they find where they take a file from, and nowhere
  else (`runAll_agree`).  Edits that first put files and then take files only from where
  they have put them find the same when they are run again, whatever they have changed.
  Main statement: running them again leaves everything as it is (`runAll_again`).
-/
import WorkflowCatalog.Proofs.UnlinkedChange

namespace WorkflowCatalog.FileSystem

variable {z fs fs' fs₁ fs₂ : FileSystem} {loc l : Location}

/-! ### File systems over the same directories -/

/-- A file system without links over the directories of another one. -/
structure Over (z fs : FileSystem) : Prop where
  unlinked : fs.Unlinked
  workingDirectory : fs.workingDirectory = z.workingDirectory
  directory_iff : ∀ l, fs.entryAt? l = some .directory ↔ z.entryAt? l = some .directory

theorem Over.refl (h : z.Unlinked) : Over z z := ⟨h, rfl, fun _ => Iff.rfl⟩

theorem Over.keepsDirectories (h : Over z fs) : KeepsDirectories z fs :=
  ⟨h.workingDirectory, fun l => (h.directory_iff l).2⟩

theorem Over.comes_iff (h : Over z fs) {path : String} : Comes fs path loc ↔ Comes z path loc :=
  have hback : KeepsDirectories fs z := ⟨h.workingDirectory.symm, fun l => (h.directory_iff l).1⟩
  ⟨.mono hback, .mono h.keepsDirectories⟩

/-- **The directories tell the places.** -/
theorem Over.place_eq (hz : z.Unlinked) (h : Over z fs) (path : String) :
    fs.place? path = z.place? path := by
  refine Option.ext ?_
  intro loc
  rw [place_eq_some_iff h.unlinked, place_eq_some_iff hz, h.comes_iff, ne_eq, ne_eq,
    h.directory_iff]

/-! ### Edits -/

inductive Edit where
  | put (loc : Location) (bytes : ByteArray)
  | move (source target : Location)
  | clear (loc : Location)

namespace Edit

/-- A move needs a file to move. -/
def run : Edit → FileSystem → Option FileSystem
  | put loc bytes, fs => some (fs.set loc (.file bytes))
  | move source target, fs =>
    match fs.entryAt? source with
    | some (.file bytes) => some (fs.moved source target (.file bytes))
    | _ => none
  | clear loc, fs => some (fs.erase loc)

/-- The locations at which something may be changed. -/
def changed : Edit → List Location
  | put loc _ => [loc]
  | move source target => [source, target]
  | clear loc => [loc]

/-- The location that a file is taken from. -/
def source? : Edit → Option Location
  | move source _ => some source
  | _ => none

/-- What is left at a location that is changed. -/
def left (fs : FileSystem) : Edit → Location → Option Entry
  | put _ bytes, _ => some (.file bytes)
  | move source target, l => if l = target then fs.entryAt? source else none
  | clear _, _ => none

/-- Only places of paths are changed. -/
def IsAtPlaces (z : FileSystem) (e : Edit) : Prop :=
  ∀ l ∈ e.changed, ∃ path, z.place? path = some l

variable {e : Edit}

theorem run_move {source target : Location} :
    (move source target).run fs = some fs' ↔
      ∃ bytes, fs.entryAt? source = some (.file bytes) ∧
        fs' = fs.moved source target (.file bytes) := by
  unfold run
  dsimp only
  split
  · rename_i bytes hentry
    simp [hentry, eq_comm]
  · rename_i hno
    constructor
    · nofun
    · rintro ⟨bytes, hentry, -⟩
      exact absurd hentry (hno bytes)

theorem IsAtPlaces.ne_root (h : e.IsAtPlaces z) (hl : l ∈ e.changed) : l ≠ [] := by
  obtain ⟨path, hplace⟩ := h l hl
  exact (isPlace_of_place hplace).ne_root

/-- **What an edit does**: something else is left where it changes something. -/
theorem entryAt_run (hat : e.IsAtPlaces z) (hrun : e.run fs = some fs') (l : Location) :
    fs'.entryAt? l = if l ∈ e.changed then e.left fs l else fs.entryAt? l := by
  cases e with
  | put loc bytes =>
    cases hrun
    rw [entryAt_set _ (hat.ne_root List.mem_cons_self)]
    simp only [changed, List.mem_singleton, left]
  | move s t =>
    obtain ⟨bytes, hbytes, rfl⟩ := run_move.1 hrun
    have hs : s ≠ [] := hat.ne_root List.mem_cons_self
    have ht : t ≠ [] := hat.ne_root (List.mem_cons_of_mem _ List.mem_cons_self)
    rw [entryAt_moved hs ht hbytes]
    simp only [changed, List.mem_pair, left, hbytes]
    by_cases htarget : l = t <;> by_cases hsource : l = s <;> simp [htarget, hsource]
  | clear loc =>
    cases hrun
    rw [entryAt_erase _ (hat.ne_root List.mem_cons_self)]
    simp only [changed, List.mem_singleton, left]

theorem run_elsewhere (hat : e.IsAtPlaces z) (hrun : e.run fs = some fs') (hl : l ∉ e.changed) :
    fs'.entryAt? l = fs.entryAt? l := by
  rw [entryAt_run hat hrun, if_neg hl]

theorem run_changed (hat : e.IsAtPlaces z) (hrun : e.run fs = some fs') (hl : l ∈ e.changed) :
    fs'.entryAt? l ≠ some .directory := by
  rw [entryAt_run hat hrun, if_pos hl]
  cases e with
  | put loc bytes => nofun
  | move s t =>
    obtain ⟨bytes, hbytes, -⟩ := run_move.1 hrun
    simp [left, hbytes]
  | clear loc => nofun

theorem run_unlinked (hz : z.Unlinked) (h : Over z fs) (hat : e.IsAtPlaces z)
    (hrun : e.run fs = some fs') : fs'.Unlinked := by
  have hplace : ∀ l ∈ e.changed, ∃ path, fs.place? path = some l := by
    intro l hl
    obtain ⟨path, hpath⟩ := hat l hl
    exact ⟨path, by rw [h.place_eq hz, hpath]⟩
  cases e with
  | put loc bytes =>
    cases hrun
    obtain ⟨path, hpath⟩ := hplace loc List.mem_cons_self
    exact h.unlinked.set_place hpath rfl
  | move s t =>
    obtain ⟨bytes, hbytes, rfl⟩ := run_move.1 hrun
    obtain ⟨target, htarget⟩ := hplace t (List.mem_cons_of_mem _ List.mem_cons_self)
    refine h.unlinked.moved ?_ htarget rfl
    rw [hbytes]
    nofun
  | clear loc =>
    cases hrun
    obtain ⟨path, hpath⟩ := hplace loc List.mem_cons_self
    exact h.unlinked.erase (isPlace_of_place hpath).noDirectory

theorem run_workingDirectory (hrun : e.run fs = some fs') :
    fs'.workingDirectory = fs.workingDirectory := by
  cases e with
  | put | clear =>
    cases hrun
    rfl
  | move s t =>
    obtain ⟨bytes, -, rfl⟩ := run_move.1 hrun
    exact workingDirectory_moved _ _ _ _

/-- **What an edit finds where it takes its file from decides.**  Of two file systems that agree
    there, it makes two that agree at the places that are changed and wherever they have
    agreed. -/
theorem run_agree {D : Set Location} (hat : e.IsAtPlaces z) (hsource : ∀ s ∈ e.source?, s ∉ D)
    (hagree : ∀ l ∉ D, fs₂.entryAt? l = fs₁.entryAt? l) (hrun : e.run fs₁ = some fs) :
    ∃ fs', e.run fs₂ = some fs' ∧
      ∀ l, l ∉ D ∨ l ∈ e.changed → fs'.entryAt? l = fs.entryAt? l := by
  have hruns : (∃ fs', e.run fs₂ = some fs') ∧ ∀ l, e.left fs₂ l = e.left fs₁ l := by
    cases e with
    | put | clear => exact ⟨⟨_, rfl⟩, fun _ => rfl⟩
    | move s t =>
      obtain ⟨bytes, hbytes, -⟩ := run_move.1 hrun
      have hsame := hagree s (hsource s rfl)
      refine ⟨⟨_, run_move.2 ⟨bytes, hsame.trans hbytes, rfl⟩⟩, fun l => ?_⟩
      simp only [left, hsame]
  obtain ⟨⟨fs', hrun'⟩, hleft⟩ := hruns
  refine ⟨fs', hrun', ?_⟩
  intro l hl
  rw [entryAt_run hat hrun', entryAt_run hat hrun]
  by_cases hmem : l ∈ e.changed
  · rw [if_pos hmem, if_pos hmem, hleft]
  · rw [if_neg hmem, if_neg hmem, hagree l (hl.resolve_right hmem)]

end Edit

/-- **An edit at places leaves the directories.** -/
theorem Over.edit (hz : z.Unlinked) (h : Over z fs) {e : Edit} (hat : e.IsAtPlaces z)
    (hrun : e.run fs = some fs') : Over z fs' where
  unlinked := Edit.run_unlinked hz h hat hrun
  workingDirectory := (Edit.run_workingDirectory hrun).trans h.workingDirectory
  directory_iff := by
    intro l
    by_cases hl : l ∈ e.changed
    · obtain ⟨path, hplace⟩ := hat l hl
      have hno := Edit.run_changed hat hrun hl
      have hno' := (isPlace_of_place hplace).noDirectory
      simp [hno, hno']
    · rw [Edit.run_elsewhere hat hrun hl, h.directory_iff]

/-! ### Edits in sequence -/

/-- Edits one after the other, if all of them can be made. -/
def runAll : List Edit → FileSystem → Option FileSystem
  | [], fs => some fs
  | e :: rest, fs => (e.run fs).bind (runAll rest)

variable {e : Edit} {edits rest puts : List Edit}

theorem runAll_cons :
    runAll (e :: rest) fs = some fs' ↔ ∃ fs₁, e.run fs = some fs₁ ∧ runAll rest fs₁ = some fs' :=
  Option.bind_eq_some_iff

theorem runAll_append :
    runAll (edits ++ rest) fs = some fs' ↔
      ∃ fs₁, runAll edits fs = some fs₁ ∧ runAll rest fs₁ = some fs' := by
  induction edits generalizing fs with
  | nil => simp [runAll]
  | cons e edits ih =>
    rw [List.cons_append, runAll_cons]
    simp only [ih, runAll_cons]
    constructor
    · rintro ⟨fs₁, he, fs₂, hedits, hrest⟩
      exact ⟨fs₂, ⟨fs₁, he, hedits⟩, hrest⟩
    · rintro ⟨fs₂, ⟨fs₁, he, hedits⟩, hrest⟩
      exact ⟨fs₁, he, fs₂, hedits, hrest⟩

theorem Over.runAll (hz : z.Unlinked) (h : Over z fs) (hat : ∀ e ∈ edits, e.IsAtPlaces z)
    (hrun : runAll edits fs = some fs') : Over z fs' := by
  induction edits generalizing fs with
  | nil =>
    cases hrun
    exact h
  | cons e edits ih =>
    rw [List.forall_mem_cons] at hat
    obtain ⟨fs₁, he, hedits⟩ := runAll_cons.1 hrun
    exact ih (h.edit hz hat.1 he) hat.2 hedits

theorem runAll_elsewhere (hat : ∀ e ∈ edits, e.IsAtPlaces z) (hrun : runAll edits fs = some fs')
    (hl : ∀ e ∈ edits, l ∉ e.changed) : fs'.entryAt? l = fs.entryAt? l := by
  induction edits generalizing fs with
  | nil =>
    cases hrun
    rfl
  | cons e edits ih =>
    rw [List.forall_mem_cons] at hat hl
    obtain ⟨fs₁, he, hedits⟩ := runAll_cons.1 hrun
    rw [ih hat.2 hedits hl.2, Edit.run_elsewhere hat.1 he hl.1]

/-- **What edits find where they take their files from decides.** -/
theorem runAll_agree {D : Set Location} (hat : ∀ e ∈ edits, e.IsAtPlaces z)
    (hsource : ∀ e ∈ edits, ∀ s ∈ e.source?, s ∉ D)
    (hagree : ∀ l ∉ D, fs₂.entryAt? l = fs₁.entryAt? l) (hrun : runAll edits fs₁ = some fs) :
    ∃ fs', runAll edits fs₂ = some fs' ∧
      ∀ l, (l ∉ D ∨ ∃ e ∈ edits, l ∈ e.changed) → fs'.entryAt? l = fs.entryAt? l := by
  induction edits generalizing fs₁ fs₂ D with
  | nil =>
    cases hrun
    refine ⟨fs₂, rfl, ?_⟩
    intro l hl
    exact hagree l (hl.resolve_right (by simp))
  | cons e edits ih =>
    rw [List.forall_mem_cons] at hat hsource
    obtain ⟨fs₁', he, hedits⟩ := runAll_cons.1 hrun
    obtain ⟨fs₂', he', hsame⟩ := Edit.run_agree hat.1 hsource.1 hagree he
    -- they may still differ where they did, unless this edit has changed it
    have hagree' : ∀ l ∉ {l | l ∈ D ∧ l ∉ e.changed}, fs₂'.entryAt? l = fs₁'.entryAt? l := by
      intro l hl
      by_cases hmem : l ∈ e.changed
      · exact hsame l (.inr hmem)
      · exact hsame l (.inl fun hD => hl ⟨hD, hmem⟩)
    obtain ⟨fs', hedits', hsame'⟩ := ih hat.2
      (fun e' he' s hs hmem => hsource.2 e' he' s hs hmem.1) hagree' hedits
    refine ⟨fs', runAll_cons.2 ⟨fs₂', he', hedits'⟩, ?_⟩
    rintro l (hl | ⟨e', hmem, hl⟩)
    · exact hsame' l (.inl fun hmem => hl hmem.1)
    · rcases List.mem_cons.1 hmem with rfl | hmem
      · exact hsame' l (.inl fun hD => hD.2 hl)
      · exact hsame' l (.inr ⟨e', hmem, hl⟩)

/-- **Edits that take files only from where they have put them can be run again**, and nothing is
    different then. -/
theorem runAll_again (hat : ∀ e ∈ puts ++ rest, e.IsAtPlaces z)
    (hputs : ∀ e ∈ puts, e.source? = none)
    (hsource : ∀ e ∈ rest, ∀ s ∈ e.source?, ∃ p ∈ puts, s ∈ p.changed)
    (hrun : runAll (puts ++ rest) fs = some fs') :
    ∃ fs'', runAll (puts ++ rest) fs' = some fs'' ∧
      ∀ l, fs''.entryAt? l = fs'.entryAt? l := by
  have hagree : ∀ l ∉ {l | ∃ e ∈ puts ++ rest, l ∈ e.changed},
      fs'.entryAt? l = fs.entryAt? l := by
    intro l hl
    exact runAll_elsewhere hat hrun fun e he hmem => hl ⟨e, he, hmem⟩
  rw [List.forall_mem_append] at hat
  obtain ⟨fs₁, hfirst, hthen⟩ := runAll_append.1 hrun
  obtain ⟨fs₂, hfirst', hsame⟩ := runAll_agree hat.1
    (fun e he s hs => by rw [hputs e he] at hs; cases hs) hagree hfirst
  -- where files have been put, the two agree again
  have hagree' : ∀ l ∉ {l | (∃ e ∈ rest, l ∈ e.changed) ∧ ¬ ∃ e ∈ puts, l ∈ e.changed},
      fs₂.entryAt? l = fs₁.entryAt? l := by
    intro l hl
    apply hsame
    by_cases hput : ∃ e ∈ puts, l ∈ e.changed
    · exact .inr hput
    · refine .inl ?_
      rintro ⟨e, he, hmem⟩
      rcases List.mem_append.1 he with he | he
      · exact hput ⟨e, he, hmem⟩
      · exact hl ⟨⟨e, he, hmem⟩, hput⟩
  obtain ⟨fs'', hthen', hsame'⟩ := runAll_agree hat.2
    (fun e he s hs hmem => hmem.2 (hsource e he s hs)) hagree' hthen
  refine ⟨fs'', runAll_append.2 ⟨fs₂, hfirst', hthen'⟩, ?_⟩
  intro l
  by_cases hl : ∃ e ∈ rest, l ∈ e.changed
  · exact hsame' l (.inr hl)
  · exact hsame' l (.inl fun hmem => hl hmem.1)

end WorkflowCatalog.FileSystem
