/-
  WorkflowCatalog/Proofs/Staging.lean
  ===================================
  **What staging and installing artifacts does to a file system.**  The paths that are
  written to have to stand apart (`Apart`): then each keeps its place, whatever the
  others' places hold (`Varies`).  Under this invariant every step has a law of its own:
  `stage` puts a file at a staging place, `install` moves it to its target, and
  `cleanUp` empties staging places.

  Main statement: `writeAll` stops at the first artifact that cannot be staged and then
  changes no target, or at the first target that is blocked and then has replaced the
  targets in front of it only (`endsIn_writeAll`).
-/
import Mathlib.Data.List.Forall2
import Mathlib.Data.List.Pairwise
import Mathlib.Data.List.TakeWhile
import WorkflowCatalog.Artifact.Emit
import WorkflowCatalog.Proofs.Change
import WorkflowCatalog.Proofs.Session

namespace WorkflowCatalog.Artifact

open FileSystem Session
open Text (CodeText)

/-! ### Paths that stand apart -/

/-- The paths that are written to for a target. -/
def writtenPaths (target : Path) : List String :=
  target.text :: ((stagingPath? target).map Path.text).toList

/-- The place where the text of a target is staged. -/
def stagingPlace? (fs : FileSystem) (target : Path) : Option Location :=
  (stagingPath? target).bind fun s => fs.place? s.text

/-- No look on the way along one path is a look at the place of the other. -/
def Independent (fs : FileSystem) (p q : String) : Prop :=
  ∀ followLast, (∀ l ∈ fs.place? p, l ∉ fs.lookups followLast q) ∧
    ∀ l ∈ fs.place? q, l ∉ fs.lookups followLast p

/-- The paths that are written to for some targets stand apart: they are independent, none
    leads over its own place, and no link stands where a text is staged. -/
structure Apart (fs : FileSystem) (targets : List Path) : Prop where
  independent : (targets.flatMap writtenPaths).Pairwise (Independent fs)
  once : ∀ p ∈ targets.flatMap writtenPaths, ∀ l ∈ fs.place? p,
    l ∉ (fs.lookups false p).dropLast
  unlinked : ∀ t ∈ targets, ∀ l ∈ stagingPlace? fs t, ∀ e ∈ fs.entryAt? l, e.isLink = false

instance (fs : FileSystem) : DecidableRel (Independent fs) := fun p q =>
  inferInstanceAs (Decidable (∀ followLast, (∀ l ∈ fs.place? p, l ∉ fs.lookups followLast q) ∧
    ∀ l ∈ fs.place? q, l ∉ fs.lookups followLast p))

instance (fs : FileSystem) (targets : List Path) : Decidable (Apart fs targets) :=
  decidable_of_iff
    ((targets.flatMap writtenPaths).Pairwise (Independent fs) ∧
      (∀ p ∈ targets.flatMap writtenPaths, ∀ l ∈ fs.place? p,
        l ∉ (fs.lookups false p).dropLast) ∧
      ∀ t ∈ targets, ∀ l ∈ stagingPlace? fs t, ∀ e ∈ fs.entryAt? l, e.isLink = false)
    ⟨fun h => ⟨h.1, h.2.1, h.2.2⟩, fun h => ⟨h.independent, h.once, h.unlinked⟩⟩

/-- A file system that differs from another one at the places of some paths only, and has
    no directory there. -/
structure Varies (paths : List String) (fs fs' : FileSystem) : Prop where
  workingDirectory : fs'.workingDirectory = fs.workingDirectory
  elsewhere : ∀ l, (∀ p ∈ paths, l ∉ fs.place? p) → fs'.entryAt? l = fs.entryAt? l
  noDirectory : ∀ p ∈ paths, ∀ l ∈ fs.place? p, fs'.entryAt? l ≠ some .directory

theorem mem_writtenPaths_self (t : Path) : t.text ∈ writtenPaths t := List.mem_cons_self

theorem mem_writtenPaths_of_staging {t s : Path} (h : stagingPath? t = some s) :
    s.text ∈ writtenPaths t := by
  simp [writtenPaths, h]

section

variable {fs fs' fs'' : FileSystem} {targets : List Path} {paths : List String} {p q : String}
  {l : Location}

theorem independent_symm (h : Independent fs p q) : Independent fs q p :=
  fun followLast => ⟨(h followLast).2, (h followLast).1⟩

instance : Std.Symm (Independent fs) := ⟨fun _ _ => independent_symm⟩

/-- Independent paths have no place in common. -/
theorem place_ne (h : Independent fs p q) (hp : l ∈ fs.place? p) : l ∉ fs.place? q := by
  intro hq
  have hlast := (isPlace_of_place hq).last
  exact ((h false).1 l hp) (List.mem_of_getLast? hlast)

theorem Apart.independent_of_ne (hapart : Apart fs targets)
    (hp : p ∈ targets.flatMap writtenPaths) (hq : q ∈ targets.flatMap writtenPaths)
    (hne : p ≠ q) : Independent fs p q :=
  hapart.independent.forall hp hq hne

/-! ### Ways in a varied file system -/

theorem Varies.refl (fs : FileSystem) (paths : List String) : Varies paths fs fs :=
  ⟨rfl, fun _ _ => rfl, fun _ _ _ hl => (isPlace_of_place hl).noDirectory⟩

/-- A path whose place is as it was leads where it has led. -/
theorem Varies.trail_eq (hapart : Apart fs targets)
    (hv : Varies (targets.flatMap writtenPaths) fs fs') (hp : p ∈ targets.flatMap writtenPaths)
    (h : ∀ l ∈ fs.place? p, fs'.entryAt? l = fs.entryAt? l) (followLast : Bool) :
    fs'.trail followLast p = fs.trail followLast p := by
  apply trail_congr hv.workingDirectory
  intro x hx
  by_cases hown : x ∈ fs.place? p
  · exact h x hown
  apply hv.elsewhere
  intro q hq hplace
  by_cases hne : q = p
  · exact hown (hne ▸ hplace)
  · exact ((hapart.independent_of_ne hq hp hne) followLast).1 x hplace hx

/-- A path leads to its place, whatever the other places hold. -/
theorem Varies.resolve_eq {followLast : Bool} (hapart : Apart fs targets)
    (hv : Varies (targets.flatMap writtenPaths) fs fs') (hp : p ∈ targets.flatMap writtenPaths)
    (hl : l ∈ fs.place? p) (hend : IsEnd fs' followLast l) :
    fs'.resolve followLast p = .ok (fs'.endAt l) := by
  rw [← trail_snd, trail_of_place hv.workingDirectory hl hend.noLink]
  intro x hx
  apply hv.elsewhere
  intro q hq hplace
  by_cases hne : q = p
  · subst hne
    have hsame : x = l := Option.mem_unique hplace hl
    exact hapart.once q hq l hl (hsame ▸ hx)
  · exact ((hapart.independent_of_ne hq hp hne) false).1 x hplace (List.dropLast_subset _ hx)

theorem Varies.isEnd (hv : Varies paths fs fs') (hp : p ∈ paths) (hl : l ∈ fs.place? p) :
    IsEnd fs' false l :=
  ⟨hv.noDirectory p hp l hl, nofun⟩

/-! ### Changes of places -/

theorem Varies.puts {e : Option Entry} (hv : Varies paths fs fs') (hp : p ∈ paths)
    (hl : l ∈ fs.place? p) (he : e ≠ some .directory) (hputs : Puts fs' fs'' l e) :
    Varies paths fs fs'' where
  workingDirectory := hputs.workingDirectory.trans hv.workingDirectory
  elsewhere := by
    intro x hx
    have hne : x ≠ l := fun heq => hx p hp (heq ▸ hl)
    rw [hputs.elsewhere x hne]
    exact hv.elsewhere x hx
  noDirectory := by
    intro q hq x hx
    by_cases heq : x = l
    · rw [heq, hputs.there]
      exact he
    · rw [hputs.elsewhere x heq]
      exact hv.noDirectory q hq x hx

theorem Varies.moves {s t : Location} (hv : Varies paths fs fs') (hp : p ∈ paths)
    (hs : s ∈ fs.place? p) (hq : q ∈ paths) (ht : t ∈ fs.place? q) (hmoves : Moves fs' fs'' s t) :
    Varies paths fs fs'' where
  workingDirectory := hmoves.workingDirectory.trans hv.workingDirectory
  elsewhere := by
    intro x hx
    have hsource : x ≠ s := fun heq => hx p hp (heq ▸ hs)
    have htarget : x ≠ t := fun heq => hx q hq (heq ▸ ht)
    rw [hmoves.elsewhere x hsource htarget]
    exact hv.elsewhere x hx
  noDirectory := by
    intro r hr x hx
    by_cases hsource : x = s
    · rw [hsource, hmoves.gone]
      nofun
    by_cases htarget : x = t
    · rw [htarget, hmoves.there]
      exact hv.noDirectory p hp s hs
    · rw [hmoves.elsewhere x hsource htarget]
      exact hv.noDirectory r hr x hx

end

/-! ### Owned places -/

/-- The location is the place of a target, or the one where its text is staged. -/
def Owns (fs : FileSystem) (target : Path) (l : Location) : Prop :=
  ∃ p ∈ writtenPaths target, l ∈ fs.place? p

section

variable {fs : FileSystem} {targets : List Path} {t u s : Path} {l : Location}

theorem mem_stagingPlace : l ∈ stagingPlace? fs t ↔
    ∃ s, stagingPath? t = some s ∧ l ∈ fs.place? s.text := by
  simp [stagingPlace?, Option.bind_eq_some_iff]

theorem owns_place (h : l ∈ fs.place? t.text) : Owns fs t l :=
  ⟨t.text, mem_writtenPaths_self t, h⟩

theorem owns_stagingPlace (h : l ∈ stagingPlace? fs t) : Owns fs t l := by
  obtain ⟨s, hs, hl⟩ := mem_stagingPlace.1 h
  exact ⟨s.text, mem_writtenPaths_of_staging hs, hl⟩

theorem not_owns (h : l ∉ fs.place? t.text) (hstaging : l ∉ stagingPlace? fs t) :
    ¬ Owns fs t l := by
  rintro ⟨p, hp, hl⟩
  rcases List.mem_cons.1 hp with rfl | hp
  · exact h hl
  · rw [Option.mem_toList, Option.map_eq_some_iff] at hp
    obtain ⟨s, hs, rfl⟩ := hp
    exact hstaging (mem_stagingPlace.2 ⟨s, hs, hl⟩)

/-- The paths that are written to for two targets are independent. -/
def AreDisjoint (fs : FileSystem) (t u : Path) : Prop :=
  ∀ p ∈ writtenPaths t, ∀ q ∈ writtenPaths u, Independent fs p q

theorem Apart.pairwise (h : Apart fs targets) : targets.Pairwise (AreDisjoint fs) :=
  (List.pairwise_flatMap.1 h.independent).2

theorem not_owns_of_disjoint (h : AreDisjoint fs t u) (ht : Owns fs t l) : ¬ Owns fs u l := by
  obtain ⟨p, hp, hl⟩ := ht
  rintro ⟨q, hq, hl'⟩
  exact place_ne (h p hp q hq) hl hl'

theorem areDisjoint_symm (h : AreDisjoint fs t u) : AreDisjoint fs u t :=
  fun p hp q hq => independent_symm (h q hq p hp)

instance : Std.Symm (AreDisjoint fs) := ⟨fun _ _ => areDisjoint_symm⟩

/-- No text is staged at the place of a target. -/
theorem Apart.place_notMem_stagingPlace (h : Apart fs targets) (ht : t ∈ targets)
    (hu : u ∈ targets) (hl : l ∈ fs.place? t.text) : l ∉ stagingPlace? fs u := by
  intro hstaging
  by_cases heq : t = u
  · subst heq
    obtain ⟨s, hs, hl'⟩ := mem_stagingPlace.1 hstaging
    have hwritten := (List.pairwise_flatMap.1 h.independent).1 t ht
    rw [writtenPaths, hs] at hwritten
    have hindependent := (List.pairwise_cons.1 hwritten).1 s.text (by simp)
    exact place_ne hindependent hl hl'
  · exact not_owns_of_disjoint (h.pairwise.forall ht hu heq) (owns_place hl)
      (owns_stagingPlace hstaging)

theorem mem_written_of_target (ht : t ∈ targets) : t.text ∈ targets.flatMap writtenPaths :=
  List.mem_flatMap.2 ⟨t, ht, mem_writtenPaths_self t⟩

theorem mem_written_of_staging (ht : t ∈ targets) (hs : stagingPath? t = some s) :
    s.text ∈ targets.flatMap writtenPaths :=
  List.mem_flatMap.2 ⟨t, ht, mem_writtenPaths_of_staging hs⟩

end

/-! ### Staging one text -/

/-- There is a place where the text can be staged, and it has a UTF-8 form. -/
def canStage (fs : FileSystem) (a : Path × CodeText) : Bool :=
  (stagingPlace? fs a.1).isSome && a.2.utf8?.isSome

section

variable {fs₁ fs : FileSystem} {targets : List Path} {t s : Path} {text : CodeText} {l : Location}

/-- A file can be written to a staging place that is as it was. -/
theorem write_staging (bytes : ByteArray) (hapart : Apart fs₁ targets)
    (hv : Varies (targets.flatMap writtenPaths) fs₁ fs) (ht : t ∈ targets)
    (hs : stagingPath? t = some s) (hl : l ∈ fs₁.place? s.text)
    (hfresh : fs.entryAt? l = fs₁.entryAt? l) :
    ∃ fs', (Change.write s.text bytes).run.run fs = (.ok (), fs') ∧
      Puts fs fs' l (some (.file bytes)) := by
  have hwritten := mem_written_of_staging ht hs
  have hend : IsEnd fs true l := by
    refine ⟨hv.noDirectory _ hwritten l hl, fun _ => ?_⟩
    rw [hfresh]
    exact hapart.unlinked t ht l (mem_stagingPlace.2 ⟨s, hs, hl⟩)
  exact Change.write_puts (isPlace_of_place hl).ne_root hend
    (hv.resolve_eq hapart hwritten hl hend)

theorem endsIn_stage {bytes : ByteArray} (hapart : Apart fs₁ targets)
    (hv : Varies (targets.flatMap writtenPaths) fs₁ fs) (ht : t ∈ targets)
    (hs : stagingPath? t = some s) (hl : l ∈ fs₁.place? s.text)
    (hfresh : fs.entryAt? l = fs₁.entryAt? l) (hbytes : text.utf8? = some bytes) :
    ∃ fs', EndsIn (stage t text) fs (.ok s) fs' ∧ Puts fs fs' l (some (.file bytes)) := by
  obtain ⟨fs', hrun, hputs⟩ := write_staging bytes hapart hv ht hs hl hfresh
  refine ⟨fs', ?_, hputs⟩
  unfold stage
  rw [hs]
  exact (endsIn_writeText hbytes hrun).bind_ok (endsIn_pure s)

/-- Without a place to stage a text nothing is changed. -/
theorem endsIn_stage_of_no_place (hapart : Apart fs₁ targets)
    (hv : Varies (targets.flatMap writtenPaths) fs₁ fs) (ht : t ∈ targets)
    (hs : stagingPath? t = some s) (hplace : fs₁.place? s.text = none) :
    ∃ f, EndsIn (stage t text) fs (.error f) fs := by
  have hsame := hv.trail_eq hapart (mem_written_of_staging ht hs)
    (fun l hl => by rw [hplace] at hl; cases hl)
  have hplace' : fs.place? s.text = none := by
    unfold place?
    rw [← trail_snd, hsame, trail_snd]
    exact hplace
  have hblocked := resolve_of_no_place hplace'
  have hfollow : fs.trail true s.text = fs.trail false s.text := by
    apply trail_unlinked
    intro l target hlink
    rcases hblocked with ⟨f, h⟩ | ⟨l', h⟩
    · rw [hlink] at h
      cases h
    · rw [hlink] at h
      cases h
  have hblocked' : (∃ f, fs.resolve true s.text = .error f) ∨
      ∃ l, fs.resolve true s.text = .ok (.present l .directory) := by
    rw [← trail_snd, hfollow, trail_snd]
    exact hblocked
  obtain ⟨f, hrun⟩ := Change.write_fails (text.utf8?.getD .empty) hblocked'
  have hwrite := endsIn_writeText_fault hrun
  have hunlink := Change.unlinkIfPresent_of_no_place hplace'
  unfold stage
  rw [hs]
  by_cases hnul : f = .nulInPath
  · subst hnul
    exact ⟨_, hwrite.bind_ok (endsIn_throw _)⟩
  have hrest : ∃ g, EndsIn (do
      Session.change (Change.unlinkIfPresent s.text)
      Session.raise (notWritten t) : Session Path) fs (.error g) fs := by
    rcases hremove : (Change.unlinkIfPresent s.text).run.run fs with ⟨g | _, fs'⟩
    · rw [hremove] at hunlink
      cases hunlink
      exact ⟨_, (endsIn_change_error hremove).bind_error⟩
    · rw [hremove] at hunlink
      cases hunlink
      exact ⟨_, (endsIn_change hremove).bind_ok (endsIn_raise _)⟩
  obtain ⟨g, hg⟩ := hrest
  refine ⟨g, hwrite.bind_ok ?_⟩
  cases f with
  | nulInPath => exact absurd rfl hnul
  | _ => exact hg

/-- A text that cannot be staged leaves an empty file in its staging place at most. -/
theorem endsIn_stage_fails (hapart : Apart fs₁ targets)
    (hv : Varies (targets.flatMap writtenPaths) fs₁ fs) (ht : t ∈ targets)
    (hfresh : ∀ l ∈ stagingPlace? fs₁ t, fs.entryAt? l = fs₁.entryAt? l)
    (hfails : canStage fs₁ (t, text) = false) :
    ∃ f fs', EndsIn (stage t text) fs (.error f) fs' ∧
      (fs' = fs ∨ ∃ l ∈ stagingPlace? fs₁ t, Puts fs fs' l (some (.file .empty))) := by
  cases hs : stagingPath? t with
  | none =>
    refine ⟨.unnamedPath, fs, ?_, .inl rfl⟩
    unfold stage
    rw [hs]
    exact endsIn_throw .unnamedPath
  | some s =>
    cases hplace : fs₁.place? s.text with
    | none =>
      obtain ⟨f, hf⟩ := endsIn_stage_of_no_place hapart hv ht hs hplace
      exact ⟨f, fs, hf, .inl rfl⟩
    | some l =>
      have hstaging : l ∈ stagingPlace? fs₁ t := mem_stagingPlace.2 ⟨s, hs, hplace⟩
      have hbytes : text.utf8? = none := by
        unfold canStage at hfails
        rw [Option.mem_def.1 hstaging] at hfails
        simpa using hfails
      obtain ⟨fs', hrun, hputs⟩ :=
        write_staging .empty hapart hv ht hs hplace (hfresh l hstaging)
      refine ⟨.notEncodable, fs', ?_, .inr ⟨l, hstaging, hputs⟩⟩
      unfold stage
      rw [hs]
      exact (endsIn_writeText_notEncodable hbytes hrun).bind_error

end

/-! ### Staging all texts -/

/-- The staged file and its target, with the text of an artifact in the staged file. -/
structure IsStaged (fs₁ fs : FileSystem) (a : Path × CodeText) (q : Path × Path) : Prop where
  target : q.2 = a.1
  path : stagingPath? a.1 = some q.1
  held : ∃ l ∈ fs₁.place? q.1.text, ∃ bytes,
    a.2.utf8? = some bytes ∧ fs.entryAt? l = some (.file bytes)

section

variable {fs₁ fs fs' fs'' : FileSystem} {targets : List Path} {t s : Path} {text : CodeText}
  {as : List (Path × CodeText)}

theorem run_stageEach_cons (w : World) :
    (stageEach ((t, text) :: as)).run.run w =
      match (stage t text).run.run w with
      | (.error f, w) => (.ok ([], some f), w)
      | (.ok staging, w) =>
        match (stageEach as).run.run w with
        | (.ok (staged, f), w) => (.ok ((staging, t) :: staged, f), w)
        | (.error f, w) => (.error f, w) := rfl

theorem endsIn_stageEach_cons {staged : List (Path × Path)} {f : Option Failure}
    (h : EndsIn (stage t text) fs (.ok s) fs')
    (hrest : EndsIn (stageEach as) fs' (.ok (staged, f)) fs'') :
    EndsIn (stageEach ((t, text) :: as)) fs (.ok ((s, t) :: staged, f)) fs'' := by
  intro journal
  obtain ⟨journal', hrun⟩ := h journal
  obtain ⟨journal'', hrun'⟩ := hrest journal'
  refine ⟨journal'', ?_⟩
  rw [run_stageEach_cons, hrun]
  dsimp only
  rw [hrun']

theorem endsIn_stageEach_stop {f : Failure} (h : EndsIn (stage t text) fs (.error f) fs') :
    EndsIn (stageEach ((t, text) :: as)) fs (.ok ([], some f)) fs' := by
  intro journal
  obtain ⟨journal', hrun⟩ := h journal
  refine ⟨journal', ?_⟩
  rw [run_stageEach_cons, hrun]

/-- **Staging stops at the first text that cannot be staged.**  The staging places of the
    texts in front of it hold them then, and nothing but staging places is touched. -/
theorem endsIn_stageEach (hapart : Apart fs₁ targets)
    (hv : Varies (targets.flatMap writtenPaths) fs₁ fs) (has : ∀ a ∈ as, a.1 ∈ targets)
    (hdisjoint : as.Pairwise fun a b => AreDisjoint fs₁ a.1 b.1)
    (hfresh : ∀ a ∈ as, ∀ l ∈ stagingPlace? fs₁ a.1, fs.entryAt? l = fs₁.entryAt? l) :
    ∃ staged failure fs', EndsIn (stageEach as) fs (.ok (staged, failure)) fs' ∧
      (failure = none ↔ ∀ a ∈ as, canStage fs₁ a = true) ∧
      Varies (targets.flatMap writtenPaths) fs₁ fs' ∧
      List.Forall₂ (IsStaged fs₁ fs') (as.takeWhile (canStage fs₁)) staged ∧
      ∀ l, (∀ a ∈ as, l ∉ stagingPlace? fs₁ a.1) → fs'.entryAt? l = fs.entryAt? l := by
  induction as generalizing fs with
  | nil => exact ⟨[], none, fs, endsIn_pure _, by simp, hv, .nil, fun _ _ => rfl⟩
  | cons a rest ih =>
    obtain ⟨t, text⟩ := a
    rw [List.forall_mem_cons] at has hfresh
    rw [List.pairwise_cons] at hdisjoint
    cases hstage : canStage fs₁ (t, text) with
    | false =>
      obtain ⟨f, fs', hend, hchange⟩ := endsIn_stage_fails hapart hv has.1 hfresh.1 hstage
      refine ⟨[], some f, fs', endsIn_stageEach_stop hend, by simp [hstage], ?_, ?_, ?_⟩
      · rcases hchange with rfl | ⟨l, hl, hputs⟩
        · exact hv
        · obtain ⟨s, hs, hl'⟩ := mem_stagingPlace.1 hl
          exact hv.puts (mem_written_of_staging has.1 hs) hl' (by simp) hputs
      · rw [List.takeWhile_cons_of_neg (by simp [hstage])]
        exact .nil
      · intro x hx
        rw [List.forall_mem_cons] at hx
        rcases hchange with rfl | ⟨l, hl, hputs⟩
        · rfl
        · apply hputs.elsewhere
          rintro rfl
          exact hx.1 hl
    | true =>
      obtain ⟨hplace, hencode⟩ := (Bool.and_eq_true _ _).mp hstage
      obtain ⟨l, hl⟩ := Option.isSome_iff_exists.1 hplace
      obtain ⟨bytes, hbytes⟩ := Option.isSome_iff_exists.1 hencode
      obtain ⟨s, hs, hl'⟩ := mem_stagingPlace.1 hl
      obtain ⟨fs', hend, hputs⟩ := endsIn_stage hapart hv has.1 hs hl' (hfresh.1 l hl) hbytes
      have hv' := hv.puts (mem_written_of_staging has.1 hs) hl' (by simp) hputs
      -- What comes later is not staged at this place.
      have hother : ∀ b ∈ rest, ∀ x ∈ stagingPlace? fs₁ b.1, x ≠ l := by
        intro b hb x hx heq
        exact not_owns_of_disjoint (hdisjoint.1 b hb) (owns_stagingPlace hl)
          (owns_stagingPlace (heq ▸ hx))
      have hfresh' : ∀ b ∈ rest, ∀ x ∈ stagingPlace? fs₁ b.1,
          fs'.entryAt? x = fs₁.entryAt? x := by
        intro b hb x hx
        rw [hputs.elsewhere x (hother b hb x hx)]
        exact hfresh.2 b hb x hx
      obtain ⟨staged, failure, fs'', hrest, hall, hv'', hstaged, hframe⟩ :=
        ih hv' has.2 hdisjoint.2 hfresh'
      have hheld : fs''.entryAt? l = some (.file bytes) := by
        rw [hframe l fun b hb hx => hother b hb l hx rfl]
        exact hputs.there
      refine ⟨(s, t) :: staged, failure, fs'', endsIn_stageEach_cons hend hrest, ?_, hv'', ?_, ?_⟩
      · rw [List.forall_mem_cons, hall]
        exact ⟨fun h => ⟨hstage, h⟩, fun h => h.2⟩
      · rw [List.takeWhile_cons_of_pos hstage]
        exact .cons ⟨rfl, hs, l, hl', bytes, hbytes, hheld⟩ hstaged
      · intro x hx
        rw [List.forall_mem_cons] at hx
        rw [hframe x hx.2]
        apply hputs.elsewhere
        rintro rfl
        exact hx.1 hl

end

/-! ### Installing -/

/-- Is there a place for the target, so that a file can be moved to it? -/
def isOpen (fs : FileSystem) (a : Path × CodeText) : Bool := (fs.place? a.1.text).isSome

section

variable {fs₁ fs fs' : FileSystem} {targets : List Path} {a : Path × CodeText} {q : Path × Path}
  {as : List (Path × CodeText)} {staged : List (Path × Path)}

theorem endsIn_install {s t : Location} (hapart : Apart fs₁ targets)
    (hv : Varies (targets.flatMap writtenPaths) fs₁ fs) (ha : a.1 ∈ targets)
    (hq : IsStaged fs₁ fs a q) (hs : s ∈ fs₁.place? q.1.text) (ht : t ∈ fs₁.place? a.1.text) :
    ∃ fs', EndsIn (install q) fs (.ok ()) fs' ∧ Moves fs fs' s t := by
  obtain ⟨l, hl, bytes, -, hheld⟩ := hq.held
  obtain rfl : l = s := Option.mem_unique hl hs
  have hsource := mem_written_of_staging ha hq.path
  have htarget := mem_written_of_target ha
  have hne : l ≠ t := by
    rintro rfl
    exact hapart.place_notMem_stagingPlace ha ha ht (mem_stagingPlace.2 ⟨q.1, hq.path, hs⟩)
  have hend := hv.isEnd htarget ht
  obtain ⟨fs', hrun, hmoves⟩ := Change.replace_moves (isPlace_of_place hs).ne_root
    (isPlace_of_place ht).ne_root hne hheld hend
    (hv.resolve_eq hapart hsource hs (hv.isEnd hsource hs))
    (hv.resolve_eq hapart htarget ht hend)
  refine ⟨fs', ?_, hmoves⟩
  unfold install
  rw [hq.target]
  exact (endsIn_attempt hrun).bind_ok (endsIn_pure ())

theorem endsIn_install_blocked (hapart : Apart fs₁ targets)
    (hv : Varies (targets.flatMap writtenPaths) fs₁ fs) (ha : a.1 ∈ targets)
    (hq : IsStaged fs₁ fs a q) (hblocked : fs₁.place? a.1.text = none) :
    EndsIn (install q) fs (.error (.error (notWritten a.1))) fs := by
  obtain ⟨s, hs, bytes, -, hheld⟩ := hq.held
  have hsource := mem_written_of_staging ha hq.path
  have hsame := hv.trail_eq hapart (mem_written_of_target ha)
    (fun l hl => by rw [hblocked] at hl; cases hl)
  have hblocked' : fs.place? a.1.text = none := by
    unfold place?
    rw [← trail_snd, hsame, trail_snd]
    exact hblocked
  obtain ⟨f, hrun⟩ := Change.replace_blocked hheld
    (hv.resolve_eq hapart hsource hs (hv.isEnd hsource hs)) hblocked'
  unfold install
  rw [hq.target]
  exact (endsIn_attempt hrun).bind_ok (endsIn_raise (notWritten a.1))

/-- What is staged for later targets stays staged. -/
theorem IsStaged.of_frame (h : IsStaged fs₁ fs a q)
    (hframe : ∀ l, Owns fs₁ a.1 l → fs'.entryAt? l = fs.entryAt? l) : IsStaged fs₁ fs' a q := by
  obtain ⟨l, hl, bytes, hbytes, hheld⟩ := h.held
  refine ⟨h.target, h.path, l, hl, bytes, hbytes, ?_⟩
  rw [hframe l (owns_stagingPlace (mem_stagingPlace.2 ⟨q.1, h.path, hl⟩))]
  exact hheld

/-- **Installing stops at the first target that is blocked.**  The targets in front of it hold
    their new texts then, and no other target is touched. -/
theorem endsIn_forM_install (hapart : Apart fs₁ targets)
    (hv : Varies (targets.flatMap writtenPaths) fs₁ fs) (has : ∀ a ∈ as, a.1 ∈ targets)
    (hdisjoint : as.Pairwise fun a b => AreDisjoint fs₁ a.1 b.1)
    (hstaged : List.Forall₂ (IsStaged fs₁ fs) as staged) :
    ∃ r fs', EndsIn (staged.forM install) fs r fs' ∧
      (r = .ok () ↔ ∀ a ∈ as, isOpen fs₁ a = true) ∧
      Varies (targets.flatMap writtenPaths) fs₁ fs' ∧
      (∀ a ∈ as.takeWhile (isOpen fs₁), ∀ l ∈ fs₁.place? a.1.text,
        fs'.entryAt? l = a.2.utf8?.map .file) ∧
      ∀ l, (∀ a ∈ as.takeWhile (isOpen fs₁), ¬ Owns fs₁ a.1 l) →
        fs'.entryAt? l = fs.entryAt? l := by
  induction as generalizing fs staged with
  | nil =>
    cases hstaged
    exact ⟨.ok (), fs, endsIn_pure (), by simp, hv, nofun, fun _ _ => rfl⟩
  | cons a rest ih =>
    rcases hstaged with _ | ⟨hq, hrest⟩
    rename_i q qs
    rw [List.forall_mem_cons] at has
    rw [List.pairwise_cons] at hdisjoint
    cases hopen : fs₁.place? a.1.text with
    | none =>
      have hclosed : isOpen fs₁ a = false := by
        unfold isOpen
        rw [hopen]
        rfl
      refine ⟨_, fs, (endsIn_install_blocked hapart hv has.1 hq hopen).bind_error,
        by simp [hclosed], hv, ?_⟩
      rw [List.takeWhile_cons_of_neg (by simp [hclosed])]
      exact ⟨nofun, fun _ _ => rfl⟩
    | some t =>
      have hopened : isOpen fs₁ a = true := by
        unfold isOpen
        rw [hopen]
        rfl
      obtain ⟨s, hs, bytes, hbytes, hheld⟩ := hq.held
      obtain ⟨fs', hend, hmoves⟩ := endsIn_install hapart hv has.1 hq hs hopen
      have hv' := hv.moves (mem_written_of_staging has.1 hq.path) hs
        (mem_written_of_target has.1) hopen hmoves
      have howns : Owns fs₁ a.1 s := owns_stagingPlace (mem_stagingPlace.2 ⟨q.1, hq.path, hs⟩)
      -- Later artifacts have other places.
      have hother : ∀ b ∈ rest, ∀ l, Owns fs₁ b.1 l → fs'.entryAt? l = fs.entryAt? l := by
        intro b hb l hl
        have hdis := hdisjoint.1 b hb
        apply hmoves.elsewhere
        · rintro rfl
          exact not_owns_of_disjoint hdis howns hl
        · rintro rfl
          exact not_owns_of_disjoint hdis (owns_place hopen) hl
      have hstaged' : List.Forall₂ (IsStaged fs₁ fs') rest qs := by
        apply ((List.forall₂_and_left rest qs).2 ⟨hother, hrest⟩).imp
        exact fun b p h => h.2.of_frame h.1
      obtain ⟨r, fs'', hend', hok, hv'', hdone, hframe⟩ :=
        ih hv' has.2 hdisjoint.2 hstaged'
      refine ⟨r, fs'', hend.bind_ok hend', ?_, hv'', ?_⟩
      · rw [hok, List.forall_mem_cons]
        exact ⟨fun h => ⟨hopened, h⟩, fun h => h.2⟩
      rw [List.takeWhile_cons_of_pos hopened]
      constructor
      · rw [List.forall_mem_cons]
        refine ⟨fun l hl => ?_, hdone⟩
        obtain rfl : t = l := Option.mem_unique hopen hl
        rw [hframe t fun b hb hb' => ?_, hmoves.there, hheld, hbytes]
        · rfl
        · exact not_owns_of_disjoint (hdisjoint.1 b (List.takeWhile_subset _ hb))
            (owns_place hopen) hb'
      · intro l hl
        rw [List.forall_mem_cons] at hl
        rw [hframe l hl.2]
        apply hmoves.elsewhere
        · rintro rfl
          exact hl.1 howns
        · rintro rfl
          exact hl.1 (owns_place hopen)

end

/-! ### Cleaning up -/

section

variable {fs₁ fs : FileSystem} {targets : List Path} {as : List (Path × CodeText)}
  {staged : List (Path × Path)}

/-- **Cleaning up never fails**, and touches nothing but staging places. -/
theorem endsIn_cleanUp (hapart : Apart fs₁ targets) {ss : List Path}
    (hv : Varies (targets.flatMap writtenPaths) fs₁ fs)
    (hss : ∀ s ∈ ss, ∃ t ∈ targets, stagingPath? t = some s ∧ fs₁.place? s.text ≠ none) :
    ∃ fs', EndsIn (cleanUp ss) fs (.ok ()) fs' ∧
      Varies (targets.flatMap writtenPaths) fs₁ fs' ∧
      ∀ l, (∀ t ∈ targets, l ∉ stagingPlace? fs₁ t) → fs'.entryAt? l = fs.entryAt? l := by
  induction ss generalizing fs with
  | nil => exact ⟨fs, endsIn_pure (), hv, fun _ _ => rfl⟩
  | cons s rest ih =>
    rw [List.forall_mem_cons] at hss
    obtain ⟨t, ht, hs, hplace⟩ := hss.1
    obtain ⟨l, hl⟩ := Option.ne_none_iff_exists'.1 hplace
    have hwritten := mem_written_of_staging ht hs
    have hend := hv.isEnd hwritten hl
    obtain ⟨fs', hrun, hputs⟩ := Change.unlinkIfPresent_puts (isPlace_of_place hl).ne_root hend
      (hv.resolve_eq hapart hwritten hl hend)
    obtain ⟨fs'', hrest, hv'', hframe⟩ :=
      ih (hv.puts hwritten hl (by simp) hputs) hss.2
    refine ⟨fs'', (endsIn_change hrun).bind_ok hrest, hv'', ?_⟩
    intro x hx
    rw [hframe x hx]
    apply hputs.elsewhere
    rintro rfl
    exact hx t ht (mem_stagingPlace.2 ⟨s, hs, hl⟩)

/-- Staged files are in staging places. -/
theorem stagingPlace_of_staged (has : ∀ a ∈ as, a.1 ∈ targets)
    (hstaged : List.Forall₂ (IsStaged fs₁ fs) as staged) :
    ∀ s ∈ staged.map (·.1), ∃ t ∈ targets, stagingPath? t = some s ∧ fs₁.place? s.text ≠ none := by
  induction hstaged with
  | nil => exact nofun
  | cons hq hrest ih =>
    rw [List.forall_mem_cons] at has
    rw [List.map_cons, List.forall_mem_cons]
    obtain ⟨l, hl, -⟩ := hq.held
    refine ⟨⟨_, has.1, hq.path, ?_⟩, ih has.2⟩
    rw [Option.mem_def.1 hl]
    nofun

/-! ### Writing all artifacts -/

theorem writeAll_eq (as : List (Path × CodeText)) :
    writeAll as = stageEach as >>= fun r =>
      finallyDo (match r.2 with
        | some f => throw f
        | none => r.1.forM install) (cleanUp (r.1.map (·.1))) := rfl

theorem mem_of_map_eq (has : as.map (·.1) = targets) : ∀ a ∈ as, a.1 ∈ targets := by
  intro a ha
  rw [← has]
  exact List.mem_map_of_mem ha

/-- What writing all artifacts has staged. -/
theorem endsIn_stageEach_all (hapart : Apart fs₁ targets) (has : as.map (·.1) = targets) :
    ∃ staged failure fs', EndsIn (stageEach as) fs₁ (.ok (staged, failure)) fs' ∧
      (failure = none ↔ ∀ a ∈ as, canStage fs₁ a = true) ∧
      Varies (targets.flatMap writtenPaths) fs₁ fs' ∧
      List.Forall₂ (IsStaged fs₁ fs') (as.takeWhile (canStage fs₁)) staged ∧
      ∀ l, (∀ t ∈ targets, l ∉ stagingPlace? fs₁ t) → fs'.entryAt? l = fs₁.entryAt? l := by
  have hdisjoint : as.Pairwise fun a b => AreDisjoint fs₁ a.1 b.1 := by
    rw [← List.pairwise_map, has]
    exact hapart.pairwise
  obtain ⟨staged, failure, fs', hend, hall, hv, hstaged, hframe⟩ :=
    endsIn_stageEach hapart (.refl fs₁ _) (mem_of_map_eq has) hdisjoint fun _ _ _ _ => rfl
  refine ⟨staged, failure, fs', hend, hall, hv, hstaged, fun l hl => hframe l ?_⟩
  exact fun a ha => hl a.1 (mem_of_map_eq has a ha)

/-- If a text cannot be staged, no target is touched. -/
theorem endsIn_writeAll_unstaged (hapart : Apart fs₁ targets) (has : as.map (·.1) = targets)
    (hfails : ∃ a ∈ as, canStage fs₁ a = false) :
    ∃ f fs', EndsIn (writeAll as) fs₁ (.error f) fs' ∧
      Varies (targets.flatMap writtenPaths) fs₁ fs' ∧
      ∀ l, (∀ t ∈ targets, l ∉ stagingPlace? fs₁ t) → fs'.entryAt? l = fs₁.entryAt? l := by
  obtain ⟨staged, failure, fs', hend, hall, hv, hstaged, hframe⟩ := endsIn_stageEach_all hapart has
  cases failure with
  | none =>
    obtain ⟨a, ha, hfail⟩ := hfails
    rw [hall.1 rfl a ha] at hfail
    cases hfail
  | some f =>
    have hplaces := stagingPlace_of_staged
      (fun a ha => mem_of_map_eq has a (List.takeWhile_subset _ ha)) hstaged
    obtain ⟨fs'', hclean, hv', hframe'⟩ := endsIn_cleanUp hapart hv hplaces
    refine ⟨f, fs'', ?_, hv', fun l hl => (hframe' l hl).trans (hframe l hl)⟩
    rw [writeAll_eq]
    exact hend.bind_ok ((endsIn_throw f).finallyDo hclean)

/-- If every text can be staged, the targets in front of the first one that is blocked hold
    their new texts in the end. -/
theorem endsIn_writeAll (hapart : Apart fs₁ targets) (has : as.map (·.1) = targets)
    (hstage : ∀ a ∈ as, canStage fs₁ a = true) :
    ∃ r fs', EndsIn (writeAll as) fs₁ r fs' ∧
      (r = .ok () ↔ ∀ a ∈ as, isOpen fs₁ a = true) ∧
      Varies (targets.flatMap writtenPaths) fs₁ fs' ∧
      (∀ a ∈ as.takeWhile (isOpen fs₁), ∀ l ∈ fs₁.place? a.1.text,
        fs'.entryAt? l = a.2.utf8?.map .file) ∧
      ∀ l, (∀ t ∈ targets, l ∉ stagingPlace? fs₁ t) →
        (∀ a ∈ as.takeWhile (isOpen fs₁), l ∉ fs₁.place? a.1.text) →
          fs'.entryAt? l = fs₁.entryAt? l := by
  obtain ⟨staged, failure, fs', hend, hall, hv, hstaged, hframe⟩ := endsIn_stageEach_all hapart has
  obtain rfl : failure = none := hall.2 hstage
  have hfront : as.takeWhile (canStage fs₁) = as := List.takeWhile_eq_self_iff.2 hstage
  rw [hfront] at hstaged
  have hdisjoint : as.Pairwise fun a b => AreDisjoint fs₁ a.1 b.1 := by
    rw [← List.pairwise_map, has]
    exact hapart.pairwise
  obtain ⟨r, fs'', hend', hok, hv', hdone, hframe'⟩ :=
    endsIn_forM_install hapart hv (mem_of_map_eq has) hdisjoint hstaged
  obtain ⟨fs₃, hclean, hv₃, hframe₃⟩ :=
    endsIn_cleanUp hapart hv' (stagingPlace_of_staged (mem_of_map_eq has) hstaged)
  refine ⟨r, fs₃, ?_, hok, hv₃, ?_, ?_⟩
  · rw [writeAll_eq]
    exact hend.bind_ok (hend'.finallyDo hclean)
  · intro a ha l hl
    rw [hframe₃ l fun t ht hstaging => ?_]
    · exact hdone a ha l hl
    · have hmem := mem_of_map_eq has a (List.takeWhile_subset _ ha)
      exact hapart.place_notMem_stagingPlace hmem ht hl hstaging
  · intro l hstaging hplace
    rw [hframe₃ l hstaging, hframe' l fun a ha => ?_, hframe l hstaging]
    have hmem := List.takeWhile_subset _ ha
    exact not_owns (hplace a ha) (hstaging a.1 (mem_of_map_eq has a hmem))

-- Two artifacts with one target do not stand apart: the second file is staged over the first.
example : (match (writeAll [(.ofString "a", "x"), (.ofString "a", "y")]).run.run ⟨⟨[], []⟩, []⟩ with
    | (.error _, w) => w.fs.seen? false "a"
    | (.ok _, _) => none) = some (.file "y".toUTF8) := by decide +kernel

end

end WorkflowCatalog.Artifact
