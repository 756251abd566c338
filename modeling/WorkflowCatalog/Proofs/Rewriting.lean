/-
  WorkflowCatalog/Proofs/Rewriting.lean
  =====================================
  **Emission repeated on its own output.**  Where there are no links, all that writing the
  artifacts does is edits at the places of their paths: the texts are put at the staging
  places, moved to the targets, and the staging places are cleared.  Which edits these are
  does not depend on what stands at the places (`does_writeAll`), and files are taken only
  from where texts have been put (`exists_put_of_source`).

  So emission that has succeeded succeeds again and leaves everything as it is, whatever
  the artifacts are called.  What it changes has no name of a manifest, if no artifact has
  one (`not_isManifest_of_owns`).  Main statement: `exists_endsIn_emit`.
-/
import WorkflowCatalog.Proofs.Edits
import WorkflowCatalog.Proofs.Emission
import WorkflowCatalog.Proofs.Trees

namespace WorkflowCatalog.Artifact

open FileSystem Session
open Text (CodeText)

variable {z fs fs' : FileSystem} {w w' : World} {t s : Path} {text : CodeText} {l : Location}
  {as : List (Path × CodeText)} {staged : List (Path × Path)}

/-! ### Operations as edits -/

/-- Over the directories of `z`, the operation ends in the result exactly if a condition holds
    and the edits can be made, and then it has made them. -/
structure Does {α : Type} (z : FileSystem) (x : Session α) (a : α) (C : Prop)
    (edits : List Edit) : Prop where
  isAtPlaces : C → ∀ e ∈ edits, e.IsAtPlaces z
  of_run : ∀ w w', Over z w.fs → x.run.run w = (.ok a, w') →
    C ∧ runAll edits w.fs = some w'.fs
  endsIn : C → ∀ fs fs', Over z fs → runAll edits fs = some fs' → EndsIn x fs (.ok a) fs'

section

variable {α β γ : Type} {C C' : Prop} {edits edits' : List Edit}

theorem does_pure (z : FileSystem) (a : α) : Does z (pure a) a True [] where
  isAtPlaces := nofun
  of_run := by
    intro w w' _ h
    cases h
    exact ⟨trivial, rfl⟩
  endsIn := by
    intro _ fs fs' _ hrun
    cases hrun
    exact endsIn_pure a

theorem Does.congr {a : α} {x : Session α} (h : Does z x a C edits) (hC : C' ↔ C) :
    Does z x a C' edits := by
  rwa [propext hC]

/-- **An operation that is two others one after the other** makes the edits of both. -/
theorem Does.both {x : Session α} {y : Session β} {x' : Session γ} {a : α} {b : β} {c : γ}
    (hz : z.Unlinked) (hx : Does z x a C edits) (hy : C → Does z y b C' edits')
    (hrun : ∀ w w', x'.run.run w = (.ok c, w') →
      ∃ w₁, x.run.run w = (.ok a, w₁) ∧ y.run.run w₁ = (.ok b, w'))
    (hends : ∀ fs fs₁ fs', EndsIn x fs (.ok a) fs₁ → EndsIn y fs₁ (.ok b) fs' →
      EndsIn x' fs (.ok c) fs') :
    Does z x' c (C ∧ C') (edits ++ edits') where
  isAtPlaces h := List.forall_mem_append.2 ⟨hx.isAtPlaces h.1, (hy h.1).isAtPlaces h.2⟩
  of_run := by
    intro w w' hover h
    obtain ⟨w₁, hfirst, hthen⟩ := hrun w w' h
    obtain ⟨hC, hedits⟩ := hx.of_run w w₁ hover hfirst
    have hover₁ := hover.runAll hz (hx.isAtPlaces hC) hedits
    obtain ⟨hC', hedits'⟩ := (hy hC).of_run w₁ w' hover₁ hthen
    exact ⟨⟨hC, hC'⟩, runAll_append.2 ⟨w₁.fs, hedits, hedits'⟩⟩
  endsIn := by
    intro h fs fs' hover hedits
    obtain ⟨fs₁, hfirst, hthen⟩ := runAll_append.1 hedits
    have hover₁ := hover.runAll hz (hx.isAtPlaces h.1) hfirst
    exact hends fs fs₁ fs' (hx.endsIn h.1 fs fs₁ hover hfirst)
      ((hy h.1).endsIn h.2 fs₁ fs' hover₁ hthen)

variable {x y : Session Unit} (hz : z.Unlinked) (hx : Does z x () C edits)
  (hy : Does z y () C' edits')

include hz hx hy

theorem Does.seq : Does z (x >>= fun _ => y) () (C ∧ C') (edits ++ edits') := by
  refine hx.both hz (fun _ => hy) ?_ fun _ _ _ hfirst hthen => hfirst.bind_ok hthen
  intro w w' h
  obtain ⟨_, w₁, hfirst, hthen⟩ := bind_run_ok.1 h
  exact ⟨w₁, hfirst, hthen⟩

theorem Does.finallyDo : Does z (Session.finallyDo x y) () (C ∧ C') (edits ++ edits') :=
  hx.both hz (fun _ => hy) (fun _ _ h => finallyDo_run_ok h)
    fun _ _ _ hfirst hthen => hfirst.finallyDo hthen

end

theorem does_forM {β : Type} {x : β → Session Unit} {C : β → Prop} {f : β → Edit}
    {items : List β} (hz : z.Unlinked) (h : ∀ b ∈ items, Does z (x b) () (C b) [f b]) :
    Does z (items.forM x) () (∀ b ∈ items, C b) (items.map f) := by
  induction items with
  | nil => exact (does_pure z ()).congr (by simp)
  | cons b rest ih =>
    rw [List.forall_mem_cons] at h
    exact (h.1.seq hz (ih h.2)).congr List.forall_mem_cons

/-! ### Single steps -/

/-- The place of a path; of a path without one it is of no use. -/
def spot (z : FileSystem) (p : Path) : Location := (z.place? p.text).getD []

/-- The path where the text of a target is staged. -/
def staging (t : Path) : Path := (stagingPath? t).getD t

theorem place_spot {p : Path} (h : z.place? p.text ≠ none) :
    z.place? p.text = some (spot z p) := by
  obtain ⟨l, hl⟩ := Option.ne_none_iff_exists'.1 h
  unfold spot
  rw [hl]
  rfl

/-- The edits that stage, install and clear away the text of an artifact. -/
def put (z : FileSystem) (a : Path × CodeText) : Edit :=
  .put (spot z (staging a.1)) (a.2.utf8?.getD .empty)

def move (z : FileSystem) (q : Path × Path) : Edit := .move (spot z q.1) (spot z q.2)

def clear (z : FileSystem) (s : Path) : Edit := .clear (spot z s)

theorem canStage_iff {a : Path × CodeText} :
    canStage z a = true ↔ stagingPath? a.1 = some (staging a.1) ∧
      z.place? (staging a.1).text = some (spot z (staging a.1)) ∧
      a.2.utf8? = some (a.2.utf8?.getD .empty) := by
  unfold canStage stagingPlace?
  rw [Bool.and_eq_true]
  constructor
  · rintro ⟨hplace, htext⟩
    obtain ⟨l, hl⟩ := Option.isSome_iff_exists.1 hplace
    obtain ⟨bytes, hbytes⟩ := Option.isSome_iff_exists.1 htext
    obtain ⟨s, hs, hl⟩ := Option.bind_eq_some_iff.1 hl
    have hstaging : staging a.1 = s := by
      unfold staging
      rw [hs]
      rfl
    rw [hstaging, hbytes]
    exact ⟨hs, place_spot (by rw [hl]; nofun), rfl⟩
  · rintro ⟨hs, hl, hbytes⟩
    rw [hs, hbytes]
    exact ⟨Option.isSome_iff_exists.2 ⟨_, hl⟩, rfl⟩

theorem isOpen_iff {a : Path × CodeText} :
    isOpen z a = true ↔ z.place? a.1.text = some (spot z a.1) := by
  unfold isOpen
  constructor
  · intro h
    exact place_spot (Option.isSome_iff_ne_none.1 h)
  · intro h
    rw [h]
    rfl

theorem stage_run_ok (h : (stage t text).run.run w = (.ok s, w')) :
    stagingPath? t = some s ∧ ∃ bytes, text.utf8? = some bytes ∧
      (Change.write s.text bytes).run.run w.fs = (.ok (), w'.fs) := by
  unfold stage at h
  rcases hs : stagingPath? t with _ | s'
  · rw [hs] at h
    cases h
  · rw [hs] at h
    dsimp only at h
    obtain ⟨r, w₁, hwrite, hrest⟩ := bind_run_ok.1 h
    rcases writeText_run_ok hwrite with ⟨f, rfl⟩ | ⟨bytes, hbytes, hrun, rfl⟩
    · have hfails : ∀ w₂, (Session.change (Change.unlinkIfPresent s'.text) >>= fun _ =>
          (Session.raise (notWritten t) : Session Path)).run.run w₁ ≠ (.ok s, w₂) := by
        intro w₂ hok
        obtain ⟨_, w₃, -, hraise⟩ := bind_run_ok.1 hok
        exact raise_run_ne_ok _ hraise
      cases f with
      | nulInPath => cases hrest
      | _ => exact absurd hrest (hfails w')
    · cases hrest
      exact ⟨rfl, bytes, hbytes, hrun⟩

/-- **Staging puts a text at its staging place.** -/
theorem does_stage (hz : z.Unlinked) (a : Path × CodeText) :
    Does z (stage a.1 a.2) (staging a.1) (canStage z a = true) [put z a] where
  isAtPlaces := by
    intro h e he l hl
    obtain rfl := List.mem_singleton.1 he
    obtain rfl := List.mem_singleton.1 hl
    exact ⟨_, (canStage_iff.1 h).2.1⟩
  of_run := by
    intro w w' hover h
    obtain ⟨hs, bytes, hbytes, hwrite⟩ := stage_run_ok h
    obtain ⟨l, hplace, hset⟩ := (Change.write_eq_ok_iff hover.unlinked).1 hwrite
    rw [hover.place_eq hz] at hplace
    have hcan : canStage z a = true := by
      refine canStage_iff.2 ⟨hs, place_spot (by rw [hplace]; nofun), ?_⟩
      rw [hbytes]
      rfl
    refine ⟨hcan, ?_⟩
    have hspot : spot z (staging a.1) = l := by
      unfold spot
      rw [hplace]
      rfl
    unfold put
    rw [hspot, hbytes, hset]
    rfl
  endsIn := by
    intro h fs fs' hover hrun
    obtain ⟨hs, hplace, hbytes⟩ := canStage_iff.1 h
    cases hrun
    rw [← hover.place_eq hz] at hplace
    unfold stage
    rw [hs]
    exact (endsIn_writeText hbytes (Change.write_of_place hover.unlinked hplace)).bind_ok
      (endsIn_pure _)

theorem install_run_ok {q : Path × Path} (h : (install q).run.run w = (.ok (), w')) :
    (Change.replace q.1.text q.2.text).run.run w.fs = (.ok (), w'.fs) := by
  obtain ⟨r, w₁, hattempt, hrest⟩ := bind_run_ok.1 h
  rw [attempt_run] at hattempt
  rcases hrun : (Change.replace q.1.text q.2.text).run.run w.fs with ⟨e | _, fs'⟩ <;>
    rw [hrun] at hattempt <;> cases hattempt
  · exact absurd hrest (raise_run_ne_ok _)
  · cases hrest
    rfl

/-- **Installing moves a file from a place to a place.** -/
theorem does_install (hz : z.Unlinked) (q : Path × Path) :
    Does z (install q) () (z.place? q.1.text ≠ none ∧ z.place? q.2.text ≠ none) [move z q] where
  isAtPlaces := by
    intro h e he l hl
    obtain rfl := List.mem_singleton.1 he
    rcases List.mem_pair.1 hl with rfl | rfl
    · exact ⟨_, place_spot h.1⟩
    · exact ⟨_, place_spot h.2⟩
  of_run := by
    intro w w' hover h
    obtain ⟨l, l', bytes, hl, hl', hbytes, hmoved⟩ :=
      (Change.replace_eq_ok_iff hover.unlinked).1 (install_run_ok h)
    rw [hover.place_eq hz] at hl hl'
    have hplaces : z.place? q.1.text ≠ none ∧ z.place? q.2.text ≠ none := by
      rw [hl, hl']
      exact ⟨nofun, nofun⟩
    refine ⟨hplaces, runAll_cons.2 ⟨w'.fs, ?_, rfl⟩⟩
    have hspot : spot z q.1 = l ∧ spot z q.2 = l' := by
      unfold spot
      rw [hl, hl']
      exact ⟨rfl, rfl⟩
    unfold move
    rw [hspot.1, hspot.2]
    exact Edit.run_move.2 ⟨bytes, hbytes, hmoved⟩
  endsIn := by
    rintro ⟨h, h'⟩ fs fs' hover hrun
    obtain ⟨fs₁, hmove, hdone⟩ := runAll_cons.1 hrun
    cases hdone
    obtain ⟨bytes, hbytes, rfl⟩ := Edit.run_move.1 hmove
    have hl := place_spot h
    have hl' := place_spot h'
    rw [← hover.place_eq hz] at hl hl'
    have hreplace := Change.replace_of_places hover.unlinked hl hl' hbytes
    exact (endsIn_attempt hreplace).bind_ok (endsIn_pure ())

/-- **Cleaning up clears a place.** -/
theorem does_clear (hz : z.Unlinked) (hplace : z.place? s.text ≠ none) :
    Does z (Session.change (Change.unlinkIfPresent s.text)) () True [clear z s] := by
  have hunlink : ∀ fs, Over z fs →
      (Change.unlinkIfPresent s.text).run.run fs = (.ok (), fs.erase (spot z s)) := by
    intro fs hover
    have hl := place_spot hplace
    rw [← hover.place_eq hz] at hl
    exact Change.unlinkIfPresent_of_place hl
  constructor
  case isAtPlaces =>
    intro _ e he l hl
    obtain rfl := List.mem_singleton.1 he
    obtain rfl := List.mem_singleton.1 hl
    exact ⟨_, place_spot hplace⟩
  case of_run =>
    intro w w' hover h
    have hrun := change_run_ok h
    rw [hunlink w.fs hover] at hrun
    exact ⟨trivial, congrArg some (Prod.mk.inj hrun).2⟩
  case endsIn =>
    intro _ fs fs' hover hrun
    cases hrun
    exact endsIn_change (hunlink fs hover)

/-! ### Writing all artifacts -/

/-- The staged files with their targets. -/
def stagedOf (as : List (Path × CodeText)) : List (Path × Path) :=
  as.map fun a => (staging a.1, a.1)

theorem mem_stagedPaths : s ∈ (stagedOf as).map (·.1) ↔ ∃ a ∈ as, staging a.1 = s := by
  unfold stagedOf
  rw [List.map_map]
  exact List.mem_map

theorem stageEach_run_ok {a : Path × CodeText}
    (h : (stageEach (a :: as)).run.run w = (.ok (staged, none), w')) :
    ∃ s w₁ rest, (stage a.1 a.2).run.run w = (.ok s, w₁) ∧
      (stageEach as).run.run w₁ = (.ok (rest, none), w') ∧ staged = (s, a.1) :: rest := by
  obtain ⟨t, text⟩ := a
  rw [run_stageEach_cons] at h
  rcases hfirst : (stage t text).run.run w with ⟨f | s, w₁⟩
  · rw [hfirst] at h
    cases h
  · rw [hfirst] at h
    dsimp only at h
    rcases hrest : (stageEach as).run.run w₁ with ⟨f | ⟨rest, f⟩, w₂⟩
    · rw [hrest] at h
      cases h
    · rw [hrest] at h
      cases h
      exact ⟨s, w₁, rest, rfl, hrest, rfl⟩

theorem staged_of_stageEach (h : (stageEach as).run.run w = (.ok (staged, none), w')) :
    staged = stagedOf as := by
  induction as generalizing w staged with
  | nil =>
    cases h
    rfl
  | cons a as ih =>
    obtain ⟨s, w₁, rest, hfirst, hrest, rfl⟩ := stageEach_run_ok h
    have hs : staging a.1 = s := by
      unfold staging
      rw [(stage_run_ok hfirst).1]
      rfl
    rw [ih hrest, ← hs]
    rfl

theorem does_stageEach (hz : z.Unlinked) (as : List (Path × CodeText)) :
    Does z (stageEach as) (stagedOf as, none) (∀ a ∈ as, canStage z a = true)
      (as.map (put z)) := by
  induction as with
  | nil => exact (does_pure z _).congr (by simp)
  | cons a as ih =>
    refine ((does_stage hz a).both hz (fun _ => ih) ?_ ?_).congr List.forall_mem_cons
    · intro w w' h
      obtain ⟨s, w₁, rest, hfirst, hrest, hstaged⟩ := stageEach_run_ok h
      obtain ⟨rfl, rfl⟩ : staging a.1 = s ∧ stagedOf as = rest := by
        simpa [stagedOf] using hstaged
      exact ⟨w₁, hfirst, hrest⟩
    · intro fs fs₁ fs' hfirst hrest
      exact endsIn_stageEach_cons hfirst hrest

/-- The edits of writing all artifacts, after their texts have been put. -/
def laterEdits (z : FileSystem) (as : List (Path × CodeText)) : List Edit :=
  (stagedOf as).map (move z) ++ ((stagedOf as).map (·.1)).map (clear z)

/-- Everything that has to be there for the artifacts to be written. -/
def CanWrite (z : FileSystem) (as : List (Path × CodeText)) : Prop :=
  ∀ a ∈ as, canStage z a = true ∧ isOpen z a = true

theorem does_installing (hz : z.Unlinked) (hstage : ∀ a ∈ as, canStage z a = true) :
    Does z (Session.finallyDo ((stagedOf as).forM install) (cleanUp ((stagedOf as).map (·.1)))) ()
      (∀ a ∈ as, isOpen z a = true) (laterEdits z as) := by
  have hplace : ∀ s ∈ (stagedOf as).map (·.1), z.place? s.text ≠ none := by
    intro s hs
    obtain ⟨a, ha, rfl⟩ := mem_stagedPaths.1 hs
    rw [(canStage_iff.1 (hstage a ha)).2.1]
    nofun
  have hinstall := does_forM hz fun q (_ : q ∈ stagedOf as) => does_install hz q
  have hclear := does_forM hz fun s hs => does_clear hz (hplace s hs)
  refine (hinstall.finallyDo hz hclear).congr ?_
  unfold stagedOf
  simp only [List.forall_mem_map, implies_true, and_true]
  refine forall₂_congr fun a ha => ?_
  rw [isOpen_iff, (canStage_iff.1 (hstage a ha)).2.1]
  constructor
  · intro h
    rw [h]
    exact ⟨nofun, nofun⟩
  · rintro ⟨-, h⟩
    exact place_spot h

/-- **Writing all artifacts is a list of edits** that does not depend on what stands at their
    places. -/
theorem does_writeAll (hz : z.Unlinked) (as : List (Path × CodeText)) :
    Does z (writeAll as) () (CanWrite z as) (as.map (put z) ++ laterEdits z as) := by
  rw [writeAll_eq]
  refine ((does_stageEach hz as).both hz (does_installing hz) ?_ ?_).congr forall₂_and
  · intro w w' h
    obtain ⟨⟨staged, failure⟩, w₁, hfirst, hthen⟩ := bind_run_ok.1 h
    cases failure with
    | some f =>
      obtain ⟨w₂, hbody, -⟩ := finallyDo_run_ok hthen
      cases hbody
    | none =>
      obtain rfl := staged_of_stageEach hfirst
      exact ⟨w₁, hfirst, hthen⟩
  · intro fs fs₁ fs' hfirst hthen
    exact hfirst.bind_ok hthen

/-- Every edit belongs to an artifact. -/
theorem owns_of_changed (h : CanWrite z as) {e : Edit}
    (he : e ∈ as.map (put z) ++ laterEdits z as) (hl : l ∈ e.changed) :
    ∃ a ∈ as, Owns z a.1 l := by
  have hstaging : ∀ a ∈ as, Owns z a.1 (spot z (staging a.1)) := by
    intro a ha
    obtain ⟨hs, hplace, -⟩ := canStage_iff.1 (h a ha).1
    exact ⟨_, mem_writtenPaths_of_staging hs, hplace⟩
  unfold laterEdits stagedOf at he
  rw [List.map_map, List.map_map, List.map_map] at he
  simp only [List.mem_append, List.mem_map] at he
  rcases he with ⟨a, ha, rfl⟩ | ⟨a, ha, rfl⟩ | ⟨a, ha, rfl⟩
  · obtain rfl := List.mem_singleton.1 hl
    exact ⟨a, ha, hstaging a ha⟩
  · rcases List.mem_pair.1 hl with rfl | rfl
    · exact ⟨a, ha, hstaging a ha⟩
    · exact ⟨a, ha, owns_place (isOpen_iff.1 (h a ha).2)⟩
  · obtain rfl := List.mem_singleton.1 hl
    exact ⟨a, ha, hstaging a ha⟩

/-- Files are taken only from where the texts have been put. -/
theorem exists_put_of_source {e : Edit} (he : e ∈ laterEdits z as) (hl : l ∈ e.source?) :
    ∃ p ∈ as.map (put z), l ∈ p.changed := by
  unfold laterEdits stagedOf at he
  rw [List.map_map, List.map_map, List.map_map] at he
  simp only [List.mem_append, List.mem_map] at he
  rcases he with ⟨a, ha, rfl⟩ | ⟨a, ha, rfl⟩
  · cases hl
    exact ⟨_, List.mem_map_of_mem ha, List.mem_cons_self⟩
  · cases hl

/-! ### The names of what is changed -/

/-- A name under which a text is staged ends in `.tmp`. -/
theorem suffixOf_stagingName (n : String) : Manifest.suffixOf (stagingName n) = ".tmp" := by
  have hpoints : (CodeText.ofString (stagingName n)).points =
      (.char '.' :: Text.ofChars n.toList) ++ .char '.' :: [.char 't', .char 'm', .char 'p'] := by
    change Text.ofChars (stagingName n).toList = _
    rw [toList_stagingName]
    unfold Text.ofChars
    rw [List.map_cons, List.map_append]
    rfl
  unfold Manifest.suffixOf
  rw [hpoints, Path.cutSuffix_append (List.cons_ne_nil _ _) (List.cons_ne_nil _ _) (by decide)]
  rfl

section

variable {config : Config} {directory target : Path} {n : String} {d : Location}

/-- A staged text has no name of a manifest. -/
theorem isManifest_stagingName (hn : IsName n)
    (htmp : ↑".tmp" ∉ config.suffixes.map CodeText.lower) :
    Manifest.isManifest config.suffixes (.ofString (stagingName n)) = false := by
  have hlower : CodeText.lower ".tmp" = ".tmp" := by decide +kernel
  unfold Manifest.isManifest Manifest.isManifestName
  rw [Path.name_ofString (isName_stagingName hn), suffixOf_stagingName, hlower, Bool.eq_false_iff]
  exact mt List.contains_iff_mem.1 htmp

theorem exists_stagingName (hz : z.Unlinked) (h : l ∈ stagingPlace? z target) :
    ∃ dir n, IsName n ∧ l = dir ++ [stagingName n] := by
  obtain ⟨s, hs, hplace⟩ := mem_stagingPlace.1 h
  obtain ⟨dir, hl, -, -⟩ := exists_name_of_place hz hplace
  unfold stagingPath? at hs
  split at hs
  · cases hs
  · rename_i hname
    have hisName : IsName target.name := by
      unfold Path.name at hname ⊢
      rcases hlast : target.names.getLast? with _ | m
      · rw [hlast] at hname
        exact absurd rfl hname
      · exact target.names_ok m (List.mem_of_getLast? hlast)
    cases hs
    refine ⟨dir, target.name, hisName, ?_⟩
    rw [hl]
    congr 2
    exact name_of_join _ (isName_stagingName hisName)

/-- The name of a target in an output directory that is there. -/
theorem name_of_target (hz : z.Unlinked) (hdir : z.find true directory.text = .ok (d, .directory))
    (h : z.place? (directory / .ofString n).text = some l) :
    (directory / Path.ofString n).name = (Path.ofString n).name := by
  obtain ⟨-, -, hnames, -⟩ := exists_name_of_place hz h
  by_cases hempty : (Path.ofString n).names = []
  · -- such a target is the output directory itself, where no file can be
    exfalso
    have hsame : (directory / Path.ofString n) = directory := by
      change Path.join directory (Path.ofString n) = directory
      change (Path.join directory (Path.ofString n)).names ≠ [] at hnames
      unfold Path.join at hnames ⊢
      rcases hanchor : (Path.ofString n).anchor <;> simp only [hanchor] at hnames ⊢
      · exact Path.eq_of_parts rfl (by simp [hempty])
      · exact absurd hempty hnames
      · exact absurd hempty hnames
    rw [hsame] at h
    obtain ⟨hcomes, hentry⟩ := (find_eq_ok_iff hz).1 hdir
    have hnone : z.place? directory.text = none := by
      unfold place?
      rw [hcomes.resolve hz]
      exact spot_endAt_directory hentry
    rw [hnone] at h
    cases h
  · change (Path.join directory (Path.ofString n)).name = _
    unfold Path.join Path.name
    rcases (Path.ofString n).anchor with _ | _ | _
    · dsimp only
      rw [List.getLast?_append_of_ne_nil _ hempty]
    · rfl
    · rfl

/-- **What emission changes has no name of a manifest.** -/
theorem not_isManifest_of_owns (hz : z.Unlinked)
    (hdir : z.find true directory.text = .ok (d, .directory))
    (hn : Manifest.isManifest config.suffixes (.ofString n) = false)
    (htmp : ↑".tmp" ∉ config.suffixes.map CodeText.lower)
    (h : Owns z (directory / .ofString n) l) :
    ∃ dir m, l = dir ++ [m] ∧ Manifest.isManifest config.suffixes (.ofString m) = false := by
  by_cases htarget : l ∈ z.place? (directory / .ofString n).text
  · obtain ⟨dir, hl, -, hentry⟩ := exists_name_of_place hz htarget
    refine ⟨dir, _, hl, ?_⟩
    rw [← hn]
    apply Manifest.isManifest_congr
    rw [Path.name_ofString hentry.isName, name_of_target hz hdir htarget]
  · have hstaging : l ∈ stagingPlace? z (directory / .ofString n) := by
      by_contra hno
      exact not_owns htarget hno h
    obtain ⟨dir, m, hm, hl⟩ := exists_stagingName hz hstaging
    exact ⟨dir, _, hl, isManifest_stagingName hm htmp⟩

end

/-! ### Emission -/

section

variable {config : Config} {c : Collection} {directory : Path} {places : Places}

theorem prepare_run_ok (h : (prepare directory).run.run w = (.ok (), w')) :
    (Change.makeDirectories directory).run.run w.fs = (.ok (), w'.fs) := by
  obtain ⟨r, w₁, hattempt, hrest⟩ := bind_run_ok.1 h
  rw [attempt_run] at hattempt
  rcases hrun : (Change.makeDirectories directory).run.run w.fs with ⟨f | _, fs'⟩ <;>
    rw [hrun] at hattempt <;> cases hattempt
  · cases f with
    | nulInPath => cases hrest
    | _ => exact absurd hrest (raise_run_ne_ok _)
  · cases hrest
    rfl

theorem emit_run_ok (h : (emit config c directory).run.run w = (.ok places, w')) :
    ∃ w₁ w₂, (prepare directory).run.run w = (.ok (), w₁) ∧
      (writeAll (artifacts config c directory)).run.run w₁ = (.ok (), w₂) ∧ w'.fs = w₂.fs ∧
        places = Places.inDirectory config directory := by
  rw [emit_eq] at h
  obtain ⟨_, w₁, hprepare, h₁⟩ := bind_run_ok.1 h
  obtain ⟨_, w₂, hwrite, h₂⟩ := bind_run_ok.1 h₁
  cases h₂
  exact ⟨w₁, w₂, hprepare, hwrite, rfl, rfl⟩

theorem canWrite_artifacts
    (hplaces : ∀ t ∈ (Places.inDirectory config directory).paths,
      (stagingPlace? z t).isSome = true ∧ (z.place? t.text).isSome = true)
    (htexts : ∀ t ∈ (texts config c).list, t.utf8? ≠ none) :
    CanWrite z (artifacts config c directory) := by
  intro a ha
  exact ⟨canStage_artifacts (fun t ht => (hplaces t ht).1) htexts a ha,
    (hplaces a.1 (List.of_mem_zip ha).1).2⟩

/-- **Emission succeeds where its edits can be made.** -/
theorem exists_emit_ok (hmade : IsMade directory fs) (hz : (made directory fs).Unlinked)
    (hcan : CanWrite (made directory fs) (artifacts config c directory))
    (hedits : (runAll ((artifacts config c directory).map (put (made directory fs)) ++
      laterEdits (made directory fs) (artifacts config c directory))
        (made directory fs)).isSome = true) :
    ∃ w', (emit config c directory).run.run ⟨fs, []⟩ =
      (.ok (Places.inDirectory config directory), w') := by
  obtain ⟨fs', hrun⟩ := Option.isSome_iff_exists.1 hedits
  have hwrite := (does_writeAll hz _).endsIn hcan _ fs' (.refl hz) hrun
  obtain ⟨journal, hemit⟩ := endsIn_emit_of_writeAll hmade hwrite []
  exact ⟨_, hemit⟩

/-- Making the output directory adds directories, and then it is there. -/
theorem exists_find_of_prepare (hfs : w.fs.Unlinked)
    (h : (prepare directory).run.run w = (.ok (), w')) :
    Adds w.fs w'.fs ∧ ∃ d, w'.fs.find true directory.text = .ok (d, .directory) := by
  have hmake := prepare_run_ok h
  have hadds := Change.makePath_adds (directory.names.length + 1) directory hfs
  change Adds w.fs ((Change.makeDirectories directory).run.run w.fs).2 at hadds
  rw [hmake] at hadds
  exact ⟨hadds, Change.find_of_makePath hfs hmake⟩

theorem endsIn_prepare_of_find {d : Location} (hfs : fs.Unlinked)
    (h : fs.find true directory.text = .ok (d, .directory)) :
    EndsIn (prepare directory) fs (.ok ()) fs :=
  (endsIn_attempt (Change.makeDirectories_of_find hfs h)).bind_ok (endsIn_pure ())

/-- **Artifacts that have been written can be written again**, and nothing is different then. -/
theorem exists_endsIn_writeAll (hfs : w.fs.Unlinked)
    (h : (writeAll as).run.run w = (.ok (), w')) :
    Over w.fs w'.fs ∧ ∃ fs', EndsIn (writeAll as) w'.fs (.ok ()) fs' ∧
      ∀ l, fs'.entryAt? l = w'.fs.entryAt? l := by
  have hdoes := does_writeAll hfs as
  obtain ⟨hcan, hruns⟩ := hdoes.of_run w w' (.refl hfs) h
  have hover := (Over.refl hfs).runAll hfs (hdoes.isAtPlaces hcan) hruns
  have hputs : ∀ e ∈ as.map (put w.fs), e.source? = none := by
    intro e he
    obtain ⟨a, -, rfl⟩ := List.mem_map.1 he
    rfl
  obtain ⟨fs', hagain, hnothing⟩ := runAll_again (hdoes.isAtPlaces hcan) hputs
    (fun e he l hl => exists_put_of_source he hl) hruns
  exact ⟨hover, fs', hdoes.endsIn hcan w'.fs fs' hover hagain, hnothing⟩

/-- **Writing the artifacts touches no manifest**, if neither an artifact nor a staged text has
    the name of one. -/
theorem keepsManifests_of_writeAll {d : Location} (hfs : w.fs.Unlinked)
    (hdir : w.fs.find true directory.text = .ok (d, .directory))
    (hnames : ∀ n ∈ artifactNames config, Manifest.isManifest config.suffixes (.ofString n) = false)
    (htmp : ↑".tmp" ∉ config.suffixes.map CodeText.lower)
    (h : (writeAll (artifacts config c directory)).run.run w = (.ok (), w')) :
    Manifest.KeepsManifests config.suffixes w.fs w'.fs := by
  have hdoes := does_writeAll hfs (artifacts config c directory)
  obtain ⟨hcan, hruns⟩ := hdoes.of_run w w' (.refl hfs) h
  have hover := (Over.refl hfs).runAll hfs (hdoes.isAtPlaces hcan) hruns
  refine ⟨hover.unlinked, hover.keepsDirectories, ?_⟩
  intro dir n hmanifest bytes
  rw [runAll_elsewhere (hdoes.isAtPlaces hcan) hruns]
  intro e he hl
  obtain ⟨a, ha, howns⟩ := owns_of_changed hcan he hl
  have htarget : a.1 ∈ (artifactNames config).map fun n => directory / Path.ofString n := by
    rw [← paths_inDirectory, ← map_fst_artifacts config c directory]
    exact List.mem_map_of_mem ha
  obtain ⟨m, hm, hpath⟩ := List.mem_map.1 htarget
  rw [← hpath] at howns
  obtain ⟨dir', n', heq, hno⟩ := not_isManifest_of_owns hfs hdir (hnames m hm) htmp howns
  obtain ⟨-, hn'⟩ := List.append_inj' heq rfl
  cases hn'
  rw [hmanifest] at hno
  cases hno

/-- **Emission that has succeeded succeeds again**, and leaves everything as it is.  No manifest
    has been touched, if neither an artifact nor a staged text has the name of one. -/
theorem exists_endsIn_emit (hfs : w.fs.Unlinked)
    (hnames : ∀ n ∈ artifactNames config, Manifest.isManifest config.suffixes (.ofString n) = false)
    (htmp : ↑".tmp" ∉ config.suffixes.map CodeText.lower)
    (h : (emit config c directory).run.run w = (.ok places, w')) :
    Manifest.KeepsManifests config.suffixes w.fs w'.fs ∧
      ∃ fs', EndsIn (emit config c directory) w'.fs (.ok places) fs' ∧
        ∀ l, fs'.entryAt? l = w'.fs.entryAt? l := by
  obtain ⟨w₁, w₂, hprepare, hwrite, hsame, rfl⟩ := emit_run_ok h
  obtain ⟨hadds, d, hdir⟩ := exists_find_of_prepare hfs hprepare
  have hkeeps := keepsManifests_of_writeAll hadds.unlinked hdir hnames htmp hwrite
  obtain ⟨hover, fs', hagain, hnothing⟩ := exists_endsIn_writeAll hadds.unlinked hwrite
  have hthere :=
    find_directory_mono hadds.unlinked hover.unlinked hover.keepsDirectories hdir
  rw [hsame]
  refine ⟨⟨hover.unlinked, hadds.keepsDirectories.trans hover.keepsDirectories, ?_⟩, fs', ?_,
    hnothing⟩
  · intro dir n hmanifest bytes
    rw [hkeeps.file_iff dir n hmanifest, hadds.file_iff]
  · rw [emit_eq]
    exact (endsIn_prepare_of_find hover.unlinked hthere).bind_ok
      (hagain.bind_ok ((endsIn_lift (Traced.appends_log _)).bind_ok (endsIn_pure _)))

end

end WorkflowCatalog.Artifact
