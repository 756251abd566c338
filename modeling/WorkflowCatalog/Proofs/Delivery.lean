/-
  WorkflowCatalog/Proofs/Delivery.lean
  ====================================
  **What a successful emission delivers.**  When all texts have been staged and installed,
  what is left at the staging places is removed.  If a target stands at such a place, it is
  removed too, although emission reports it.

  Where no link stands at a staging place this is all that can go wrong: a successful
  emission delivers all it reports exactly if no text is staged at the place of a target,
  whatever the artifacts are called and whatever there was before (`delivers_iff`).  For
  two texts that are staged at one place, or meant for one target, emission does not
  succeed (`moved_of_installing`).
-/
import WorkflowCatalog.Proofs.Footprint

namespace WorkflowCatalog.Artifact

open FileSystem Session
open Text (CodeText)

/-- Every reported path can be read, and what is read is the text for it. -/
def Delivers (config : Config) (c : Collection) (places : Places) (fs : FileSystem) : Prop :=
  ∀ a ∈ places.paths.zip (texts config c).list, ∃ bytes, a.2.utf8? = some bytes ∧
    fs.readBytes a.1.text = .ok bytes

/-- No text is staged at the place of a target. -/
def StagesBeside (fs : FileSystem) (targets : List Path) : Prop :=
  ∀ t ∈ targets, ∀ u ∈ targets, ∀ l ∈ stagingPlace? fs t, l ∉ fs.place? u.text

instance (fs : FileSystem) (targets : List Path) : Decidable (StagesBeside fs targets) :=
  inferInstanceAs (Decidable
    (∀ t ∈ targets, ∀ u ∈ targets, ∀ l ∈ stagingPlace? fs t, l ∉ fs.place? u.text))

/-- Where the text of an artifact is staged, and where it is put in the end. -/
def stagedAt (fs : FileSystem) (a : Path × CodeText) : Location := spot fs (staging a.1)

def targetAt (fs : FileSystem) (a : Path × CodeText) : Location := spot fs a.1

/-- There is a place where the text of the artifact is staged. -/
structure HasStaging (fs : FileSystem) (a : Path × CodeText) : Prop where
  path : stagingPath? a.1 = some (staging a.1)
  place : fs.place? (staging a.1).text = some (stagedAt fs a)

variable {fs₁ fs fs' : FileSystem} {w w' : World} {targets : List Path} {D : Location → Prop}
  {a b : Path × CodeText} {as : List (Path × CodeText)} {staged : List (Path × Path)}
  {p s : Path} {ss : List Path} {l : Location}

theorem spot_eq (h : fs.place? p.text = some l) : spot fs p = l := by
  unfold spot
  rw [h]
  rfl

theorem HasStaging.mem_stagingPlace (h : HasStaging fs a) :
    stagedAt fs a ∈ stagingPlace? fs a.1 :=
  Artifact.mem_stagingPlace.2 ⟨_, h.path, h.place⟩

/-- What is staged at a place is staged there. -/
theorem hasStaging_of_mem (h : l ∈ stagingPlace? fs a.1) :
    HasStaging fs a ∧ stagedAt fs a = l := by
  obtain ⟨s, hs, hl⟩ := Artifact.mem_stagingPlace.1 h
  have hstaging : staging a.1 = s := by
    unfold staging
    rw [hs]
    rfl
  have hat : stagedAt fs a = l := by
    unfold stagedAt
    rw [hstaging]
    exact spot_eq hl
  refine ⟨⟨by rw [hs, hstaging], ?_⟩, hat⟩
  rw [hstaging, hat, hl]

/-! ### Steps that end well -/

section

variable (h : Touches D fs₁ w.fs)

include h

/-- A text that gets staged is put at its staging place. -/
theorem stage_ok (hunlinked : StagesUnlinked fs₁ targets) (ha : a.1 ∈ targets)
    (hrun : (stage a.1 a.2).run.run w = (.ok s, w')) :
    HasStaging fs₁ a ∧ ∃ bytes, a.2.utf8? = some bytes ∧
      Puts w.fs w'.fs (stagedAt fs₁ a) (some (.file bytes)) := by
  obtain ⟨hs, bytes, hbytes, hwrite⟩ := stage_run_ok hrun
  have hlink := hunlinked.noLinkAt ha hs
  rcases hplace : w.fs.place? s.text with _ | l
  · obtain ⟨f, hf⟩ := exists_obstacle hplace
    rw [Change.write_of_obstacle bytes hf] at hwrite
    cases hwrite
  · obtain ⟨fs', hwrite', hputs⟩ := Change.write_of_unlinked_place bytes hplace
      (hlink.of_rewrites h.toRewrites l hplace)
    rw [hwrite] at hwrite'
    cases hwrite'
    have hl := (h.place_of_place hplace).1
    obtain ⟨hstaging, hat⟩ := hasStaging_of_mem (mem_stagingPlace.2 ⟨s, hs, hl⟩)
    refine ⟨hstaging, bytes, hbytes, ?_⟩
    rwa [hat]

/-- A target that gets installed is moved from its staging place. -/
theorem install_ok (ha : HasStaging fs₁ a) (hlink : NoLinkAt fs₁ (staging a.1).text)
    (hrun : (install (staging a.1, a.1)).run.run w = (.ok (), w')) :
    fs₁.place? a.1.text = some (targetAt fs₁ a) ∧ ∃ bytes,
      w.fs.entryAt? (stagedAt fs₁ a) = some (.file bytes) ∧
        w'.fs = w.fs.moved (stagedAt fs₁ a) (targetAt fs₁ a) (.file bytes) := by
  have hreplace := install_run_ok hrun
  rcases Change.replace_cases w.fs (staging a.1).text a.1.text with
    ⟨f, hfails⟩ | ⟨s, t, e, hs, ht, he, hmoved⟩
  · rw [hfails] at hreplace
    cases hreplace
  · rw [hmoved] at hreplace
    have hsource := (h.place_of_place hs).1
    have htarget := (h.place_of_place ht).1
    obtain ⟨bytes, rfl⟩ := (hlink.of_rewrites h.toRewrites).exists_file hs he
    rw [ha.place] at hsource
    cases hsource
    have hat : targetAt fs₁ a = t := spot_eq htarget
    rw [hat]
    exact ⟨htarget, bytes, he, (Prod.mk.inj hreplace).2.symm⟩

/-- Where cleaning up does not fail, what stands at a staging place is removed. -/
theorem clear_ok (hplace : fs₁.place? s.text = some l)
    (hrun : (Session.change (Change.unlinkIfPresent s.text)).run.run w = (.ok (), w')) :
    w.fs.place? s.text = some l ∧ w'.fs = w.fs.erase l := by
  have hunlink := change_run_ok hrun
  rcases h.place_or_blocked hplace with hl | hblocked
  · rw [Change.unlinkIfPresent_of_place hl] at hunlink
    exact ⟨hl, (Prod.mk.inj hunlink).2.symm⟩
  · have hobstacle : w.fs.obstacle? s.text = some .notDirectory := by
      unfold obstacle?
      rw [hblocked]
    rw [Change.unlinkIfPresent_of_obstacle hobstacle] at hunlink
    cases hunlink

end

/-! ### Runs that end well -/

section

variable (hunlinked : StagesUnlinked fs₁ targets) (has : ∀ a ∈ as, a.1 ∈ targets)
  (h : Touches (IsWrittenPlace fs₁ targets) fs₁ w.fs)

include hunlinked has h

/-- **Staging puts every text at its staging place**, and the last of those that are staged at
    one place stays there. -/
theorem held_of_staging (hrun : (stageEach as).run.run w = (.ok (staged, none), w')) :
    (∀ a ∈ as, HasStaging fs₁ a) ∧
      (∀ l, (∀ a ∈ as, l ≠ stagedAt fs₁ a) → w'.fs.entryAt? l = w.fs.entryAt? l) ∧
        ((as.map (stagedAt fs₁)).Nodup → ∀ a ∈ as, ∃ bytes, a.2.utf8? = some bytes ∧
          w'.fs.entryAt? (stagedAt fs₁ a) = some (.file bytes)) := by
  induction as generalizing w staged with
  | nil =>
    cases hrun
    exact ⟨nofun, fun _ _ => rfl, fun _ => nofun⟩
  | cons a rest ih =>
    rw [List.forall_mem_cons] at has
    obtain ⟨s, w₁, later, hfirst, hrest, -⟩ := stageEach_run_ok hrun
    obtain ⟨hstaging, bytes, hbytes, hputs⟩ := stage_ok h hunlinked has.1 hfirst
    have hwritten : IsWrittenPlace fs₁ targets (stagedAt fs₁ a) :=
      ⟨a.1, has.1, owns_stagingPlace hstaging.mem_stagingPlace⟩
    have h₁ := h.puts hputs hwritten (.written bytes (isPlace_of_place hstaging.place).noDirectory)
    obtain ⟨hall, hframe, hheld⟩ := ih has.2 h₁ hrest
    refine ⟨List.forall_mem_cons.2 ⟨hstaging, hall⟩, ?_, ?_⟩
    · intro l hl
      rw [List.forall_mem_cons] at hl
      rw [hframe l hl.2, hputs.elsewhere l hl.1]
    · intro hnodup
      rw [List.map_cons, List.nodup_cons] at hnodup
      refine List.forall_mem_cons.2 ⟨⟨bytes, hbytes, ?_⟩, hheld hnodup.2⟩
      rw [hframe, hputs.there]
      intro b hb heq
      exact hnodup.1 (heq ▸ List.mem_map_of_mem hb)

/-- **Installing moves every text to its target.**  A text that has been moved away cannot be
    moved again, so no two texts have been staged at one place. -/
theorem moved_of_installing (hstaging : ∀ a ∈ as, HasStaging fs₁ a)
    (hbeside : StagesBeside fs₁ targets)
    (hrun : ((stagedOf as).forM install).run.run w = (.ok (), w')) :
    (∀ a ∈ as, fs₁.place? a.1.text = some (targetAt fs₁ a)) ∧
      (as.map (stagedAt fs₁)).Nodup ∧
        (∀ a ∈ as, w.fs.entryAt? (stagedAt fs₁ a) ≠ none ∧
          w'.fs.entryAt? (targetAt fs₁ a) = w.fs.entryAt? (stagedAt fs₁ a)) ∧
            ∀ l, (∀ a ∈ as, l ≠ stagedAt fs₁ a ∧ l ≠ targetAt fs₁ a) →
              w'.fs.entryAt? l = w.fs.entryAt? l := by
  induction as generalizing w with
  | nil =>
    cases hrun
    exact ⟨nofun, List.nodup_nil, nofun, fun _ _ => rfl⟩
  | cons a rest ih =>
    rw [List.forall_mem_cons] at has hstaging
    obtain ⟨_, w₁, hfirst, hrest⟩ := bind_run_ok.1 hrun
    have hlink := hunlinked.noLinkAt has.1 hstaging.1.path
    have h₁ := (keeps_installOne hunlinked has.1 hstaging.1.path).of_run h hfirst
    obtain ⟨htarget, bytes, hfile, hmoved⟩ := install_ok h hstaging.1 hlink hfirst
    obtain ⟨hplaces, hnodup, hheld, hframe⟩ := ih has.2 h₁ hstaging.2 hrest
    have hne : ∀ b ∈ rest, stagedAt fs₁ b ≠ targetAt fs₁ a := by
      intro b hb heq
      exact hbeside b.1 (has.2 b hb) a.1 has.1 _ (hstaging.2 b hb).mem_stagingPlace (heq ▸ htarget)
    have hself : stagedAt fs₁ a ≠ targetAt fs₁ a := by
      intro heq
      exact hbeside a.1 has.1 a.1 has.1 _ hstaging.1.mem_stagingPlace (heq ▸ htarget)
    have hentry := fun l => entryAt_moved (isPlace_of_place hstaging.1.place).ne_root
      (isPlace_of_place htarget).ne_root hfile l
    rw [← hmoved] at hentry
    have hgone : w₁.fs.entryAt? (stagedAt fs₁ a) = none := by
      rw [hentry, if_neg hself, if_pos rfl]
    have hother : ∀ b ∈ rest, stagedAt fs₁ b ≠ stagedAt fs₁ a := by
      intro b hb heq
      exact (hheld b hb).1 (heq ▸ hgone)
    have hsame : ∀ b ∈ rest, w₁.fs.entryAt? (stagedAt fs₁ b) = w.fs.entryAt? (stagedAt fs₁ b) := by
      intro b hb
      rw [hentry, if_neg (hne b hb), if_neg (hother b hb)]
    refine ⟨List.forall_mem_cons.2 ⟨htarget, hplaces⟩, ?_, ?_, ?_⟩
    · rw [List.map_cons, List.nodup_cons]
      refine ⟨fun hmem => ?_, hnodup⟩
      obtain ⟨b, hb, heq⟩ := List.mem_map.1 hmem
      exact hother b hb heq
    · refine List.forall_mem_cons.2 ⟨⟨by rw [hfile]; nofun, ?_⟩, fun b hb => ?_⟩
      · -- later targets are others: with the same place they would have the same staging place
        rw [hframe, hentry, if_pos rfl, hfile]
        intro b hb
        refine ⟨fun heq => hne b hb heq.symm, fun heq => hother b hb ?_⟩
        exact stagingPlace_unique (hplaces b hb) (heq ▸ htarget) (hstaging.2 b hb).mem_stagingPlace
          hstaging.1.mem_stagingPlace
      · rw [← hsame b hb]
        exact hheld b hb
    · intro l hl
      rw [List.forall_mem_cons] at hl
      rw [hframe l hl.2, hentry, if_neg hl.1.2, if_neg hl.1.1]

end

/-- **Cleaning up that ends well** has emptied the places of its paths, and blocks no way. -/
theorem cleared_of_cleanUp (hlink : ∀ s ∈ ss, NoLinkAt fs₁ s.text)
    (hplace : ∀ s ∈ ss, fs₁.place? s.text ≠ none) (h : Touches D fs₁ w.fs)
    (hD : ∀ s ∈ ss, D (spot fs₁ s)) (hrun : (cleanUp ss).run.run w = (.ok (), w')) :
    (∀ s ∈ ss, w'.fs.place? s.text = some (spot fs₁ s) ∧ w'.fs.entryAt? (spot fs₁ s) = none) ∧
      (∀ p l, w.fs.place? p = some l → w'.fs.place? p = some l) ∧
        ∀ l, w'.fs.entryAt? l = w.fs.entryAt? l ∨
          ((∃ s ∈ ss, l = spot fs₁ s) ∧ w'.fs.entryAt? l = none) := by
  induction ss generalizing w with
  | nil =>
    cases hrun
    exact ⟨nofun, fun _ _ hp => hp, fun _ => .inl rfl⟩
  | cons s rest ih =>
    rw [List.forall_mem_cons] at hlink hplace hD
    obtain ⟨_, w₁, hfirst, hrest⟩ := bind_run_ok.1 hrun
    have hs := place_spot hplace.1
    obtain ⟨hthere, herase⟩ := clear_ok h hs hfirst
    have hroot := (isPlace_of_place hs).ne_root
    have h₁ : Touches D fs₁ w₁.fs := by
      rw [herase]
      exact h.puts (puts_erase w.fs hroot) hD.1 (hlink.1.becomes_none hs)
    obtain ⟨hcleared, hkept, hframe⟩ := ih hlink.2 hplace.2 h₁ hD.2 hrest
    have hway : ∀ p l, w.fs.place? p = some l → w₁.fs.place? p = some l := by
      intro p l hp
      rw [herase]
      exact place_erase (hlink.1.of_rewrites h.toRewrites) hthere hp
    refine ⟨List.forall_mem_cons.2 ⟨⟨hkept _ _ (hway _ _ hthere), ?_⟩, hcleared⟩,
      fun p l hp => hkept p l (hway p l hp), fun l => ?_⟩
    · rcases hframe (spot fs₁ s) with hsame | ⟨-, hnone⟩
      · rw [hsame, herase, entryAt_erase_self hroot]
      · exact hnone
    · rcases hframe l with hsame | ⟨⟨s', hs', hl⟩, hnone⟩
      · rw [hsame, herase, entryAt_erase _ hroot]
        split
        · rename_i hl
          exact .inr ⟨⟨s, List.mem_cons_self, hl⟩, rfl⟩
        · exact .inl rfl
      · exact .inr ⟨⟨s', List.mem_cons_of_mem _ hs', hl⟩, hnone⟩

/-- What has been staged is cleared away, and nothing else. -/
theorem cleared_of_staged (hunlinked : StagesUnlinked fs₁ targets) (has : ∀ a ∈ as, a.1 ∈ targets)
    (hstaging : ∀ a ∈ as, HasStaging fs₁ a)
    (h : Touches (IsWrittenPlace fs₁ targets) fs₁ w.fs)
    (hrun : (cleanUp ((stagedOf as).map (·.1))).run.run w = (.ok (), w')) :
    (∀ a ∈ as, w'.fs.place? (staging a.1).text = some (stagedAt fs₁ a) ∧
        w'.fs.entryAt? (stagedAt fs₁ a) = none) ∧
      ∀ l, w'.fs.entryAt? l = w.fs.entryAt? l ∨
        ((∃ a ∈ as, l = stagedAt fs₁ a) ∧ w'.fs.entryAt? l = none) := by
  have hlink : ∀ s ∈ (stagedOf as).map (·.1), NoLinkAt fs₁ s.text := by
    intro s hs
    obtain ⟨a, ha, rfl⟩ := mem_stagedPaths.1 hs
    exact hunlinked.noLinkAt (has a ha) (hstaging a ha).path
  have hplace : ∀ s ∈ (stagedOf as).map (·.1), fs₁.place? s.text ≠ none := by
    intro s hs
    obtain ⟨a, ha, rfl⟩ := mem_stagedPaths.1 hs
    rw [(hstaging a ha).place]
    nofun
  have hspot : ∀ s ∈ (stagedOf as).map (·.1), IsWrittenPlace fs₁ targets (spot fs₁ s) := by
    intro s hs
    obtain ⟨a, ha, rfl⟩ := mem_stagedPaths.1 hs
    exact ⟨a.1, has a ha, owns_stagingPlace (hstaging a ha).mem_stagingPlace⟩
  obtain ⟨hcleared, -, hframe⟩ := cleared_of_cleanUp hlink hplace h hspot hrun
  refine ⟨fun a ha => hcleared _ (mem_stagedPaths.2 ⟨a, ha, rfl⟩), fun l => ?_⟩
  refine (hframe l).imp_right fun hnone => ⟨?_, hnone.2⟩
  obtain ⟨s, hs, hl⟩ := hnone.1
  obtain ⟨a, ha, rfl⟩ := mem_stagedPaths.1 hs
  exact ⟨a, ha, hl⟩

/-! ### Writing all artifacts -/

theorem writeAll_run_ok (h : (writeAll as).run.run w = (.ok (), w')) :
    ∃ w₁ w₂, (stageEach as).run.run w = (.ok (stagedOf as, none), w₁) ∧
      ((stagedOf as).forM install).run.run w₁ = (.ok (), w₂) ∧
        (cleanUp ((stagedOf as).map (·.1))).run.run w₂ = (.ok (), w') := by
  rw [writeAll_eq] at h
  obtain ⟨⟨staged, failure⟩, w₁, hstage, hrest⟩ := bind_run_ok.1 h
  obtain ⟨w₂, hbody, hclean⟩ := finallyDo_run_ok hrest
  cases failure with
  | some f => cases hbody
  | none =>
    obtain rfl := staged_of_stageEach hstage
    exact ⟨w₁, w₂, hstage, hbody, hclean⟩

/-- What writing all artifacts has done when it has ended well. -/
structure Completes (fs fs' : FileSystem) (targets : List Path) (as : List (Path × CodeText)) :
    Prop where
  hasStaging : ∀ a ∈ as, HasStaging fs a
  cleared : ∀ a ∈ as, fs'.entryAt? (stagedAt fs a) = none
  /-- No way to a target is blocked. -/
  way : ∀ a ∈ as, ∀ l, fs.place? a.1.text = some l → fs'.place? a.1.text = some l
  held : StagesBeside fs targets → ∀ a ∈ as, ∃ bytes, a.2.utf8? = some bytes ∧
    fs'.seen? false a.1.text = some (.file bytes)

theorem seen_of_place (h : fs.place? s.text = some l) :
    fs.seen? false s.text = fs.entryAt? l :=
  seen_of_resolve (resolve_of_place h)

/-- **Artifacts that have been written** are where they belong, unless a text has been staged at
    the place of a target. -/
theorem completes_of_run (hunlinked : StagesUnlinked w.fs targets) (has : ∀ a ∈ as, a.1 ∈ targets)
    (hrun : (writeAll as).run.run w = (.ok (), w')) : Completes w.fs w'.fs targets as := by
  obtain ⟨w₁, w₂, hstage, hinstall, hclean⟩ := writeAll_run_ok hrun
  have h : Touches (IsWrittenPlace w.fs targets) w.fs w.fs := .refl _ _
  have hwritten := fun l (hl : IsStagingPlace w.fs targets l) => hl.isWrittenPlace
  have h₁ := (keeps_staging hunlinked has hwritten).of_run h hstage
  obtain ⟨hstaging, -, hstaged⟩ := held_of_staging hunlinked has h hstage
  have h₂ := (keeps_installing hunlinked has List.prefix_rfl
    fun a ha => (hstaging a ha).path).of_run h₁ hinstall
  obtain ⟨hcleared, hframe⟩ := cleared_of_staged hunlinked has hstaging h₂ hclean
  have h₃ := (keeps_writeAll hunlinked has).of_run h hrun
  have hway : ∀ a ∈ as, ∀ l, w.fs.place? a.1.text = some l → w'.fs.place? a.1.text = some l := by
    intro a ha l hl
    exact place_of_staging h₃.toRewrites (hstaging a ha).path (hcleared a ha).1 hl
  refine ⟨hstaging, fun a ha => (hcleared a ha).2, hway, fun hbeside a ha => ?_⟩
  obtain ⟨hplaces, hnodup, hmoved, -⟩ :=
    moved_of_installing hunlinked has h₁ hstaging hbeside hinstall
  obtain ⟨bytes, hbytes, hheld⟩ := hstaged hnodup a ha
  refine ⟨bytes, hbytes, ?_⟩
  rw [seen_of_place (hway a ha _ (hplaces a ha))]
  rcases hframe (targetAt w.fs a) with hsame | ⟨⟨b, hb, heq⟩, -⟩
  · rw [hsame, (hmoved a ha).2, hheld]
  · have htarget := hplaces a ha
    rw [heq] at htarget
    exact absurd htarget
      (hbeside b.1 (has b hb) a.1 (has a ha) _ (hstaging b hb).mem_stagingPlace)

/-! ### Reading the artifacts -/

theorem readBytes_eq_ok_iff {path : String} {bytes : ByteArray} :
    fs.readBytes path = .ok bytes ↔ fs.seen? true path = some (.file bytes) := by
  unfold readBytes find seen?
  rcases fs.resolve true path with f | ⟨l, _ | _ | _⟩ | ⟨dir, name⟩ <;> simp [bind, Except.bind]

/-- Nothing is seen at a place where nothing stands. -/
theorem seen_of_empty_place {followLast : Bool} (h : fs.place? s.text = some l)
    (hnone : fs.entryAt? l = none) : fs.seen? followLast s.text = none := by
  have hseen := seen_of_place h
  rw [hnone] at hseen
  cases followLast with
  | false => exact hseen
  | true =>
    rw [← hseen]
    apply seen_of_trail
    apply trail_unlinked
    intro l' target hlink
    unfold seen? at hseen
    rw [hlink] at hseen
    cases hseen

section

variable {config : Config} {c : Collection} {directory : Path} {places : Places}

theorem completes_of_emit
    (hunlinked : StagesUnlinked (made directory w.fs) (Places.inDirectory config directory).paths)
    (hrun : (emit config c directory).run.run w = (.ok places, w')) :
    places = Places.inDirectory config directory ∧
      Completes (made directory w.fs) w'.fs (Places.inDirectory config directory).paths
        (artifacts config c directory) := by
  obtain ⟨w₁, w₂, hprepare, hwrite, hsame, rfl⟩ := emit_run_ok hrun
  have hmade := fs_of_prepare directory w
  rw [hprepare] at hmade
  dsimp only at hmade
  rw [← hmade] at hunlinked ⊢
  rw [hsame]
  exact ⟨rfl, completes_of_run hunlinked (mem_of_map_eq (map_fst_artifacts config c directory))
    hwrite⟩

section

variable
  (hunlinked : StagesUnlinked (made directory w.fs) (Places.inDirectory config directory).paths)
  (hrun : (emit config c directory).run.run w = (.ok places, w'))

include hunlinked hrun

/-- A target at a place where a text is staged is not there in the end. -/
theorem stagesBeside_of_delivers (hdelivers : Delivers config c places w'.fs) :
    StagesBeside (made directory w.fs) (Places.inDirectory config directory).paths := by
  obtain ⟨rfl, hdone⟩ := completes_of_emit hunlinked hrun
  intro t ht u hu l hl hplace
  rw [← map_fst_artifacts config c directory] at ht hu
  obtain ⟨a, ha, rfl⟩ := List.mem_map.1 ht
  obtain ⟨b, hb, rfl⟩ := List.mem_map.1 hu
  obtain ⟨bytes, -, hread⟩ := hdelivers b hb
  have hnone := hdone.cleared a ha
  rw [(hasStaging_of_mem hl).2] at hnone
  rw [readBytes_eq_ok_iff, seen_of_empty_place (hdone.way b hb l hplace) hnone] at hread
  cases hread

/-- **A successful emission delivers what it reports** exactly if no text is staged at the place
    of a target. -/
theorem delivers_iff : Delivers config c places w'.fs ↔
    StagesBeside (made directory w.fs) (Places.inDirectory config directory).paths := by
  refine ⟨stagesBeside_of_delivers hunlinked hrun, fun hbeside => ?_⟩
  obtain ⟨rfl, hdone⟩ := completes_of_emit hunlinked hrun
  intro a ha
  obtain ⟨bytes, hbytes, hseen⟩ := hdone.held hbeside a ha
  exact ⟨bytes, hbytes, readBytes_eq_ok_iff.2 (seen_of_file hseen)⟩

end

end

/-- A file system without entries. -/
def blank : FileSystem := ⟨[], []⟩

/-- The usual output directory. -/
def generated : Path := .ofString "generated"

theorem isMade_blank : IsMade generated blank := by
  unfold IsMade
  decide +kernel

/-- Emission into a directory that is made delivers the artifacts. -/
theorem delivers_intoBlank :
    StagesUnlinked (made generated blank)
        (Places.inDirectory .usual generated).paths ∧
      ∃ places w', (emit .usual .empty generated).run.run ⟨blank, []⟩ =
        (.ok places, w') ∧ Delivers .usual .empty places w'.fs := by
  have hunlinked : StagesUnlinked (made generated blank)
      (Places.inDirectory .usual generated).paths := by decide +kernel
  have hcan : CanWrite (made generated blank)
      (artifacts .usual .empty generated) :=
    canWrite_artifacts (by decide +kernel) (utf8_of_empty rfl)
  obtain ⟨w', hrun⟩ := exists_emit_ok isMade_blank (by decide +kernel) hcan (by decide +kernel)
  have hbeside : StagesBeside (made generated blank)
      (Places.inDirectory .usual generated).paths := by decide +kernel
  exact ⟨hunlinked, _, w', hrun, (delivers_iff (w := ⟨blank, []⟩) hunlinked hrun).2 hbeside⟩

/-- Settings by which the types module has the name under which the data module is staged. -/
def clashing : Config :=
  { Config.usual with dataFile := ⟨"a", by decide⟩, typesFile := ⟨".a.tmp", by decide⟩ }

/-- Emission removes the types module that it has just put there, and reports it. -/
theorem not_delivers_clashing :
    ∃ places w', (emit clashing .empty generated).run.run ⟨blank, []⟩ =
      (.ok places, w') ∧ ¬ Delivers clashing .empty places w'.fs := by
  have hunlinked : StagesUnlinked (made generated blank)
      (Places.inDirectory clashing generated).paths := by decide +kernel
  have hcan : CanWrite (made generated blank)
      (artifacts clashing .empty generated) :=
    canWrite_artifacts (by decide +kernel) (utf8_of_empty rfl)
  obtain ⟨w', hrun⟩ := exists_emit_ok isMade_blank (by decide +kernel) hcan (by decide +kernel)
  refine ⟨_, w', hrun, fun hdelivers => ?_⟩
  have hclash : ¬ StagesBeside (made generated blank)
      (Places.inDirectory clashing generated).paths := by decide +kernel
  exact hclash (stagesBeside_of_delivers (w := ⟨blank, []⟩) hunlinked hrun hdelivers)

end WorkflowCatalog.Artifact
