/-
  WorkflowCatalog/Proofs/Walk.lean
  ================================
  **A search is a walk with a list of directories to come to.**  The next directory of the
  list is passed over if it has been entered before.  Otherwise it is entered, its manifests
  are found and its directories are put in front of the list, with one level less.  The walk
  is over when the list is empty, when too many manifests have been found, at a directory
  that cannot be listed, or at one for which no level is left (`Walks`).

  The search by levels does what the walk does (`exists_walks_visit`), and a walk has one end
  only (`Walks.unique`).  More levels change the end only where they were too few
  (`Walks.of_le`).  No directory is entered twice, so no more are entered than there are entries
  (`Distinct.length_le`), and that many levels are never too few (`Walks.ne_deep`).
-/
import Mathlib.Data.List.Perm.Subperm
import WorkflowCatalog.Proofs.Following
import WorkflowCatalog.Proofs.Journal

namespace WorkflowCatalog.Manifest

open FileSystem

/-! ### Directories that are entered -/

/-- A directory that is entered, with the text under which the search comes to it. -/
structure Room where
  path : String
  loc : Location
  deriving DecidableEq

section

variable (s : Search)

/-- The names that the search takes for directories. -/
def isDir (r : Room) (n : String) : Bool := s.fs.isDirectoryEntry r.loc (below r.path n) n

/-- The directories to come to from a directory. -/
def directoriesIn (r : Room) : List String :=
  onward s r.loc (sortTexts ((s.fs.namesIn r.loc).filter (isDir s r)))

/-- The files of a directory, in order. -/
def filesIn (r : Room) : List String :=
  sortTexts ((s.fs.namesIn r.loc).filter fun n => !isDir s r n)

/-- The manifests among names in a directory. -/
def manifestsAmong (directory : Path) (names : List String) : List Path :=
  (names.map fun n => directory / .ofString n).filter (isManifest s.suffixes)

/-- The manifests of the directories that have been entered, the newest first. -/
def foundIn (rooms : List Room) : List Path :=
  rooms.flatMap fun r => (manifestsAmong s (.ofString r.path) (filesIn s r)).reverse

/-! ### Walks -/

/-- A directory to come to, with the number of levels that are left from it on. -/
structure Ahead where
  levels : Nat
  path : String
  deriving DecidableEq

/-- At first the root is to come to, with all levels. -/
def fromRoot : List Ahead := [⟨maxLevels, s.root.text⟩]

/-- The directories to come to from a directory, for which so many levels are left. -/
def aheadOf (levels : Nat) (r : Room) : List Ahead :=
  (directoriesIn s r).map fun n => ⟨levels, below r.path n⟩

inductive Ending where
  | complete
  | full
  | unlisted (directory : String)
  /-- No level is left for a directory. -/
  | deep

/-- A walk that comes to the listed directories, with the directories that have been entered
    before it and after it. -/
inductive Walks : List Ahead → List Room → List Room → Ending → Prop where
  | done {rooms : List Room} : Walks [] rooms rooms .complete
  | deep {d : String} {todo : List Ahead} {rooms : List Room} :
    Walks (⟨0, d⟩ :: todo) rooms rooms .deep
  | unlisted {levels : Nat} {d : String} {todo : List Ahead} {rooms : List Room} {f : Fault}
    (h : s.fs.listDirectory d = .error f) :
    Walks (⟨levels + 1, d⟩ :: todo) rooms rooms (.unlisted d)
  | again {levels : Nat} {d : String} {todo : List Ahead} {names : List String}
    {rooms rooms' : List Room} {e : Ending} {here : Location}
    (h : s.fs.listDirectory d = .ok (here, names)) (hmem : here ∈ rooms.map (·.loc))
    (hw : Walks todo rooms rooms' e) : Walks (⟨levels + 1, d⟩ :: todo) rooms rooms' e
  | full {levels : Nat} {d : String} {todo : List Ahead} {names : List String}
    {rooms : List Room} {here : Location}
    (h : s.fs.listDirectory d = .ok (here, names)) (hnew : here ∉ rooms.map (·.loc))
    (hfull : s.most.toNat < (foundIn s (⟨d, here⟩ :: rooms)).length) :
    Walks (⟨levels + 1, d⟩ :: todo) rooms (⟨d, here⟩ :: rooms) .full
  | enter {levels : Nat} {d : String} {todo : List Ahead} {names : List String}
    {rooms rooms' : List Room} {e : Ending} {here : Location}
    (h : s.fs.listDirectory d = .ok (here, names)) (hnew : here ∉ rooms.map (·.loc))
    (hroom : (foundIn s (⟨d, here⟩ :: rooms)).length ≤ s.most.toNat)
    (hw : Walks (aheadOf s levels ⟨d, here⟩ ++ todo) (⟨d, here⟩ :: rooms) rooms' e) :
    Walks (⟨levels + 1, d⟩ :: todo) rooms rooms' e

end

variable {s : Search} {todo todo' as : List Ahead} {rooms rooms' rooms₁ : List Room}
  {e e' : Ending} {d : String} {levels : Nat}

/-- New directories are put in front. -/
theorem Walks.suffix (h : Walks s todo rooms rooms' e) : rooms <:+ rooms' := by
  induction h with
  | done | deep | unlisted => exact List.suffix_refl _
  | again _ _ _ ih => exact ih
  | full => exact List.suffix_cons _ _
  | enter _ _ _ _ ih => exact (List.suffix_cons _ _).trans ih

theorem Walks.unlisted_inv {f : Fault} (h : Walks s (⟨levels + 1, d⟩ :: todo) rooms rooms' e)
    (hlist : s.fs.listDirectory d = .error f) : rooms' = rooms ∧ e = .unlisted d := by
  cases h with
  | unlisted => exact ⟨rfl, rfl⟩
  | again hlist' | full hlist' | enter hlist' =>
    rw [hlist] at hlist'
    cases hlist'

section

variable {here : Location} {names : List String}

theorem Walks.again_inv (h : Walks s (⟨levels + 1, d⟩ :: todo) rooms rooms' e)
    (hlist : s.fs.listDirectory d = .ok (here, names)) (hmem : here ∈ rooms.map (·.loc)) :
    Walks s todo rooms rooms' e := by
  cases h with
  | unlisted hlist' =>
    rw [hlist] at hlist'
    cases hlist'
  | again _ _ hw => exact hw
  | full hlist' hnew | enter hlist' hnew =>
    rw [hlist] at hlist'
    cases hlist'
    exact absurd hmem hnew

/-- A new directory is entered, and its manifests are too many, or the walk goes on. -/
theorem Walks.new_inv (h : Walks s (⟨levels + 1, d⟩ :: todo) rooms rooms' e)
    (hlist : s.fs.listDirectory d = .ok (here, names)) (hnew : here ∉ rooms.map (·.loc)) :
    (s.most.toNat < (foundIn s (⟨d, here⟩ :: rooms)).length ∧
      rooms' = ⟨d, here⟩ :: rooms ∧ e = .full) ∨
    ((foundIn s (⟨d, here⟩ :: rooms)).length ≤ s.most.toNat ∧
      Walks s (aheadOf s levels ⟨d, here⟩ ++ todo) (⟨d, here⟩ :: rooms) rooms' e) := by
  cases h with
  | unlisted hlist' =>
    rw [hlist] at hlist'
    cases hlist'
  | again hlist' hmem =>
    rw [hlist] at hlist'
    cases hlist'
    exact absurd hmem hnew
  | full hlist' _ hfull =>
    rw [hlist] at hlist'
    cases hlist'
    exact .inl ⟨hfull, rfl, rfl⟩
  | enter hlist' _ hroom hw =>
    rw [hlist] at hlist'
    cases hlist'
    exact .inr ⟨hroom, hw⟩

end

/-- **A walk has one end only.** -/
theorem Walks.unique (h : Walks s todo rooms rooms' e) {rooms'' : List Room}
    (h' : Walks s todo rooms rooms'' e') : rooms' = rooms'' ∧ e = e' := by
  induction h with
  | done | deep =>
    cases h'
    exact ⟨rfl, rfl⟩
  | unlisted hlist =>
    obtain ⟨rfl, rfl⟩ := h'.unlisted_inv hlist
    exact ⟨rfl, rfl⟩
  | again hlist hmem _ ih => exact ih (h'.again_inv hlist hmem)
  | full hlist hnew hfull =>
    rcases h'.new_inv hlist hnew with ⟨-, rfl, rfl⟩ | ⟨hroom, -⟩
    · exact ⟨rfl, rfl⟩
    · exact absurd hfull (Nat.not_lt.2 hroom)
  | enter hlist hnew hroom _ ih =>
    rcases h'.new_inv hlist hnew with ⟨hfull, -, -⟩ | ⟨-, hw⟩
    · exact absurd hfull (Nat.not_lt.2 hroom)
    · exact ih hw

theorem forall_mem_aheadOf {P : Ahead → Prop} {r : Room} :
    (∀ a ∈ aheadOf s levels r, P a) ↔
      ∀ n ∈ directoriesIn s r, P ⟨levels, Manifest.below r.path n⟩ :=
  List.forall_mem_map

/-- A walk that is complete goes on with the directories behind. -/
theorem Walks.append (h : Walks s as rooms rooms₁ .complete) (h' : Walks s todo rooms₁ rooms' e) :
    Walks s (as ++ todo) rooms rooms' e := by
  generalize hcomplete : Ending.complete = c at h
  induction h with
  | done => exact h'
  | deep | unlisted | full => cases hcomplete
  | again hlist hmem _ ih => exact .again hlist hmem (ih h' hcomplete)
  | enter hlist hnew hroom _ ih =>
    have hon := ih h' hcomplete
    rw [List.append_assoc] at hon
    exact .enter hlist hnew hroom hon

/-- A walk that breaks off does not come to the directories behind. -/
theorem Walks.breakOff (h : Walks s as rooms rooms' e) (he : e ≠ .complete) :
    Walks s (as ++ todo) rooms rooms' e := by
  induction h with
  | done => exact absurd rfl he
  | deep => exact .deep
  | unlisted hlist => exact .unlisted hlist
  | again hlist hmem _ ih => exact .again hlist hmem (ih he)
  | full hlist hnew hfull => exact .full hlist hnew hfull
  | enter hlist hnew hroom _ ih =>
    have hon := ih he
    rw [List.append_assoc] at hon
    exact .enter hlist hnew hroom hon

/-- **Which names are manifests, and how many there may be, does not show the way.**  A walk
    with other suffixes and another limit goes the way of a complete one, or a part of it. -/
theorem Walks.compare (h : Walks s todo rooms rooms₁ e) (he : e = .complete)
    {suffixes : List Text.CodeText} {most : Int}
    (h' : Walks { s with suffixes, most } todo rooms rooms' e') :
    (e' = .complete ∧ rooms' = rooms₁) ∨ (e' = .full ∧ rooms' <:+ rooms₁) := by
  induction h with
  | done =>
    cases h'
    exact .inl ⟨rfl, rfl⟩
  | deep | unlisted | full => cases he
  | again hlist hmem _ ih => exact ih he (h'.again_inv hlist hmem)
  | enter hlist hnew _ hw ih =>
    rcases h'.new_inv hlist hnew with ⟨-, rfl, rfl⟩ | ⟨-, hw'⟩
    · exact .inr ⟨rfl, hw.suffix⟩
    · exact ih he hw'

/-! ### Levels -/

/-- The same directories in the same order, each with as many levels left or more. -/
def NoFewerLevels (todo todo' : List Ahead) : Prop :=
  List.Forall₂ (fun a b => a.levels ≤ b.levels ∧ a.path = b.path) todo todo'

theorem NoFewerLevels.cons_inv (h : NoFewerLevels (⟨levels + 1, d⟩ :: todo) todo') :
    ∃ levels' rest, levels ≤ levels' ∧ NoFewerLevels todo rest ∧
      todo' = ⟨levels' + 1, d⟩ :: rest := by
  obtain ⟨⟨more, d'⟩, rest, ⟨hle, rfl⟩, hrest, rfl⟩ := List.forall₂_cons_left_iff.1 h
  dsimp only at hle
  obtain ⟨levels', rfl⟩ := Nat.exists_eq_add_one.2 (Nat.lt_of_lt_of_le (Nat.succ_pos _) hle)
  exact ⟨levels', rest, Nat.le_of_succ_le_succ hle, hrest, rfl⟩

theorem NoFewerLevels.aheadOf_append {levels' : Nat} (hle : levels ≤ levels') (r : Room)
    (h : NoFewerLevels todo todo') :
    NoFewerLevels (aheadOf s levels r ++ todo) (aheadOf s levels' r ++ todo') := by
  unfold aheadOf
  induction directoriesIn s r with
  | nil => exact h
  | cons n rest ih => exact .cons ⟨hle, rfl⟩ ih

/-- **More levels make no difference**, unless none is left for a directory. -/
theorem Walks.of_le (h : Walks s todo rooms rooms' e) (he : e ≠ .deep)
    (hle : NoFewerLevels todo todo') : Walks s todo' rooms rooms' e := by
  induction h generalizing todo' with
  | done =>
    cases hle
    exact .done
  | deep => exact absurd rfl he
  | unlisted hlist =>
    obtain ⟨levels', rest, -, -, rfl⟩ := hle.cons_inv
    exact .unlisted hlist
  | again hlist hmem _ ih =>
    obtain ⟨levels', rest, -, hrest, rfl⟩ := hle.cons_inv
    exact .again hlist hmem (ih he hrest)
  | full hlist hnew hfull =>
    obtain ⟨levels', rest, -, -, rfl⟩ := hle.cons_inv
    exact .full hlist hnew hfull
  | enter hlist hnew hroom _ ih =>
    obtain ⟨levels', rest, hlevels, hrest, rfl⟩ := hle.cons_inv
    exact .enter hlist hnew hroom (ih he (hrest.aheadOf_append hlevels _))

/-! ### What a walk keeps -/

/-- The number of manifests is kept within its limit, unless the walk ends for it. -/
theorem Walks.length_foundIn_le (h : Walks s todo rooms rooms' e) (he : e ≠ .full)
    (hroom : (foundIn s rooms).length ≤ s.most.toNat) :
    (foundIn s rooms').length ≤ s.most.toNat := by
  induction h with
  | done | deep | unlisted => exact hroom
  | again _ _ _ ih => exact ih he hroom
  | full => exact absurd rfl he
  | enter _ _ hroom' _ ih => exact ih he hroom'

theorem Walks.lt_length_foundIn (h : Walks s todo rooms rooms' e) (he : e = .full) :
    s.most.toNat < (foundIn s rooms').length := by
  induction h with
  | done | deep | unlisted => cases he
  | again _ _ _ ih => exact ih he
  | full _ _ hfull => exact hfull
  | enter _ _ _ _ ih => exact ih he

variable (s) in
/-- Directories, of which none has been entered twice. -/
structure Distinct (rooms : List Room) : Prop where
  nodup : (rooms.map (·.loc)).Nodup
  directory : ∀ r ∈ rooms, s.fs.entryAt? r.loc = some .directory

theorem distinct_nil : Distinct s [] := ⟨.nil, nofun⟩

theorem Distinct.cons (hfs : s.fs.WellFormed) {here : Location} {names : List String}
    (h : Distinct s rooms) (hlist : s.fs.listDirectory d = .ok (here, names))
    (hnew : here ∉ rooms.map (·.loc)) : Distinct s (⟨d, here⟩ :: rooms) where
  nodup := List.nodup_cons.2 ⟨hnew, h.nodup⟩
  directory := by
    rw [List.forall_mem_cons]
    exact ⟨entryAt_of_find hfs (listDirectory_eq_ok.1 hlist).1, h.directory⟩

/-- **No directory is entered twice.** -/
theorem Walks.distinct (hfs : s.fs.WellFormed) (h : Walks s todo rooms rooms' e)
    (hrooms : Distinct s rooms) : Distinct s rooms' := by
  induction h with
  | done | deep | unlisted => exact hrooms
  | again _ _ _ ih => exact ih hrooms
  | full hlist hnew => exact hrooms.cons hfs hlist hnew
  | enter hlist hnew _ _ ih => exact ih (hrooms.cons hfs hlist hnew)

/-- There are no more directories than entries, and the root directory. -/
theorem Distinct.length_le (h : Distinct s rooms) : rooms.length ≤ s.fs.entries.length + 1 := by
  have hsubset : rooms.map (·.loc) ⊆ [] :: s.fs.entries.map (·.1.reverse) := by
    intro loc hloc
    obtain ⟨r, hr, rfl⟩ := List.mem_map.1 hloc
    by_cases hroot : r.loc = []
    · rw [hroot]
      exact List.mem_cons_self
    · refine List.mem_cons_of_mem _ (List.mem_map.2
        ⟨_, mem_entries_of_entryAt hroot (h.directory r hr), ?_⟩)
      exact List.reverse_reverse _
  have hlength := (h.nodup.subperm hsubset).length_le
  simpa using hlength

/-- As many levels as there can be directories to enter, and one more. -/
def enoughLevels (fs : FileSystem) : Nat := fs.entries.length + 2

/-- **Enough levels are never too few.**  A level is used up only by entering a directory. -/
theorem Walks.ne_deep (hfs : s.fs.WellFormed) (h : Walks s todo rooms rooms' e)
    (hrooms : Distinct s rooms)
    (htodo : ∀ a ∈ todo, s.fs.entries.length + 1 < a.levels + rooms.length) : e ≠ .deep := by
  induction h with
  | done | unlisted | full => nofun
  | deep =>
    have hlength := hrooms.length_le
    have hlevels := htodo _ List.mem_cons_self
    dsimp only at hlevels
    omega
  | again _ _ _ ih => exact ih hrooms fun a ha => htodo a (List.mem_cons_of_mem _ ha)
  | enter hlist hnew _ _ ih =>
    rw [List.forall_mem_cons] at htodo
    obtain ⟨hlevels, htodo⟩ := htodo
    refine ih (hrooms.cons hfs hlist hnew) ?_
    rw [List.forall_mem_append, List.length_cons]
    rw [forall_mem_aheadOf]
    dsimp only at hlevels ⊢
    refine ⟨fun n _ => by omega, fun a ha => ?_⟩
    have ha' := htodo a ha
    omega

/-! ### The search by levels -/

theorem appends_listing (s : Search) (d : String) : (listing s d).Appends := by
  unfold listing
  cases s.fs.listDirectory d with
  | ok l => exact Traced.appends_pure l
  | error f => exact Run.appends_raise _

theorem appends_addManifests (s : Search) (directory : Path) (names : List String)
    (found : List Path) : (addManifests s directory names found).Appends := by
  induction names generalizing found with
  | nil => exact Traced.appends_pure found
  | cons n rest ih =>
    unfold addManifests
    by_cases hmanifest : isManifest s.suffixes (directory / .ofString n)
    · by_cases hfull : s.most < (found.length : Int) + 1
      · simp only [hmanifest, hfull, if_true]
        exact Run.appends_raise _
      · simp only [hmanifest, hfull, if_true, if_false]
        exact ih _
    · simp only [hmanifest]
      exact ih _

/-- The error of too many manifests. -/
def tooMany (s : Search) : Error := .tooManyManifests s.root.text s.most

/-- **The manifests of a directory** are added to those that have been found, if there are
    not too many. -/
theorem outcome_addManifests (directory : Path) (names : List String) {found : List Path}
    (hroom : found.length ≤ s.most.toNat) :
    (addManifests s directory names found).outcome =
      if s.most.toNat < ((manifestsAmong s directory names).reverse ++ found).length then
        .error (.error (tooMany s))
      else .ok ((manifestsAmong s directory names).reverse ++ found) := by
  induction names generalizing found with
  | nil =>
    change _ = if s.most.toNat < found.length then _ else _
    rw [if_neg (Nat.not_lt.2 hroom)]
    rfl
  | cons n rest ih =>
    unfold addManifests
    by_cases hmanifest : isManifest s.suffixes (directory / .ofString n)
    · have hamong : manifestsAmong s directory (n :: rest) =
          (directory / .ofString n) :: manifestsAmong s directory rest :=
        List.filter_cons_of_pos hmanifest
      have happend : (manifestsAmong s directory (n :: rest)).reverse ++ found =
          (manifestsAmong s directory rest).reverse ++ (directory / .ofString n) :: found := by
        rw [hamong, List.reverse_cons, List.append_assoc]
        rfl
      rw [happend]
      simp only [hmanifest, if_true]
      by_cases hfull : s.most < (found.length : Int) + 1
      · have hmore : s.most.toNat < ((manifestsAmong s directory rest).reverse ++
            (directory / .ofString n) :: found).length := by
          rw [List.length_append, List.length_cons]
          omega
        rw [if_pos hfull, if_pos hmore]
        exact Run.outcome_raise _
      · rw [if_neg hfull]
        refine ih ?_
        rw [List.length_cons]
        omega
    · have hamong : manifestsAmong s directory (n :: rest) = manifestsAmong s directory rest :=
        List.filter_cons_of_neg hmanifest
      rw [hamong]
      simp only [hmanifest]
      exact ih hroom

/-- What is done in a directory that has been listed. -/
def enter (s : Search) (levels : Nat) (d : String) (progress : Progress)
    (l : Location × List String) : Run Progress := do
  if progress.entered.contains l.1.reverse then
    Traced.log (repeatedEvent d)
    pure progress
  else
    let isDir := fun n => s.fs.isDirectoryEntry l.1 (below d n) n
    let files := l.2.filter fun n => !isDir n
    let found ← addManifests s (.ofString d) (sortTexts files) progress.found
    let dirs := onward s l.1 (sortTexts (l.2.filter isDir))
    dirs.foldlM (fun progress n => visit s levels (below d n) progress)
      ⟨l.1.reverse :: progress.entered, found⟩

theorem visit_succ (s : Search) (levels : Nat) (d : String) (progress : Progress) :
    visit s (levels + 1) d progress = listing s d >>= enter s levels d progress := rfl

theorem appends_enter {levels : Nat} (hvisit : ∀ d progress, (visit s levels d progress).Appends)
    (d : String) (progress : Progress) (l : Location × List String) :
    (enter s levels d progress l).Appends := by
  unfold enter
  by_cases hmem : progress.entered.contains l.1.reverse
  · simp only [hmem, if_true]
    exact Traced.appends_bind (Traced.appends_log _) fun _ => Traced.appends_pure _
  · simp only [hmem]
    exact Traced.appends_bind (appends_addManifests s _ _ _)
      fun _ => Traced.appends_foldlM (fun _ _ => hvisit _ _) _ _

theorem appends_visit (s : Search) (levels : Nat) (d : String) (progress : Progress) :
    (visit s levels d progress).Appends := by
  induction levels generalizing d progress with
  | zero => exact Traced.appends_throw _
  | succ levels ih =>
    rw [visit_succ]
    exact Traced.appends_bind (appends_listing s d) (appends_enter ih d progress)

theorem outcome_visit_error {levels : Nat} {progress : Progress} {f : Fault}
    (h : s.fs.listDirectory d = .error f) :
    (visit s (levels + 1) d progress).outcome = .error (.error (unlistable d)) := by
  rw [visit_succ, Traced.outcome_bind (appends_enter (appends_visit s levels) d progress)]
  unfold listing
  rw [h]
  dsimp only
  rw [Run.outcome_raise]
  rfl

theorem outcome_visit_ok {levels : Nat} {progress : Progress} {l : Location × List String}
    (h : s.fs.listDirectory d = .ok l) :
    (visit s (levels + 1) d progress).outcome = (enter s levels d progress l).outcome := by
  rw [visit_succ, Traced.outcome_bind (appends_enter (appends_visit s levels) d progress)]
  unfold listing
  rw [h]
  rfl

/-- The progress of a search that has entered some directories. -/
def progressOf (s : Search) (rooms : List Room) : Progress :=
  ⟨rooms.map (·.loc.reverse), foundIn s rooms⟩

theorem contains_entered {here : Location} :
    (progressOf s rooms).entered.contains here.reverse = true ↔ here ∈ rooms.map (·.loc) := by
  change (rooms.map (·.loc.reverse)).contains here.reverse = true ↔ _
  rw [List.contains_iff_mem, List.mem_map, List.mem_map]
  simp only [List.reverse_inj]

/-- What a search ends in after a walk. -/
def result (s : Search) (rooms : List Room) : Ending → Except Failure Progress
  | .complete => .ok (progressOf s rooms)
  | .full => .error (.error (tooMany s))
  | .unlisted d => .error (.error (unlistable d))
  | .deep => .error .tooDeep

theorem outcome_enter_again {levels : Nat} {here : Location} {names : List String}
    (h : here ∈ rooms.map (·.loc)) :
    (enter s levels d (progressOf s rooms) (here, names)).outcome = .ok (progressOf s rooms) := by
  have hmem : (progressOf s rooms).entered.contains here.reverse = true := contains_entered.2 h
  unfold enter
  simp only [hmem, if_true]
  rfl

/-- **A directory that is new**: its manifests are found, and then its directories entered. -/
theorem outcome_enter_new {levels : Nat} {here : Location} (h : here ∉ rooms.map (·.loc))
    (hroom : (foundIn s rooms).length ≤ s.most.toNat) :
    (enter s levels d (progressOf s rooms) (here, s.fs.namesIn here)).outcome =
      if s.most.toNat < (foundIn s (⟨d, here⟩ :: rooms)).length then
        .error (.error (tooMany s))
      else
        (directoriesIn s ⟨d, here⟩).foldlM
          (fun progress n => (visit s levels (below d n) progress).outcome)
          (progressOf s (⟨d, here⟩ :: rooms)) := by
  have hmem : (progressOf s rooms).entered.contains here.reverse = false := by
    rw [Bool.eq_false_iff]
    exact mt contains_entered.1 h
  have hfound : foundIn s (⟨d, here⟩ :: rooms) =
      (manifestsAmong s (.ofString d) (filesIn s ⟨d, here⟩)).reverse ++ foundIn s rooms :=
    List.flatMap_cons
  unfold enter
  simp only [hmem, Bool.false_eq_true, if_false]
  rw [Traced.outcome_bind fun _ => Traced.appends_foldlM (fun _ _ => appends_visit s _ _ _) _ _]
  have hadd := outcome_addManifests (.ofString d) (filesIn s ⟨d, here⟩) hroom
  rw [← hfound] at hadd
  change ((addManifests s (.ofString d) (filesIn s ⟨d, here⟩) (foundIn s rooms)).outcome.bind
    fun found => _) = _
  rw [hadd]
  by_cases hfull : s.most.toNat < (foundIn s (⟨d, here⟩ :: rooms)).length
  · rw [if_pos hfull, if_pos hfull]
    rfl
  · rw [if_neg hfull, if_neg hfull]
    exact Traced.outcome_foldlM (fun _ _ => appends_visit s _ _ _) _ _

/-- The directories of a directory, one after the other. -/
theorem exists_walks_each {r : Room}
    (hvisit : ∀ d rooms, (foundIn s rooms).length ≤ s.most.toNat →
      ∃ rooms' e, Walks s [⟨levels, d⟩] rooms rooms' e ∧
        (visit s levels d (progressOf s rooms)).outcome = result s rooms' e)
    (names : List String) (hroom : (foundIn s rooms).length ≤ s.most.toNat) :
    ∃ rooms' e, Walks s (names.map fun n => ⟨levels, below r.path n⟩) rooms rooms' e ∧
      names.foldlM (fun progress n => (visit s levels (below r.path n) progress).outcome)
        (progressOf s rooms) = result s rooms' e := by
  induction names generalizing rooms with
  | nil => exact ⟨rooms, .complete, .done, rfl⟩
  | cons n rest ih =>
    obtain ⟨rooms₁, e₁, hw₁, houtcome₁⟩ := hvisit (below r.path n) rooms hroom
    rw [List.map_cons, List.foldlM_cons, houtcome₁]
    cases e₁ with
    | complete =>
      obtain ⟨rooms₂, e₂, hw₂, houtcome₂⟩ := ih (hw₁.length_foundIn_le nofun hroom)
      exact ⟨rooms₂, e₂, hw₁.append hw₂, houtcome₂⟩
    | full => exact ⟨rooms₁, .full, hw₁.breakOff nofun, rfl⟩
    | unlisted d' => exact ⟨rooms₁, .unlisted d', hw₁.breakOff nofun, rfl⟩
    | deep => exact ⟨rooms₁, .deep, hw₁.breakOff nofun, rfl⟩

/-- **The search by levels does what the walk does.** -/
theorem exists_walks_visit (levels : Nat) (d : String)
    (hroom : (foundIn s rooms).length ≤ s.most.toNat) :
    ∃ rooms' e, Walks s [⟨levels, d⟩] rooms rooms' e ∧
      (visit s levels d (progressOf s rooms)).outcome = result s rooms' e := by
  induction levels generalizing d rooms with
  | zero => exact ⟨rooms, .deep, .deep, rfl⟩
  | succ levels ih =>
    cases hlist : s.fs.listDirectory d with
    | error f => exact ⟨rooms, .unlisted d, .unlisted hlist, outcome_visit_error hlist⟩
    | ok l =>
      obtain ⟨here, names⟩ := l
      obtain ⟨hfind, rfl⟩ := listDirectory_eq_ok.1 hlist
      rw [outcome_visit_ok hlist]
      by_cases hmem : here ∈ rooms.map (·.loc)
      · exact ⟨rooms, .complete, .again hlist hmem .done, outcome_enter_again hmem⟩
      rw [outcome_enter_new hmem hroom]
      by_cases hfull : s.most.toNat < (foundIn s (⟨d, here⟩ :: rooms)).length
      · rw [if_pos hfull]
        exact ⟨_, .full, .full hlist hmem hfull, rfl⟩
      · rw [if_neg hfull]
        obtain ⟨rooms', e, hw, houtcome⟩ := exists_walks_each (r := ⟨d, here⟩)
          (fun d _ => ih d) (directoriesIn s ⟨d, here⟩) (Nat.not_lt.1 hfull)
        refine ⟨rooms', e, .enter hlist hmem (Nat.not_lt.1 hfull) ?_, houtcome⟩
        rw [List.append_nil]
        exact hw

theorem result_eq_tooDeep : result s rooms e = .error .tooDeep ↔ e = .deep := by
  cases e <;> simp [result]

/-- **Deeper levels make no difference**, where the search is not too deep. -/
theorem outcome_visit_of_le {levels' : Nat} (hle : levels ≤ levels') (d : String)
    (hdeep : (visit s levels d ⟨[], []⟩).outcome ≠ .error .tooDeep) :
    (visit s levels' d ⟨[], []⟩).outcome = (visit s levels d ⟨[], []⟩).outcome := by
  have hroom : (foundIn s []).length ≤ s.most.toNat := Nat.zero_le _
  obtain ⟨rooms, e, hw, houtcome⟩ := exists_walks_visit levels d hroom
  obtain ⟨rooms', e', hw', houtcome'⟩ := exists_walks_visit levels' d hroom
  have he : e ≠ .deep := fun h => hdeep (houtcome.trans (result_eq_tooDeep.2 h))
  have hmore : NoFewerLevels [⟨levels, d⟩] [⟨levels', d⟩] := .cons ⟨hle, rfl⟩ .nil
  obtain ⟨rfl, rfl⟩ := (hw.of_le he hmore).unique hw'
  exact houtcome'.trans houtcome.symm

/-- **With enough levels the search is not too deep.** -/
theorem outcome_visit_ne_tooDeep (hfs : s.fs.WellFormed) (hle : enoughLevels s.fs ≤ levels)
    (d : String) : (visit s levels d ⟨[], []⟩).outcome ≠ .error .tooDeep := by
  have hroom : (foundIn s []).length ≤ s.most.toNat := Nat.zero_le _
  obtain ⟨rooms, e, hw, houtcome⟩ := exists_walks_visit levels d hroom
  have he : e ≠ .deep := by
    refine hw.ne_deep hfs distinct_nil ?_
    rw [List.forall_mem_singleton]
    exact hle
  exact fun h => he (result_eq_tooDeep.1 (houtcome.symm.trans h))

end WorkflowCatalog.Manifest
