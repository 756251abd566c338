/-
  WorkflowCatalog/Proofs/Discovery.lean
  =====================================
  **A search finds every manifest once.**  The manifests of a tree are the pairs of a real
  directory that can be reached from the root and of a name in it that is no directory and
  has the suffix of a manifest (`manifests`).  A search lists one path for each of them, in
  ascending order, and nothing else (`Lists`); where there are too many it ends with an
  error.  This does not depend on the order of the entries.

  It is so under one condition.  A name is tested under the path by which the search has come
  to its directory.  That path may follow links, and with the links of the name they may be
  too many, or the path may be too long; then a directory is taken for a file.  It is not
  entered, and when the directory in which it stands is met again by a better path, it has
  been entered before (`LosesNoLink`).

  Main statement: a walk that loses no link finds the manifests of its tree, unless it comes
  to a directory that cannot be listed or for which no level is left
  (`findsManifests_of_walks`).
-/
import Mathlib.Data.Finset.Card
import Mathlib.Data.Set.Finite.Basic
import Mathlib.Data.Set.List
import WorkflowCatalog.Proofs.Reordering
import WorkflowCatalog.Proofs.Sorting

namespace WorkflowCatalog.Manifest

open FileSystem

/-! ### The manifests of a tree -/

section

variable (s : Search)

/-- The real directories that can be reached: the root, and from one that can be reached the
    directories that its names lead to, by a link only if links are followed. -/
inductive Reaches : Location → Prop where
  | root {loc : Location} (h : s.fs.find true s.root.text = .ok (loc, .directory)) : Reaches loc
  | step {dir loc : Location} {n : String} (h : Reaches dir) (hn : n ∈ s.fs.namesIn dir)
    (hlink : s.followLinks = true ∨ s.fs.isLinkEntry dir n = false)
    (hleads : s.fs.directoryAt? dir n = some loc) : Reaches loc

/-- The manifests of a tree, by real directory and file name. -/
def manifests : Set (Location × String) :=
  {m | Reaches s m.1 ∧ m.2 ∈ s.fs.namesIn m.1 ∧ s.fs.directoryAt? m.1 m.2 = none ∧
    isManifest s.suffixes (.ofString m.2) = true}

/-- The real directory of a path, and its file name. -/
def placeOf? (fs : FileSystem) (p : Path) : Option (Location × String) :=
  match fs.find true p.parent.text with
  | .ok (loc, .directory) => some (loc, p.name)
  | _ => none

/-- The paths lead to the manifests of the tree, each to its own. -/
structure Lists (ps : List Path) : Prop where
  ascending : ps.Pairwise fun p q => p.text < q.text
  sound : ∀ p ∈ ps, ∃ m ∈ manifests s, placeOf? s.fs p = some m
  complete : ∀ m ∈ manifests s, ∃! p, p ∈ ps ∧ placeOf? s.fs p = some m

/-- The search ends with the manifests of its tree, or with an error if they are too many. -/
structure FindsManifests : Prop where
  finite : (manifests s).Finite
  tooMany : s.most < (finite.toFinset.card : Int) →
    (discover s).outcome = .error (.error (tooMany s))
  lists : (finite.toFinset.card : Int) ≤ s.most →
    ∃ ps, (discover s).outcome = .ok ps ∧ Lists s ps

/-- In no directory that is entered, a name that leads to a directory is taken for a file. -/
def LosesNoLink : Prop :=
  ∀ rooms e, Walks s (fromRoot s) [] rooms e → ∀ r ∈ rooms, ∀ n ∈ s.fs.namesIn r.loc,
    s.fs.directoryAt? r.loc n ≠ none → isDir s r n = true

/-- The search comes to a directory for which no level is left. -/
def IsTooDeep : Prop := ∃ rooms, Walks s (fromRoot s) [] rooms .deep

end

variable {s : Search} {todo : List Ahead} {rooms rooms' : List Room} {e : Ending} {d n : String}
  {r : Room} {p : Path}

/-! ### Entered directories -/

theorem mem_sortTexts {t : String} {ts : List String} : t ∈ sortTexts ts ↔ t ∈ ts :=
  (sortBy_perm id ts).mem_iff

theorem mem_filesIn : n ∈ filesIn s r ↔ n ∈ s.fs.namesIn r.loc ∧ isDir s r n = false := by
  unfold filesIn
  rw [mem_sortTexts, List.mem_filter]
  simp

theorem mem_directoriesIn :
    n ∈ directoriesIn s r ↔ (n ∈ s.fs.namesIn r.loc ∧ isDir s r n = true) ∧
      (s.followLinks = true ∨ s.fs.isLinkEntry r.loc n = false) := by
  unfold directoriesIn onward
  cases s.followLinks with
  | true => simp [mem_sortTexts]
  | false => simp [mem_sortTexts]

variable (s) in
/-- A directory that has been entered stands where its text leads, and can be reached. -/
structure Entered (r : Room) : Prop where
  isTextOf : IsTextOf r.path (.ofString r.path)
  find : s.fs.find true r.path = .ok (r.loc, .directory)
  reaches : Reaches s r.loc

variable (s) in
/-- If the text leads to a directory, it can be entered. -/
def CanEnter (d : String) : Prop :=
  ∀ here, s.fs.find true d = .ok (here, .directory) → Entered s ⟨d, here⟩

theorem canEnter_root : CanEnter s s.root.text := by
  intro here hfind
  have htext : IsTextOf s.root.text s.root := .plain _
  refine ⟨?_, hfind, .root hfind⟩
  rw [htext.ofString_eq]
  exact htext

/-- **From directory to directory.** -/
theorem Entered.canEnter (hfs : s.fs.WellFormed) (h : Entered s r) (hn : n ∈ directoriesIn s r) :
    CanEnter s (below r.path n) := by
  intro here hfind
  obtain ⟨⟨hname, -⟩, hlink⟩ := mem_directoriesIn.1 hn
  have hentry := isEntryName_of_mem_namesIn hfs hname
  have htext := h.isTextOf.below hentry.isName
  refine ⟨?_, hfind, ?_⟩
  · rw [htext.ofString_eq]
    exact htext
  · exact h.reaches.step hname hlink
      (directoryAt_of_find_below h.isTextOf h.find hentry.isName hfind)

/-- **What passes on from directory to directory** holds of all that are entered, and of all
    that are come to. -/
theorem Walks.forall_rooms {Q : Ahead → Prop} {P : Room → Prop}
    (h : Walks s todo rooms rooms' e)
    (hstep : ∀ levels d here, Q ⟨levels + 1, d⟩ → s.fs.find true d = .ok (here, .directory) →
      P ⟨d, here⟩ ∧ ∀ n ∈ directoriesIn s ⟨d, here⟩, Q ⟨levels, Manifest.below d n⟩)
    (htodo : ∀ a ∈ todo, Q a) (hrooms : ∀ r ∈ rooms, P r) :
    (∀ r ∈ rooms', P r) ∧ (e = .deep → ∃ d, Q ⟨0, d⟩) := by
  induction h with
  | done | unlisted => exact ⟨hrooms, nofun⟩
  | deep => exact ⟨hrooms, fun _ => ⟨_, htodo _ List.mem_cons_self⟩⟩
  | again _ _ _ ih => exact ih (fun a ha => htodo a (List.mem_cons_of_mem _ ha)) hrooms
  | full hlist =>
    rw [List.forall_mem_cons] at htodo ⊢
    exact ⟨⟨(hstep _ _ _ htodo.1 (listDirectory_eq_ok.1 hlist).1).1, hrooms⟩, nofun⟩
  | enter hlist _ _ _ ih =>
    rw [List.forall_mem_cons] at htodo
    obtain ⟨hnew, hahead⟩ := hstep _ _ _ htodo.1 (listDirectory_eq_ok.1 hlist).1
    refine ih ?_ ?_
    · rw [List.forall_mem_append, forall_mem_aheadOf]
      exact ⟨hahead, htodo.2⟩
    · rw [List.forall_mem_cons]
      exact ⟨hnew, hrooms⟩

theorem Walks.entered (hfs : s.fs.WellFormed) (h : Walks s todo rooms rooms' e)
    (htodo : ∀ a ∈ todo, CanEnter s a.path) (hrooms : ∀ r ∈ rooms, Entered s r) :
    ∀ r ∈ rooms', Entered s r := by
  refine (h.forall_rooms (Q := fun a => CanEnter s a.path) (P := Entered s) ?_ htodo hrooms).1
  intro levels d here hcan hfind
  have hentered := hcan here hfind
  refine ⟨hentered, fun n hn => ?_⟩
  have hnext := hentered.canEnter hfs hn
  exact hnext

/-- All that a search enters stands where its text leads. -/
theorem entered_fromRoot (hfs : s.fs.WellFormed) (h : Walks s (fromRoot s) [] rooms e) :
    ∀ r ∈ rooms, Entered s r := by
  refine h.entered hfs ?_ nofun
  unfold fromRoot
  rw [List.forall_mem_singleton]
  exact canEnter_root

/-- The directory of a text has been entered. -/
def IsPassed (s : Search) (rooms : List Room) (d : String) : Prop :=
  ∃ r ∈ rooms, s.fs.find true d = .ok (r.loc, .directory)

/-- **A complete walk leaves nothing out**: all directories that it comes to are entered. -/
theorem Walks.isPassed (h : Walks s todo rooms rooms' e) (he : e = .complete) :
    (∀ a ∈ todo, IsPassed s rooms' a.path) ∧
      ∀ r ∈ rooms', r ∈ rooms ∨
        ∀ n ∈ directoriesIn s r, IsPassed s rooms' (Manifest.below r.path n) := by
  induction h with
  | done => exact ⟨nofun, fun r hr => .inl hr⟩
  | deep | unlisted | full => cases he
  | again hlist hmem hw ih =>
    obtain ⟨htodo, hrooms⟩ := ih he
    refine ⟨?_, hrooms⟩
    rw [List.forall_mem_cons]
    refine ⟨?_, htodo⟩
    obtain ⟨r, hr, hloc⟩ := List.mem_map.1 hmem
    refine ⟨r, hw.suffix.subset hr, ?_⟩
    rw [hloc]
    exact (listDirectory_eq_ok.1 hlist).1
  | enter hlist _ _ hw ih =>
    obtain ⟨htodo, hrooms⟩ := ih he
    rw [List.forall_mem_append, forall_mem_aheadOf] at htodo
    constructor
    · rw [List.forall_mem_cons]
      exact ⟨⟨_, hw.suffix.subset List.mem_cons_self, (listDirectory_eq_ok.1 hlist).1⟩, htodo.2⟩
    · intro r hr
      rcases hrooms r hr with hr | hr
      · rcases List.mem_cons.1 hr with rfl | hr
        · exact .inr htodo.1
        · exact .inl hr
      · exact .inr hr

/-- Every directory that can be reached is entered by a complete walk that loses no link. -/
theorem exists_room_of_reaches (hfs : s.fs.WellFormed) (hlinks : LosesNoLink s)
    (hw : Walks s (fromRoot s) [] rooms .complete) {loc : Location} (h : Reaches s loc) :
    ∃ r ∈ rooms, r.loc = loc := by
  obtain ⟨htodo, hrooms⟩ := hw.isPassed rfl
  have hentered := entered_fromRoot hfs hw
  induction h with
  | root hfind =>
    obtain ⟨r, hr, hfind'⟩ := htodo _ List.mem_cons_self
    rw [hfind] at hfind'
    cases hfind'
    exact ⟨r, hr, rfl⟩
  | @step dir loc n _ hn hlink hleads ih =>
    obtain ⟨r, hr, rfl⟩ := ih
    have hdir : isDir s r n = true := hlinks _ _ hw r hr n hn (by rw [hleads]; nofun)
    obtain ⟨r', hr', hfind⟩ := (hrooms r hr).resolve_left List.not_mem_nil n
      (mem_directoriesIn.2 ⟨⟨hn, hdir⟩, hlink⟩)
    have hname := (isEntryName_of_mem_namesIn hfs hn).isName
    have hleads' := directoryAt_of_find_below (hentered r hr).isTextOf (hentered r hr).find hname
      hfind
    rw [hleads] at hleads'
    cases hleads'
    exact ⟨r', hr', rfl⟩

/-! ### The paths that are found -/

/-- A path is a manifest by its file name. -/
theorem isManifest_join (q : Path) (hn : IsName n) (suffixes : List Text.CodeText) :
    isManifest suffixes (q / Path.ofString n) = isManifest suffixes (.ofString n) := by
  have hname : (Path.ofString n).name = n := by
    rw [Path.ofString_name hn]
    rfl
  unfold isManifest
  rw [name_of_join q hn, hname]

theorem mem_manifestsAmong {q : Path} {names : List String} :
    p ∈ manifestsAmong s q names ↔
      ∃ n ∈ names, p = q / .ofString n ∧ isManifest s.suffixes p = true := by
  unfold manifestsAmong
  rw [List.mem_filter, List.mem_map]
  constructor
  · rintro ⟨⟨n, hn, rfl⟩, hmanifest⟩
    exact ⟨n, hn, rfl, hmanifest⟩
  · rintro ⟨n, hn, rfl, hmanifest⟩
    exact ⟨⟨n, hn, rfl⟩, hmanifest⟩

theorem mem_foundIn :
    p ∈ foundIn s rooms ↔ ∃ r ∈ rooms, ∃ n ∈ filesIn s r,
      p = .ofString r.path / .ofString n ∧ isManifest s.suffixes p = true := by
  unfold foundIn
  simp only [List.mem_flatMap, List.mem_reverse, mem_manifestsAmong]

/-- **The place of a path that is found** is the directory in which it was found. -/
theorem Entered.placeOf (h : Entered s r) (hn : IsName n) :
    placeOf? s.fs (.ofString r.path / .ofString n) = some (r.loc, n) := by
  unfold placeOf?
  rw [parent_of_join _ hn, h.isTextOf.find_text h.find, name_of_join _ hn]

section

variable (hfs : s.fs.WellFormed) (hentered : ∀ r ∈ rooms, Entered s r)

include hfs hentered

theorem placeOf_of_mem_filesIn (hr : r ∈ rooms) (hn : n ∈ filesIn s r) :
    placeOf? s.fs (.ofString r.path / .ofString n) = some (r.loc, n) :=
  (hentered r hr).placeOf (isEntryName_of_mem_namesIn hfs (mem_filesIn.1 hn).1).isName

/-- **What is found is a manifest of the tree**, if no link is lost. -/
theorem mem_manifests_of_mem_foundIn
    (hlinks : ∀ r ∈ rooms, ∀ n ∈ s.fs.namesIn r.loc,
      s.fs.directoryAt? r.loc n ≠ none → isDir s r n = true)
    (hp : p ∈ foundIn s rooms) : ∃ m ∈ manifests s, placeOf? s.fs p = some m := by
  obtain ⟨r, hr, n, hn, rfl, hmanifest⟩ := mem_foundIn.1 hp
  obtain ⟨hname, hfile⟩ := mem_filesIn.1 hn
  refine ⟨(r.loc, n), ⟨(hentered r hr).reaches, hname, ?_, ?_⟩,
    placeOf_of_mem_filesIn hfs hentered hr hn⟩
  · by_contra hleads
    have hdir := hlinks r hr n hname hleads
    rw [hfile] at hdir
    cases hdir
  · rwa [isManifest_join _ (isEntryName_of_mem_namesIn hfs hname).isName] at hmanifest

/-- **A manifest in a directory that is entered is found.** -/
theorem exists_mem_foundIn {m : Location × String} (hm : m ∈ manifests s) (hr : r ∈ rooms)
    (hloc : r.loc = m.1) : ∃ p ∈ foundIn s rooms, placeOf? s.fs p = some m := by
  obtain ⟨loc, n⟩ := m
  obtain ⟨-, hname, hleads, hmanifest⟩ := hm
  dsimp only at hloc hname hleads hmanifest
  subst hloc
  have hentry := isEntryName_of_mem_namesIn hfs hname
  have hfile : isDir s r n = false := by
    rw [Bool.eq_false_iff]
    intro hdir
    obtain ⟨l, hl⟩ := exists_directoryAt (hentered r hr).isTextOf (hentered r hr).find hentry hdir
    rw [hleads] at hl
    cases hl
  have hn : n ∈ filesIn s r := mem_filesIn.2 ⟨hname, hfile⟩
  refine ⟨_, mem_foundIn.2 ⟨r, hr, n, hn, rfl, ?_⟩, placeOf_of_mem_filesIn hfs hentered hr hn⟩
  rwa [isManifest_join _ hentry.isName]

/-- The places of the manifests of one directory. -/
theorem places_sublist (hr : r ∈ rooms) :
    ((manifestsAmong s (.ofString r.path) (filesIn s r)).map (placeOf? s.fs)).Sublist
      ((filesIn s r).map fun n => some (r.loc, n)) := by
  have hplaces : ((filesIn s r).map fun n => Path.ofString r.path / .ofString n).map
      (placeOf? s.fs) = (filesIn s r).map fun n => some (r.loc, n) := by
    rw [List.map_map]
    refine List.map_congr_left ?_
    intro n hn
    exact placeOf_of_mem_filesIn hfs hentered hr hn
  rw [← hplaces]
  exact List.filter_sublist.map _

/-- The paths that are found lead to different places. -/
theorem nodup_places (hdistinct : (rooms.map (·.loc)).Nodup) :
    ((foundIn s rooms).map (placeOf? s.fs)).Nodup := by
  unfold foundIn
  rw [List.map_flatMap, List.nodup_flatMap]
  constructor
  · intro r hr
    have hnames : (filesIn s r).Nodup := by
      unfold filesIn sortTexts
      rw [(sortBy_perm id _).nodup_iff]
      exact (nodup_namesIn hfs).filter _
    have hplaces : ((filesIn s r).map fun n => some (r.loc, n)).Nodup := by
      refine hnames.map ?_
      intro n n' heq
      cases heq
      rfl
    rw [List.map_reverse, List.nodup_reverse]
    exact hplaces.sublist (places_sublist hfs hentered hr)
  · rw [List.Nodup, List.pairwise_map] at hdistinct
    refine hdistinct.imp_of_mem ?_
    intro r r' hr hr' hne place hplace hplace'
    dsimp only at hplace hplace'
    rw [List.map_reverse, List.mem_reverse] at hplace hplace'
    have hmem := (places_sublist hfs hentered hr).subset hplace
    have hmem' := (places_sublist hfs hentered hr').subset hplace'
    obtain ⟨n, -, rfl⟩ := List.mem_map.1 hmem
    obtain ⟨n', -, heq⟩ := List.mem_map.1 hmem'
    rw [Option.some.injEq, Prod.mk.injEq] at heq
    exact hne heq.1.symm

end

/-! ### How many there are -/

/-- Only finitely many entries can be manifests. -/
theorem finite_manifests (s : Search) : (manifests s).Finite := by
  refine (List.finite_toSet (s.fs.entries.map fun e =>
    (e.1.tail.reverse, e.1.headD ""))).subset ?_
  rintro ⟨loc, n⟩ ⟨-, hname, -, -⟩
  obtain ⟨e, he, hat⟩ := List.mem_filterMap.1 hname
  rw [nameBelow_eq_some] at hat
  refine List.mem_map.2 ⟨e, he, ?_⟩
  rw [hat]
  simp

/-- Paths that lead to different manifests of the tree are no more than there are
    manifests, and as many if every manifest has one. -/
theorem length_le_card {ps : List Path} (hplaces : (ps.map (placeOf? s.fs)).Nodup)
    (hsound : ∀ p ∈ ps, ∃ m ∈ manifests s, placeOf? s.fs p = some m) :
    ps.length ≤ (finite_manifests s).toFinset.card ∧
      ((∀ m ∈ manifests s, ∃ p ∈ ps, placeOf? s.fs p = some m) →
        ps.length = (finite_manifests s).toFinset.card) := by
  obtain ⟨ms, hms⟩ : ps.map (placeOf? s.fs) ∈ Set.range (List.map some) := by
    rw [Set.range_list_map]
    intro place hplace
    obtain ⟨p, hp, rfl⟩ := List.mem_map.1 hplace
    obtain ⟨m, -, hm⟩ := hsound p hp
    exact ⟨m, hm.symm⟩
  have hmem : ∀ m, m ∈ ms ↔ ∃ p ∈ ps, placeOf? s.fs p = some m := by
    intro m
    rw [← List.mem_map, ← hms]
    simp
  have hlength : ms.length = ps.length := by
    have hmapped := congrArg List.length hms
    simpa using hmapped
  have hcard : ms.toFinset.card = ps.length := by
    rw [← hms] at hplaces
    rw [List.toFinset_card_of_nodup hplaces.of_map, hlength]
  have hsubset : ms.toFinset ⊆ (finite_manifests s).toFinset := by
    intro m hm
    obtain ⟨p, hp, hplace⟩ := (hmem m).1 (List.mem_toFinset.1 hm)
    obtain ⟨m', hm', hplace'⟩ := hsound p hp
    rw [hplace] at hplace'
    cases hplace'
    exact (Set.Finite.mem_toFinset _).2 hm'
  rw [← hcard]
  constructor
  · exact Finset.card_le_card hsubset
  · intro hall
    have hequal : ms.toFinset = (finite_manifests s).toFinset := by
      refine hsubset.antisymm ?_
      intro m hm
      exact List.mem_toFinset.2 ((hmem m).2 (hall m ((Set.Finite.mem_toFinset _).1 hm)))
    rw [hequal]

/-- Found paths in order. -/
theorem lists_sortPaths {ps : List Path} (hplaces : (ps.map (placeOf? s.fs)).Nodup)
    (hsound : ∀ p ∈ ps, ∃ m ∈ manifests s, placeOf? s.fs p = some m)
    (hcomplete : ∀ m ∈ manifests s, ∃ p ∈ ps, placeOf? s.fs p = some m) :
    Lists s (sortPaths ps) where
  ascending := pairwise_sortPaths hplaces.of_map
  sound p hp := hsound p (mem_sortPaths.1 hp)
  complete m hm := by
    obtain ⟨p, hp, hplace⟩ := hcomplete m hm
    refine ⟨p, ⟨mem_sortPaths.2 hp, hplace⟩, ?_⟩
    rintro p' ⟨hp', hplace'⟩
    exact List.inj_on_of_nodup_map hplaces (mem_sortPaths.1 hp') hp (hplace'.trans hplace.symm)

/-! ### What a search ends in -/

theorem outcome_discover (h : s.fs.isDirectory s.root.text = .ok true) :
    (discover s).outcome = (visit s maxLevels s.root.text ⟨[], []⟩).outcome.map
      fun progress => sortPaths progress.found := by
  unfold discover
  rw [h]
  dsimp only
  rw [Traced.outcome_bind fun _ =>
    Traced.appends_bind (Traced.appends_log _) fun _ => Traced.appends_pure _]
  cases (visit s maxLevels s.root.text ⟨[], []⟩).outcome <;> rfl

/-- **A search is a walk from its root.** -/
theorem exists_walks_discover (hroot : s.fs.isDirectory s.root.text = .ok true) :
    ∃ rooms e, Walks s (fromRoot s) [] rooms e ∧
      (discover s).outcome = (result s rooms e).map fun progress => sortPaths progress.found := by
  have hroom : (foundIn s []).length ≤ s.most.toNat := Nat.zero_le _
  obtain ⟨rooms, e, hw, houtcome⟩ := exists_walks_visit maxLevels s.root.text hroom
  refine ⟨rooms, e, hw, ?_⟩
  rw [outcome_discover hroot, ← houtcome]
  rfl

/-- A search that ends with paths has a directory for its root. -/
theorem isDirectory_of_discover {ps : List Path} (h : (discover s).outcome = .ok ps) :
    s.fs.isDirectory s.root.text = .ok true := by
  unfold discover at h
  rcases hdir : s.fs.isDirectory s.root.text with f | _ | _
  · rw [hdir] at h
    cases h
  · rw [hdir] at h
    dsimp only at h
    rw [Run.outcome_raise] at h
    cases h
  · rfl

/-- A search that ends with paths has got through its tree. -/
theorem exists_walks_of_discover {ps : List Path} (h : (discover s).outcome = .ok ps) :
    ∃ rooms, Walks s (fromRoot s) [] rooms .complete ∧ ps = sortPaths (foundIn s rooms) := by
  obtain ⟨rooms, e, hw, houtcome⟩ := exists_walks_discover (isDirectory_of_discover h)
  rw [houtcome] at h
  cases e with
  | complete => exact ⟨rooms, hw, (Except.ok.inj h).symm⟩
  | _ => cases h

/-- A search ends for want of levels exactly if it is too deep. -/
theorem isTooDeep_iff (hroot : s.fs.isDirectory s.root.text = .ok true) :
    IsTooDeep s ↔ (discover s).outcome = .error .tooDeep := by
  obtain ⟨rooms, e, hw, houtcome⟩ := exists_walks_discover hroot
  rw [houtcome]
  constructor
  · rintro ⟨rooms', hw'⟩
    obtain ⟨-, rfl⟩ := hw.unique hw'
    rfl
  · intro herror
    cases e with
    | deep => exact ⟨rooms, hw⟩
    | _ => cases herror

/-- **Where there are few entries, no search is too deep.** -/
theorem not_isTooDeep_of_few (hfs : s.fs.WellFormed) (h : s.fs.entries.length + 1 < maxLevels) :
    ¬ IsTooDeep s := by
  rintro ⟨rooms, hw⟩
  refine hw.ne_deep hfs distinct_nil ?_ rfl
  unfold fromRoot
  rw [List.forall_mem_singleton]
  exact h

/-- **The order of the entries makes no difference.** -/
theorem outcome_discover_reordered (hfs : s.fs.WellFormed) {fs' : FileSystem}
    (h : IsReordered s.fs fs') (hroot : s.fs.isDirectory s.root.text = .ok true) :
    (discover { s with fs := fs' }).outcome = (discover s).outcome := by
  obtain ⟨rooms, e, hw, houtcome⟩ := exists_walks_discover hroot
  have hroot' : fs'.isDirectory s.root.text = .ok true := by rwa [h.isDirectory hfs]
  obtain ⟨rooms', e', hw', houtcome'⟩ :=
    exists_walks_discover (s := { s with fs := fs' }) hroot'
  obtain ⟨rfl, rfl⟩ := (hw.reordered hfs h).unique hw'
  rw [houtcome, houtcome']
  cases e with
  | complete =>
    unfold result progressOf
    rw [foundIn_reordered hfs h]
  | _ => rfl

/-! ### The search -/

/-- A complete walk that loses no link finds every manifest. -/
theorem exists_path (hfs : s.fs.WellFormed) (hlinks : LosesNoLink s)
    (hw : Walks s (fromRoot s) [] rooms .complete) :
    ∀ m ∈ manifests s, ∃ p ∈ foundIn s rooms, placeOf? s.fs p = some m := by
  intro m hm
  have hentered := entered_fromRoot hfs hw
  obtain ⟨r, hr, hloc⟩ := exists_room_of_reaches hfs hlinks hw hm.1
  exact exists_mem_foundIn hfs hentered hm hr hloc

/-- **A walk that loses no link finds the manifests of its tree**, unless it comes to a
    directory that cannot be listed or for which no level is left. -/
theorem findsManifests_of_walks (hfs : s.fs.WellFormed) (hmost : 0 ≤ s.most)
    (hw : Walks s (fromRoot s) [] rooms e)
    (houtcome : (discover s).outcome =
      (result s rooms e).map fun progress => sortPaths progress.found)
    (hlisted : ∀ d, e ≠ .unlisted d) (hdeep : e ≠ .deep) (hlinks : LosesNoLink s) :
    FindsManifests s := by
  have hentered := entered_fromRoot hfs hw
  have hplaces := nodup_places hfs hentered (hw.distinct hfs distinct_nil).nodup
  have hsound : ∀ p ∈ foundIn s rooms, ∃ m ∈ manifests s, placeOf? s.fs p = some m :=
    fun p hp => mem_manifests_of_mem_foundIn hfs hentered (hlinks rooms e hw) hp
  obtain ⟨hle, heq⟩ := length_le_card hplaces hsound
  cases e with
  | complete =>
    have hcomplete := exists_path hfs hlinks hw
    have hroom := hw.length_foundIn_le nofun (Nat.zero_le _)
    have hcard := heq hcomplete
    refine ⟨finite_manifests s, ?_,
      fun _ => ⟨_, houtcome, lists_sortPaths hplaces hsound hcomplete⟩⟩
    intro hmany
    omega
  | full =>
    have hmany := hw.lt_length_foundIn rfl
    refine ⟨finite_manifests s, fun _ => houtcome, ?_⟩
    intro hfew
    omega
  | unlisted d => exact absurd rfl (hlisted d)
  | deep => exact absurd rfl hdeep

end WorkflowCatalog.Manifest
