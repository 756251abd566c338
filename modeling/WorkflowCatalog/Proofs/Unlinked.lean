/-
  WorkflowCatalog/Proofs/Unlinked.lean
  ====================================
  **File systems without links.**  There a path leads to one location, whatever stands at
  it (`Comes`), and to which one depends on the directories only.  A path goes on leading
  to its location when directories are added, and when files come and go (`Comes.mono`).

  Main statements: where a path is resolved to (`resolve_eq_ok_iff`), what is found there
  (`find_eq_ok_iff`), and which location is the place of a path (`place_eq_some_iff`).
-/
import WorkflowCatalog.Proofs.Following

namespace WorkflowCatalog

/-! ### The names of a path text -/

/-- A part between separators holds none, and nothing that was not there. -/
theorem Text.of_mem_splitOn {α : Type} [DecidableEq α] {sep : α} {part cs : List α}
    (h : part ∈ splitOn sep cs) : sep ∉ part ∧ part ⊆ cs := by
  induction cs generalizing part with
  | nil =>
    rw [splitOn, List.mem_singleton] at h
    subst h
    exact ⟨List.not_mem_nil, List.Subset.refl _⟩
  | cons c cs ih =>
    by_cases hc : c = sep
    · rw [splitOn, if_pos hc] at h
      rcases List.mem_cons.1 h with rfl | h
      · exact ⟨List.not_mem_nil, List.nil_subset _⟩
      · exact ⟨(ih h).1, List.subset_cons_of_subset _ (ih h).2⟩
    · rw [splitOn, if_neg hc] at h
      obtain ⟨first, others, hsplit⟩ := List.exists_cons_of_ne_nil (splitOn_ne_nil sep cs)
      rw [hsplit] at h ih
      dsimp only at h
      rcases List.mem_cons.1 h with rfl | h
      · obtain ⟨hsep, hsub⟩ := ih List.mem_cons_self
        refine ⟨?_, List.cons_subset_cons _ hsub⟩
        rw [List.mem_cons, not_or]
        exact ⟨fun heq => hc heq.symm, hsep⟩
      · obtain ⟨hsep, hsub⟩ := ih (List.mem_cons_of_mem _ h)
        exact ⟨hsep, List.subset_cons_of_subset _ hsub⟩

namespace FileSystem

variable {fs fs' : FileSystem} {here loc dir : Location} {n path : String} {names rest : List String}
  {followLast : Bool}

/-- A path text that leads anywhere at all. -/
structure IsUsable (path : String) : Prop where
  noNul : ¬ path.toList.contains '\x00' = true
  ne_empty : path ≠ ""
  isShort : ¬ maxPathBytes ≤ path.utf8ByteSize

/-- Where the way of a path text begins. -/
def startAt (fs : FileSystem) (path : String) : Location :=
  if path.toList.head? = some '/' then [] else fs.workingDirectory

theorem entryAt_startAt (h : fs.WellFormed) (path : String) :
    fs.entryAt? (fs.startAt path) = some .directory := by
  unfold startAt
  split
  · exact entryAt_root
  · exact h.workingDirectory

/-- A name of a usable path that is looked up can be the name of an entry. -/
theorem isEntryName_of_mem_pathNames (hpath : IsUsable path) (h : n ∈ pathNames path)
    (hn : IsLookedUp n) : IsEntryName n := by
  have hpart : n ∈ (Path.components path).filter (· != "") := by
    unfold pathNames at h
    dsimp only at h
    split at h
    · rcases List.mem_append.1 h with h | h
      · exact h
      · exact absurd (List.mem_singleton.1 h) hn.ne_dot
    · exact h
  obtain ⟨hcomponent, hempty⟩ := List.mem_filter.1 hpart
  obtain ⟨part, hsplit, rfl⟩ := List.mem_map.1 hcomponent
  obtain ⟨hslash, hsub⟩ := Text.of_mem_splitOn hsplit
  refine ⟨⟨by simpa using hempty, hn.ne_dot, ?_⟩, hn.ne_up, ?_, Nat.le_of_not_lt hn.isShort⟩
  · rwa [String.toList_ofList]
  · rw [String.toList_ofList, Bool.eq_false_iff, Ne, List.contains_iff_mem]
    intro hmem
    exact hpath.noNul (List.contains_iff_mem.2 (hsub hmem))

/-! ### Ways to a location -/

variable (fs) in
/-- The way along names from a directory to a location: every name but the last leads to a
    directory. -/
inductive Way : Location → List String → Location → Prop where
  | stay (here : Location) : Way here [] here
  | dot {here loc : Location} {rest : List String} (h : Way here rest loc) :
    Way here ("." :: rest) loc
  | up {here loc : Location} {rest : List String} (h : Way here.dropLast rest loc) :
    Way here (".." :: rest) loc
  | last {here : Location} {n : String} (hn : IsLookedUp n) : Way here [n] (here ++ [n])
  | enter {here loc : Location} {n : String} {rest : List String} (hn : IsLookedUp n)
    (hdir : fs.entryAt? (here ++ [n]) = some .directory) (h : Way (here ++ [n]) rest loc) :
    Way here (n :: rest) loc

theorem way_nil : Way fs here [] loc ↔ loc = here := by
  constructor
  · rintro ⟨⟩
    rfl
  · rintro rfl
    exact .stay _

theorem way_cons : Way fs here (n :: rest) loc ↔
    (n = "." ∧ Way fs here rest loc) ∨ (n = ".." ∧ Way fs here.dropLast rest loc) ∨
      (IsLookedUp n ∧ ((rest = [] ∧ loc = here ++ [n]) ∨
        (fs.entryAt? (here ++ [n]) = some .directory ∧ Way fs (here ++ [n]) rest loc))) := by
  constructor
  · rintro (_ | h | h | hn | ⟨hn, hdir, h⟩)
    · exact .inl ⟨rfl, h⟩
    · exact .inr (.inl ⟨rfl, h⟩)
    · exact .inr (.inr ⟨hn, .inl ⟨rfl, rfl⟩⟩)
    · exact .inr (.inr ⟨hn, .inr ⟨hdir, h⟩⟩)
  · rintro (⟨rfl, h⟩ | ⟨rfl, h⟩ | ⟨hn, ⟨rfl, rfl⟩ | ⟨hdir, h⟩⟩)
    · exact .dot h
    · exact .up h
    · exact .last hn
    · exact .enter hn hdir h

theorem way_dot : Way fs here ("." :: rest) loc ↔ Way fs here rest loc := by
  have hno : ¬ IsLookedUp "." := fun h => h.ne_dot rfl
  simp [way_cons, hno]

theorem way_up : Way fs here (".." :: rest) loc ↔ Way fs here.dropLast rest loc := by
  have hno : ¬ IsLookedUp ".." := fun h => h.ne_up rfl
  simp [way_cons, hno]

theorem way_name (hn : IsLookedUp n) :
    Way fs here (n :: rest) loc ↔ (rest = [] ∧ loc = here ++ [n]) ∨
      (fs.entryAt? (here ++ [n]) = some .directory ∧ Way fs (here ++ [n]) rest loc) := by
  simp [way_cons, hn, hn.ne_dot, hn.ne_up]

theorem not_way_long (hn : n ≠ "." ∧ n ≠ ".." ∧ maxNameBytes < n.utf8ByteSize) :
    ¬ Way fs here (n :: rest) loc := by
  have hno : ¬ IsLookedUp n := fun h => h.isShort hn.2.2
  simp [way_cons, hn.1, hn.2.1, hno]

/-- All directories of one file system are directories in the other. -/
structure KeepsDirectories (fs fs' : FileSystem) : Prop where
  workingDirectory : fs'.workingDirectory = fs.workingDirectory
  directory : ∀ l, fs.entryAt? l = some .directory → fs'.entryAt? l = some .directory

theorem KeepsDirectories.trans {fs'' : FileSystem} (h : KeepsDirectories fs fs')
    (h' : KeepsDirectories fs' fs'') : KeepsDirectories fs fs'' :=
  ⟨h'.workingDirectory.trans h.workingDirectory, fun l hl => h'.directory l (h.directory l hl)⟩

theorem Way.mono (hkeeps : KeepsDirectories fs fs') (h : Way fs here names loc) :
    Way fs' here names loc := by
  induction h with
  | stay here => exact .stay here
  | dot _ ih => exact .dot ih
  | up _ ih => exact .up ih
  | last hn => exact .last hn
  | enter hn hdir _ ih => exact .enter hn (hkeeps.directory _ hdir) ih

/-- A way that does not end at a directory ends at its last name, in a directory. -/
theorem Way.last_name (hfs : fs.WellFormed) (h : Way fs here names loc)
    (hhere : fs.entryAt? here = some .directory) (hloc : fs.entryAt? loc ≠ some .directory) :
    ∃ dir n, loc = dir ++ [n] ∧ fs.entryAt? dir = some .directory ∧ names.getLast? = some n ∧
      IsLookedUp n := by
  have hcons : ∀ {m n : String} {rest : List String}, rest.getLast? = some n →
      (m :: rest).getLast? = some n := by
    intro m n rest hrest
    rw [List.getLast?_cons, hrest]
    rfl
  induction h with
  | stay here => exact absurd hhere hloc
  | dot _ ih =>
    obtain ⟨dir, n, heq, hdir, hlast, hn⟩ := ih hhere hloc
    exact ⟨dir, n, heq, hdir, hcons hlast, hn⟩
  | up _ ih =>
    obtain ⟨dir, n, heq, hdir, hlast, hn⟩ := ih (entryAt_dropLast hfs hhere) hloc
    exact ⟨dir, n, heq, hdir, hcons hlast, hn⟩
  | @last here n hn => exact ⟨here, n, rfl, hhere, rfl, hn⟩
  | enter _ hdir _ ih =>
    obtain ⟨dir, n, heq, hdir, hlast, hn⟩ := ih hdir hloc
    exact ⟨dir, n, heq, hdir, hcons hlast, hn⟩

/-! ### What a path comes to -/

/-- A well-formed file system in which no entry is a link. -/
structure Unlinked (fs : FileSystem) : Prop where
  wellFormed : fs.WellFormed
  noLink : ∀ e ∈ fs.entries, e.2.isLink = false

instance (fs : FileSystem) : Decidable fs.Unlinked :=
  decidable_of_iff (fs.WellFormed ∧ ∀ e ∈ fs.entries, e.2.isLink = false)
    ⟨fun ⟨h₁, h₂⟩ => ⟨h₁, h₂⟩, fun ⟨h₁, h₂⟩ => ⟨h₁, h₂⟩⟩

theorem Unlinked.entryAt_ne_link (h : fs.Unlinked) (target : String) :
    fs.entryAt? loc ≠ some (.link target) := by
  intro hentry
  by_cases hloc : loc = []
  · rw [hloc, entryAt_root] at hentry
    cases hentry
  · have hlink := h.noLink _ (mem_entries_of_entryAt hloc hentry)
    cases hlink

/-- **Without links, a way along names ends at its location.** -/
theorem trailAlong_eq_ok_iff (h : fs.Unlinked) {onLink : Location → List String → Trail}
    (hhere : fs.entryAt? here = some .directory) {t : Target} :
    (trailAlong fs followLast onLink here names).2 = .ok t ↔
      ∃ loc, Way fs here names loc ∧ t = fs.endAt loc := by
  induction names generalizing here with
  | nil =>
    simp only [way_nil, exists_eq_left, endAt_some hhere, trailAlong]
    simp [eq_comm]
  | cons n rest ih =>
    rcases name_cases n with rfl | rfl | hn | hn
    · simp only [way_dot]
      exact ih hhere
    · simp only [way_up]
      exact ih (entryAt_dropLast h.wellFormed hhere)
    · rw [trailAlong_long hn]
      simp [not_way_long hn]
    have hend : ∀ found, fs.entryAt? (here ++ [n]) = found → found ≠ some .directory →
        ((∃ loc, Way fs here (n :: rest) loc ∧ t = fs.endAt loc) ↔
          rest = [] ∧ t = fs.endAt (here ++ [n])) := by
      intro found hfound hne
      simp only [way_name hn, hfound, hne, false_and, or_false, and_assoc, exists_and_left,
        exists_eq_left]
    rw [trailAlong_name hn]
    dsimp only
    rcases hentry : fs.entryAt? (here ++ [n]) with _ | bytes | _ | target
    · rw [hend _ hentry (by simp)]
      unfold onward endAt
      rw [hentry]
      dsimp only
      by_cases hrest : rest = [] <;> simp [hrest, eq_comm]
    · rw [hend _ hentry (by simp), endAt_some hentry]
      unfold onward
      by_cases hrest : rest = [] <;> simp [hrest, eq_comm]
    · have hway : (∃ loc, Way fs here (n :: rest) loc ∧ t = fs.endAt loc) ↔
          ∃ loc, Way fs (here ++ [n]) rest loc ∧ t = fs.endAt loc := by
        refine exists_congr fun loc => and_congr_left fun _ => ?_
        rw [way_name hn]
        constructor
        · rintro (⟨rfl, rfl⟩ | ⟨-, hrest⟩)
          · exact .stay _
          · exact hrest
        · intro hrest
          exact .inr ⟨hentry, hrest⟩
      rw [hway]
      exact ih hentry
    · exact absurd hentry (h.entryAt_ne_link target)

/-- A path leads to a location, whatever stands there. -/
structure Comes (fs : FileSystem) (path : String) (loc : Location) : Prop where
  usable : IsUsable path
  way : Way fs (fs.startAt path) (pathNames path) loc

/-- **Without links, a path leads to what stands at its location.** -/
theorem resolve_eq_ok_iff (h : fs.Unlinked) {t : Target} :
    fs.resolve followLast path = .ok t ↔ ∃ loc, Comes fs path loc ∧ t = fs.endAt loc := by
  by_cases hpath : IsUsable path
  · have hway : fs.resolve followLast path =
        (trailFollow fs followLast maxLinks (fs.startAt path) (pathNames path)).2 := by
      rw [← trail_snd]
      unfold trail
      rw [if_neg hpath.noNul, if_neg hpath.ne_empty, if_neg hpath.isShort]
      rfl
    rw [hway]
    refine (trailAlong_eq_ok_iff h (entryAt_startAt h.wellFormed path)).trans ?_
    refine exists_congr fun loc => and_congr_left fun _ => ?_
    exact ⟨fun hw => ⟨hpath, hw⟩, Comes.way⟩
  · have hnone : ∀ loc, ¬ Comes fs path loc := fun loc hcomes => hpath hcomes.usable
    have herror : ∃ f, fs.resolve followLast path = .error f := by
      unfold resolve
      by_cases hnul : path.toList.contains '\x00' = true
      · exact ⟨_, if_pos hnul⟩
      by_cases hempty : path = ""
      · exact ⟨_, by rw [if_neg hnul, if_pos hempty]⟩
      by_cases hlong : maxPathBytes ≤ path.utf8ByteSize
      · exact ⟨_, by rw [if_neg hnul, if_neg hempty, if_pos hlong]⟩
      · exact absurd ⟨hnul, hempty, hlong⟩ hpath
    obtain ⟨f, hf⟩ := herror
    simp [hf, hnone]

theorem Comes.resolve (hfs : fs.Unlinked) (h : Comes fs path loc) (followLast : Bool) :
    fs.resolve followLast path = .ok (fs.endAt loc) :=
  (resolve_eq_ok_iff hfs).2 ⟨loc, h, rfl⟩

/-- **More directories make no difference.** -/
theorem Comes.mono (hkeeps : KeepsDirectories fs fs') (h : Comes fs path loc) :
    Comes fs' path loc := by
  refine ⟨h.usable, ?_⟩
  have hstart : fs'.startAt path = fs.startAt path := by
    unfold startAt
    rw [hkeeps.workingDirectory]
  rw [hstart]
  exact h.way.mono hkeeps

theorem spot_endAt_directory (h : fs.entryAt? loc = some .directory) :
    spot? (fs.endAt loc) = none := by
  rw [endAt_some h]
  rfl

theorem spot_endAt (h : fs.entryAt? loc ≠ some .directory) : spot? (fs.endAt loc) = some loc := by
  rcases hentry : fs.entryAt? loc with _ | bytes | _ | target
  · have hloc : loc ≠ [] := by
      rintro rfl
      exact h entryAt_root
    obtain ⟨dir, name, hend, hname⟩ := endAt_none hloc hentry
    rw [hend, ← hname]
    rfl
  · rw [endAt_some hentry]
    rfl
  · exact absurd hentry h
  · rw [endAt_some hentry]
    rfl

/-- **The place of a path** is the location it comes to, if no directory stands there. -/
theorem place_eq_some_iff (hfs : fs.Unlinked) :
    fs.place? path = some loc ↔ Comes fs path loc ∧ fs.entryAt? loc ≠ some .directory := by
  unfold place?
  constructor
  · intro h
    rcases hres : fs.resolve false path with f | t
    · rw [hres] at h
      cases h
    · rw [hres] at h
      dsimp only at h
      obtain ⟨loc', hcomes, rfl⟩ := (resolve_eq_ok_iff hfs).1 hres
      have hdir : fs.entryAt? loc' ≠ some .directory := by
        intro hdir
        rw [spot_endAt_directory hdir] at h
        cases h
      rw [spot_endAt hdir] at h
      cases h
      exact ⟨hcomes, hdir⟩
  · rintro ⟨hcomes, hdir⟩
    rw [hcomes.resolve hfs false]
    exact spot_endAt hdir

/-- A place is a name in a directory, the last one of its path. -/
theorem exists_of_place (hfs : fs.Unlinked) (h : fs.place? path = some loc) :
    ∃ dir n, loc = dir ++ [n] ∧ fs.entryAt? dir = some .directory ∧
      (pathNames path).getLast? = some n ∧ IsEntryName n := by
  obtain ⟨hcomes, hdir⟩ := (place_eq_some_iff hfs).1 h
  obtain ⟨dir, n, rfl, hentry, hlast, hn⟩ :=
    hcomes.way.last_name hfs.wellFormed (entryAt_startAt hfs.wellFormed path) hdir
  exact ⟨dir, n, rfl, hentry, hlast,
    isEntryName_of_mem_pathNames hcomes.usable (List.mem_of_getLast? hlast) hn⟩

/-- A place has the name of its path. -/
theorem exists_name_of_place (hfs : fs.Unlinked) {p : Path} (h : fs.place? p.text = some loc) :
    ∃ dir, loc = dir ++ [p.name] ∧ p.names ≠ [] ∧ IsEntryName p.name := by
  obtain ⟨dir, n, rfl, -, hlast, hn⟩ := exists_of_place hfs h
  by_cases hnames : p.names = []
  · rw [Path.pathNames_text_nil hnames] at hlast
    cases hlast
    exact absurd rfl hn.isName.2.1
  · rw [Path.pathNames_text hnames] at hlast
    have hname : p.name = n := by
      unfold Path.name
      rw [hlast]
      rfl
    exact ⟨dir, by rw [hname], hnames, by rwa [hname]⟩

/-- Whether the last name would be followed makes no difference. -/
theorem resolve_true_eq (hfs : fs.Unlinked) : fs.resolve true path = fs.resolve false path := by
  rw [← trail_snd, ← trail_snd, trail_unlinked]
  intro l target hres
  obtain ⟨loc, -, hend⟩ := (resolve_eq_ok_iff hfs).1 hres
  rcases hentry : fs.entryAt? loc with _ | e
  · rw [endAt, hentry] at hend
    cases hend
  · rw [endAt_some hentry] at hend
    cases hend
    exact hfs.entryAt_ne_link target hentry

theorem find_eq_ok_iff (hfs : fs.Unlinked) {e : Entry} :
    fs.find followLast path = .ok (loc, e) ↔ Comes fs path loc ∧ fs.entryAt? loc = some e := by
  rw [Manifest.find_eq_ok, trail_snd, resolve_eq_ok_iff hfs]
  constructor
  · rintro ⟨loc', hcomes, hend⟩
    rcases hentry : fs.entryAt? loc' with _ | e'
    · rw [endAt, hentry] at hend
      cases hend
    · rw [endAt_some hentry] at hend
      cases hend
      exact ⟨hcomes, hentry⟩
  · rintro ⟨hcomes, hentry⟩
    exact ⟨loc, hcomes, (endAt_some hentry).symm⟩

theorem isDirectory_eq_true : fs.isDirectory path = .ok true ↔
    ∃ loc, fs.find true path = .ok (loc, .directory) := by
  unfold isDirectory
  rcases fs.find true path with f | ⟨loc, _ | _ | _⟩
  · cases f <;> simp
  · simp
  · simp
  · simp

/-- **What leads to a directory goes on leading to it.** -/
theorem find_directory_mono (hfs : fs.Unlinked) (hfs' : fs'.Unlinked)
    (hkeeps : KeepsDirectories fs fs') (h : fs.find followLast path = .ok (loc, .directory)) :
    fs'.find followLast path = .ok (loc, .directory) := by
  obtain ⟨hcomes, hdir⟩ := (find_eq_ok_iff hfs).1 h
  exact (find_eq_ok_iff hfs').2 ⟨hcomes.mono hkeeps, hkeeps.directory loc hdir⟩

end FileSystem

end WorkflowCatalog
