/-
  WorkflowCatalog/Proofs/SearchFailures.lean
  ==========================================
  **How a search can fail.**  A search that cannot go on ends with an error of its own: the
  root is no directory, a directory cannot be listed, or there are too many manifests
  (`IsReport`).  Below the root only one other thing can happen, whatever is found there: no
  level is left for a directory.  Every fault of listing a directory becomes an error
  (`isReport_or_tooDeep_of_visit`).

  The root is looked at first, and that look passes one kind of fault on.  Paths that lead
  nowhere, through a file, over too many links, or that hold NUL lead to no directory; but a
  path that is too long leaves the look as a fault (`isDirectory_eq_error`).  So a search
  reports its failure unless its root is too long, as a whole or by a name that is met on its
  way, also one in the target of a link (`IsTooLong`), or its tree is too deep (`IsTooDeep`).

  Main statement: `reportsFailures_iff`.  It is about well-formed file systems: in others the
  working directory may be missing, or a location inside a file.
-/
import WorkflowCatalog.Proofs.Discovery
import WorkflowCatalog.Proofs.LastName

namespace WorkflowCatalog

namespace FileSystem

variable {fs : FileSystem} {followLast : Bool} {here : Location} {n path : String}
  {names rest : List String} {k : Nat} {f : Fault}
  {onLink : Location → List String → Except Fault Target}

/-! ### Paths that are too long -/

variable (fs) in
/-- On the way along names a name is met that is too long, before the way ends otherwise. So
    many links are followed at most. -/
inductive MeetsLongName : Nat → Location → List String → Prop where
  | long {k : Nat} {here : Location} {n : String} {rest : List String}
    (h : maxNameBytes < n.utf8ByteSize) : MeetsLongName k here (n :: rest)
  | dot {k : Nat} {here : Location} {rest : List String} (h : MeetsLongName k here rest) :
    MeetsLongName k here ("." :: rest)
  | up {k : Nat} {here : Location} {rest : List String} (h : MeetsLongName k here.dropLast rest) :
    MeetsLongName k here (".." :: rest)
  | enter {k : Nat} {here : Location} {n : String} {rest : List String} (hn : IsLookedUp n)
    (hdir : fs.entryAt? (here ++ [n]) = some .directory)
    (h : MeetsLongName k (here ++ [n]) rest) : MeetsLongName k here (n :: rest)
  | link {k : Nat} {here : Location} {n target : String} {rest : List String} (hn : IsLookedUp n)
    (hentry : fs.entryAt? (here ++ [n]) = some (.link target)) (hne : target ≠ "")
    (h : MeetsLongName k (if target.toList.head? = some '/' then [] else here)
      (pathNames target ++ rest)) : MeetsLongName (k + 1) here (n :: rest)

/-- The path is too long as a whole, or by a name on its way. -/
structure IsTooLong (fs : FileSystem) (path : String) : Prop where
  noNul : ¬ path.toList.contains '\x00' = true
  tooLong : maxPathBytes ≤ path.utf8ByteSize ∨
    MeetsLongName fs maxLinks (fs.startAt path) (pathNames path)

theorem meetsLongName_cons : MeetsLongName fs k here (n :: rest) ↔
    maxNameBytes < n.utf8ByteSize ∨ (n = "." ∧ MeetsLongName fs k here rest) ∨
      (n = ".." ∧ MeetsLongName fs k here.dropLast rest) ∨
      (IsLookedUp n ∧ fs.entryAt? (here ++ [n]) = some .directory ∧
        MeetsLongName fs k (here ++ [n]) rest) ∨
      (IsLookedUp n ∧ ∃ j target, k = j + 1 ∧ fs.entryAt? (here ++ [n]) = some (.link target) ∧
        target ≠ "" ∧ MeetsLongName fs j (if target.toList.head? = some '/' then [] else here)
          (pathNames target ++ rest)) := by
  constructor
  · rintro (h | h | h | ⟨hn, hdir, h⟩ | ⟨hn, hentry, hne, h⟩)
    · exact .inl h
    · exact .inr (.inl ⟨rfl, h⟩)
    · exact .inr (.inr (.inl ⟨rfl, h⟩))
    · exact .inr (.inr (.inr (.inl ⟨hn, hdir, h⟩)))
    · exact .inr (.inr (.inr (.inr ⟨hn, _, _, rfl, hentry, hne, h⟩)))
  · rintro (h | ⟨rfl, h⟩ | ⟨rfl, h⟩ | ⟨hn, hdir, h⟩ | ⟨hn, j, target, rfl, hentry, hne, h⟩)
    · exact .long h
    · exact .dot h
    · exact .up h
    · exact .enter hn hdir h
    · exact .link hn hentry hne h

theorem meetsLongName_dot :
    MeetsLongName fs k here ("." :: rest) ↔ MeetsLongName fs k here rest := by
  have hshort : ¬ maxNameBytes < ".".utf8ByteSize := by decide
  have hno : ¬ IsLookedUp "." := fun h => h.ne_dot rfl
  simp [meetsLongName_cons, hshort, hno]

theorem meetsLongName_up :
    MeetsLongName fs k here (".." :: rest) ↔ MeetsLongName fs k here.dropLast rest := by
  have hshort : ¬ maxNameBytes < "..".utf8ByteSize := by decide
  have hno : ¬ IsLookedUp ".." := fun h => h.ne_up rfl
  simp [meetsLongName_cons, hshort, hno]

theorem meetsLongName_name (hn : IsLookedUp n) : MeetsLongName fs k here (n :: rest) ↔
    (fs.entryAt? (here ++ [n]) = some .directory ∧ MeetsLongName fs k (here ++ [n]) rest) ∨
      ∃ j target, k = j + 1 ∧ fs.entryAt? (here ++ [n]) = some (.link target) ∧ target ≠ "" ∧
        MeetsLongName fs j (if target.toList.head? = some '/' then [] else here)
          (pathNames target ++ rest) := by
  simp [meetsLongName_cons, hn, hn.ne_dot, hn.ne_up, hn.isShort]

/-- One level of links: what links lead to is known, and the way up to them is gone along. -/
theorem trailAlong_eq_tooLong {onLink : Location → List String → Trail}
    (hlink : ∀ here names, (onLink here names).2 = .error .nameTooLong ↔
      ∃ j, k = j + 1 ∧ MeetsLongName fs j here names) :
    (trailAlong fs true onLink here names).2 = .error .nameTooLong ↔
      MeetsLongName fs k here names := by
  induction names generalizing here with
  | nil => exact ⟨nofun, nofun⟩
  | cons n rest ih =>
    rcases name_cases n with rfl | rfl | hn | hn
    · rw [meetsLongName_dot]
      exact ih
    · rw [meetsLongName_up]
      exact ih
    · rw [trailAlong_long hn]
      exact ⟨fun _ => .long hn.2.2, fun _ => rfl⟩
    rw [trailAlong_name hn, meetsLongName_name hn]
    rcases fs.entryAt? (here ++ [n]) with _ | bytes | _ | target
    · dsimp only [onward]
      split <;> simp
    · dsimp only [onward]
      split <;> simp
    · simpa [onward] using ih
    · by_cases hempty : target = ""
      · simp [onward, hempty]
      · rw [onward_link (by simp) hempty, hlink]
        simp [hempty]

theorem trailFollow_eq_tooLong :
    (trailFollow fs true k here names).2 = .error .nameTooLong ↔
      MeetsLongName fs k here names := by
  induction k generalizing here names with
  | zero => exact trailAlong_eq_tooLong fun _ _ => ⟨nofun, nofun⟩
  | succ k ih =>
    refine trailAlong_eq_tooLong fun here names => ?_
    rw [ih]
    simp

/-- **Which paths are too long.** -/
theorem resolve_eq_tooLong :
    fs.resolve true path = .error .nameTooLong ↔ IsTooLong fs path := by
  by_cases hnul : path.toList.contains '\x00' = true
  · unfold resolve
    rw [if_pos hnul]
    exact ⟨nofun, fun h => absurd hnul h.noNul⟩
  by_cases hempty : path = ""
  · subst hempty
    refine ⟨nofun, fun h => ?_⟩
    rcases h.tooLong with hsize | hname
    · exact absurd hsize (by decide)
    · cases hname
  by_cases hlong : maxPathBytes ≤ path.utf8ByteSize
  · unfold resolve
    rw [if_neg hnul, if_neg hempty, if_pos hlong]
    exact ⟨fun _ => ⟨hnul, .inl hlong⟩, fun _ => rfl⟩
  · rw [← trail_snd, trail_of_usable ⟨hnul, hempty, hlong⟩, trailFollow_eq_tooLong]
    exact ⟨fun h => ⟨hnul, .inr h⟩, fun h => h.tooLong.resolve_left hlong⟩

/-! ### The look at a root -/

/-- The faults that a path may have. -/
def pathFaults : List Fault :=
  [.notFound, .notDirectory, .tooManyLinks, .nameTooLong, .nulInPath]

theorem mem_pathFaults_of_trailAlong {onLink : Location → List String → Trail}
    (hlink : ∀ here names, (onLink here names).2 = .error f → f ∈ pathFaults)
    (h : (trailAlong fs followLast onLink here names).2 = .error f) : f ∈ pathFaults := by
  induction names generalizing here with
  | nil => cases h
  | cons n rest ih =>
    rcases name_cases n with rfl | rfl | hn | hn
    · exact ih h
    · exact ih h
    · rw [trailAlong_long hn] at h
      cases h
      decide
    rw [trailAlong_name hn] at h
    dsimp only at h
    generalize fs.entryAt? (here ++ [n]) = found at h
    rcases found with _ | bytes | _ | target
    · dsimp only [onward] at h
      split at h
      · cases h
      · cases h
        decide
    · dsimp only [onward] at h
      split at h
      · cases h
      · cases h
        decide
    · exact ih h
    · dsimp only [onward] at h
      split at h
      · cases h
      split at h
      · cases h
        decide
      · exact hlink _ _ h

theorem mem_pathFaults_of_trailFollow
    (h : (trailFollow fs followLast k here names).2 = .error f) : f ∈ pathFaults := by
  induction k generalizing here names with
  | zero =>
    refine mem_pathFaults_of_trailAlong (fun _ _ htoo => ?_) h
    cases htoo
    decide
  | succ k ih => exact mem_pathFaults_of_trailAlong (fun _ _ => ih) h

theorem mem_pathFaults_of_resolve (h : fs.resolve followLast path = .error f) :
    f ∈ pathFaults := by
  rw [← trail_snd] at h
  unfold trail at h
  split at h
  · cases h
    decide
  split at h
  · cases h
    decide
  split at h
  · cases h
    decide
  · exact mem_pathFaults_of_trailFollow h

theorem mem_pathFaults_of_find (h : fs.find followLast path = .error f) : f ∈ pathFaults := by
  rcases bind_eq_error.1 h with h | ⟨t, -, h⟩
  · exact mem_pathFaults_of_resolve h
  · cases t with
    | present loc e => cases h
    | absent dir n =>
      cases h
      decide

theorem find_eq_tooLong : fs.find true path = .error .nameTooLong ↔ IsTooLong fs path := by
  rw [← resolve_eq_tooLong]
  constructor
  · intro h
    rcases bind_eq_error.1 h with h | ⟨t, -, h⟩
    · exact h
    · cases t <;> cases h
  · intro h
    exact bind_eq_error.2 (.inl h)

/-- **The look at a root passes one fault on**: that of a path which is too long. -/
theorem isDirectory_eq_error : fs.isDirectory path = .error f ↔
    f = .nameTooLong ∧ IsTooLong fs path := by
  rw [← find_eq_tooLong]
  unfold isDirectory
  rcases hfind : fs.find true path with g | ⟨loc, e⟩
  · have hmem := mem_pathFaults_of_find hfind
    cases g with
    | nameTooLong => simp [eq_comm]
    | notFound | notDirectory | tooManyLinks | nulInPath => simp
    | isDirectory | exists_ => exact absurd hmem (by decide)
  · cases e <;> simp

end FileSystem

namespace Manifest

open FileSystem

/-! ### Errors of a search -/

variable {s : Search} {f : Failure} {progress : Progress} {levels : Nat} {d : String}

variable (s) in
/-- The failures that a search reports by an error of its own. -/
inductive IsReport : Failure → Prop where
  /-- The root is no directory. -/
  | missing (h : s.fs.isDirectory s.root.text = .ok false) :
    IsReport (.error (noDirectory s.root))
  /-- A directory cannot be listed. -/
  | unlisted {d : String} {f : Fault} (h : s.fs.listDirectory d = .error f) :
    IsReport (.error (unlistable d))
  /-- There are more manifests than there may be. -/
  | full : IsReport (.error (tooMany s))

/-- If the search fails, then with an error of its own. -/
def ReportsFailures (s : Search) : Prop := ∀ f, (discover s).outcome = .error f → IsReport s f

/-- A fold that fails does so at one of its steps. -/
theorem exists_of_foldlM_eq_error {ε α β : Type} {step : β → α → Except ε β} {as : List α} {b : β}
    {e : ε} (h : as.foldlM step b = .error e) : ∃ b a, step b a = .error e := by
  induction as generalizing b with
  | nil => cases h
  | cons a rest ih =>
    rw [List.foldlM_cons] at h
    rcases bind_eq_error.1 h with h | ⟨b', -, h⟩
    · exact ⟨b, a, h⟩
    · exact ih h

theorem isReport_of_listing (h : (listing s d).outcome = .error f) : IsReport s f := by
  unfold listing at h
  rcases hlist : s.fs.listDirectory d with g | l
  · rw [hlist] at h
    dsimp only at h
    rw [Run.outcome_raise] at h
    cases h
    exact .unlisted hlist
  · rw [hlist] at h
    cases h

theorem isReport_of_addManifests {directory : Path} {names : List String} {found : List Path}
    (h : (addManifests s directory names found).outcome = .error f) : IsReport s f := by
  induction names generalizing found with
  | nil => cases h
  | cons n rest ih =>
    unfold addManifests at h
    dsimp only at h
    split at h
    · split at h
      · rw [Run.outcome_raise] at h
        cases h
        exact .full
      · exact ih h
    · exact ih h

/-- Entering a directory fails only if the visits below it do, or with too many manifests. -/
theorem isReport_or_tooDeep_of_enter {l : Location × List String}
    (hvisit : ∀ d progress f, (visit s levels d progress).outcome = .error f →
      IsReport s f ∨ f = .tooDeep)
    (h : (enter s levels d progress l).outcome = .error f) : IsReport s f ∨ f = .tooDeep := by
  have happends : ∀ (progress : Progress) (n : String),
      (visit s levels (below d n) progress).Appends := fun _ _ => appends_visit _ _ _ _
  unfold enter at h
  split at h
  · cases h
  rw [Traced.outcome_bind fun _ => Traced.appends_foldlM happends _ _] at h
  rcases bind_eq_error.1 h with h | ⟨found, -, h⟩
  · exact .inl (isReport_of_addManifests h)
  · rw [Traced.outcome_foldlM happends] at h
    obtain ⟨progress', n, h⟩ := exists_of_foldlM_eq_error h
    exact hvisit _ _ _ h

/-- **Below the root every failure is reported**, but that no level is left. -/
theorem isReport_or_tooDeep_of_visit (h : (visit s levels d progress).outcome = .error f) :
    IsReport s f ∨ f = .tooDeep := by
  induction levels generalizing d progress f with
  | zero =>
    cases h
    exact .inr rfl
  | succ levels ih =>
    rw [visit_succ, Traced.outcome_bind (appends_enter (appends_visit s levels) d progress)] at h
    rcases bind_eq_error.1 h with h | ⟨l, -, h⟩
    · exact .inl (isReport_of_listing h)
    · exact isReport_or_tooDeep_of_enter (fun _ _ _ => ih) h

/-- A search whose root is too long ends with a fault, which is no error of the library. -/
theorem outcome_discover_of_isTooLong (h : IsTooLong s.fs s.root.text) :
    (discover s).outcome = .error (.fault .nameTooLong) := by
  have hlook := isDirectory_eq_error.2 ⟨rfl, h⟩
  unfold discover
  rw [hlook]
  rfl

/-- A search that is too deep has a directory for its root. -/
theorem IsTooDeep.isDirectory (h : IsTooDeep s) : s.fs.isDirectory s.root.text = .ok true := by
  obtain ⟨rooms, hw⟩ := h
  obtain ⟨levels, hlevels⟩ : ∃ levels, maxLevels = levels + 1 := ⟨_, rfl⟩
  unfold fromRoot at hw
  rw [hlevels] at hw
  rcases hlist : s.fs.listDirectory s.root.text with g | ⟨here, names⟩
  · obtain ⟨-, hend⟩ := hw.unlisted_inv hlist
    cases hend
  · exact isDirectory_eq_true.2 ⟨here, (listDirectory_eq_ok.1 hlist).1⟩

/-- A search whose root is not too long, and whose tree is not too deep, fails with an error of
    its own only. -/
theorem reportsFailures_of_not (hlong : ¬ IsTooLong s.fs s.root.text) (hdeep : ¬ IsTooDeep s) :
    ReportsFailures s := by
  intro f hf
  rcases hroot : s.fs.isDirectory s.root.text with g | _ | _
  · exact absurd (isDirectory_eq_error.1 hroot).2 hlong
  · unfold discover at hf
    rw [hroot] at hf
    dsimp only at hf
    rw [Run.outcome_raise] at hf
    cases hf
    exact .missing hroot
  · have houtcome := outcome_discover hroot
    rw [hf] at houtcome
    cases hvisit : (visit s maxLevels s.root.text ⟨[], []⟩).outcome with
    | ok progress =>
      rw [hvisit] at houtcome
      cases houtcome
    | error g =>
      rw [hvisit] at houtcome
      cases houtcome
      refine (isReport_or_tooDeep_of_visit hvisit).resolve_right ?_
      rintro rfl
      exact hdeep ((isTooDeep_iff hroot).2 hf)

/-- **A search reports its failures exactly if its root is not too long and its tree is not too
    deep.**  Otherwise it ends with the fault of the file system itself, or for want of levels,
    which cannot be where there are few entries. -/
theorem reportsFailures_iff (hfs : s.fs.WellFormed) :
    (ReportsFailures s ↔ ¬ IsTooLong s.fs s.root.text ∧ ¬ IsTooDeep s) ∧
      (IsTooLong s.fs s.root.text → (discover s).outcome = .error (.fault .nameTooLong)) ∧
      (IsTooDeep s → (discover s).outcome = .error .tooDeep) ∧
      (s.fs.entries.length + 1 < maxLevels → ¬ IsTooDeep s) := by
  have htooDeep : IsTooDeep s → (discover s).outcome = .error .tooDeep :=
    fun hdeep => (isTooDeep_iff hdeep.isDirectory).1 hdeep
  refine ⟨⟨fun hreports => ⟨fun hlong => ?_, fun hdeep => ?_⟩,
    fun h => reportsFailures_of_not h.1 h.2⟩, outcome_discover_of_isTooLong, htooDeep,
    not_isTooDeep_of_few hfs⟩
  · cases hreports _ (outcome_discover_of_isTooLong hlong)
  · cases hreports _ (htooDeep hdeep)

/-! ### Roots of one name -/

/-- A name of so many letters. -/
def letters : Nat → String
  | 0 => ""
  | k + 1 => (letters k).push 'a'

theorem utf8ByteSize_letters (k : Nat) : (letters k).utf8ByteSize = k := by
  induction k with
  | zero => rfl
  | succ k ih =>
    rw [letters, String.utf8ByteSize_push, ih]
    rfl

theorem eq_of_mem_letters {k : Nat} {c : Char} (h : c ∈ (letters k).toList) : c = 'a' := by
  induction k with
  | zero => cases h
  | succ k ih =>
    rw [letters, String.toList_push, List.mem_append, List.mem_singleton] at h
    exact h.elim ih id

theorem isName_letters {k : Nat} (hk : k ≠ 0) : IsName (letters k) := by
  refine ⟨fun h => ?_, fun h => ?_, fun h => ?_⟩
  · have hsize := utf8ByteSize_letters k
    rw [h] at hsize
    exact hk hsize.symm
  · have hdot : '.' ∈ (letters k).toList := by
      rw [h]
      decide
    exact absurd (eq_of_mem_letters hdot) (by decide)
  · exact absurd (eq_of_mem_letters h) (by decide)

/-- A search in an empty working directory, for a root of so many letters. -/
def longNamed (k : Nat) : Search where
  fs := ⟨[], []⟩
  root := .ofString (letters k)
  suffixes := [".yaml"]
  most := 1
  followLinks := true

theorem isTooLong_longNamed {k : Nat} (hk : k ≠ 0) :
    IsTooLong (longNamed k).fs (longNamed k).root.text ↔ maxNameBytes < k := by
  have hname := isName_letters hk
  have hsize := utf8ByteSize_letters k
  have hroot : (longNamed k).root = ⟨.relative, [letters k], by simpa using hname⟩ :=
    Path.ofString_name hname
  have htext : (longNamed k).root.text = letters k := by
    rw [hroot]
    simp [Path.text, Anchor.text, Path.joinNames]
  have hnul : ¬ (letters k).toList.contains '\x00' = true := by
    rw [List.contains_iff_mem]
    exact fun h => absurd (eq_of_mem_letters h) (by decide)
  have hnames : pathNames (longNamed k).root.text = [letters k] := by
    rw [Path.pathNames_text (by rw [hroot]; simp), hroot]
  constructor
  · rintro ⟨-, hlong | hmeets⟩
    · rw [htext, hsize] at hlong
      exact Nat.lt_of_lt_of_le (by decide) hlong
    · by_contra hshort
      have hdots : letters k ≠ ".." := fun h =>
        absurd (eq_of_mem_letters (by rw [h]; decide) : '.' = 'a') (by decide)
      have hlooked : IsLookedUp (letters k) := ⟨hname.2.1, hdots, by rwa [hsize]⟩
      have hnone (loc : Location) : (longNamed k).fs.entryAt? (loc ++ [letters k]) = none := by
        simp [entryAt?, entryUp?, longNamed]
      rw [hnames, meetsLongName_name hlooked, hnone] at hmeets
      rcases hmeets with ⟨hdir, -⟩ | ⟨_, _, -, hlink, -⟩
      · cases hdir
      · cases hlink
  · intro hlong
    refine ⟨by rwa [htext], .inr ?_⟩
    rw [hnames]
    exact .long (by rwa [hsize])

/-- A root with the longest name that there can be is reported. -/
theorem reportsFailures_longestName :
    (longNamed 255).fs.WellFormed ∧ ¬ IsTooLong (longNamed 255).fs (longNamed 255).root.text ∧
      ReportsFailures (longNamed 255) := by
  have hfs : (longNamed 255).fs.WellFormed := by decide +kernel
  have hshort : ¬ IsTooLong (longNamed 255).fs (longNamed 255).root.text :=
    mt (isTooLong_longNamed (by decide)).1 (by decide)
  obtain ⟨hiff, -, -, hfew⟩ := reportsFailures_iff hfs
  exact ⟨hfs, hshort, hiff.2 ⟨hshort, hfew (by decide)⟩⟩

/-- **One letter more, and the failure is not reported.** -/
theorem not_reportsFailures_longName : ¬ ReportsFailures (longNamed 256) ∧
    (discover (longNamed 256)).outcome = .error (.fault .nameTooLong) := by
  have houtcome : (discover (longNamed 256)).outcome = .error (.fault .nameTooLong) :=
    outcome_discover_of_isTooLong ((isTooLong_longNamed (by decide)).2 (by decide))
  refine ⟨fun hreports => ?_, houtcome⟩
  cases hreports _ houtcome

end Manifest

end WorkflowCatalog
