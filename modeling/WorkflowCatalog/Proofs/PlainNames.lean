/-
  WorkflowCatalog/Proofs/PlainNames.lean
  ======================================
  **Artifacts with plain names stand apart.**  The way to a name in a directory is the
  way to the directory, where only directories and links are met, and one look more
  (`trail_append`).  So different names in one directory never stand in each other's
  way.

  Main statement: targets with different plain names, none of which is the staging name
  of another, stand apart wherever no link stands at their places (`apart_of_plain`).
-/
import WorkflowCatalog.Path.Lemmas
import WorkflowCatalog.Proofs.Staging

namespace WorkflowCatalog

/-! ### Paths in a directory -/

namespace Path

theorem joinNames_cons {n : String} {ns : List String} (h : ns ≠ []) :
    joinNames (n :: ns) = n ++ "/" ++ joinNames ns := by
  cases ns with
  | nil => exact absurd rfl h
  | cons m ms => rfl

theorem toList_joinNames_ne_nil {ns : List String} (h : ∀ n ∈ ns, IsName n) (hne : ns ≠ []) :
    (joinNames ns).toList ≠ [] := by
  obtain ⟨c, cs, he, -⟩ := head_joinNames h hne
  rw [he]
  nofun

/-- Joined names do not end in a slash. -/
theorem getLast_joinNames {ns : List String} (h : ∀ n ∈ ns, IsName n) :
    (joinNames ns).toList.getLast? ≠ some '/' := by
  induction ns with
  | nil => nofun
  | cons n rest ih =>
    rw [List.forall_mem_cons] at h
    by_cases hrest : rest = []
    · subst hrest
      intro hlast
      exact h.1.2.2 (List.mem_of_getLast? hlast)
    · rw [joinNames_cons hrest, String.toList_append,
        List.getLast?_append_of_ne_nil _ (toList_joinNames_ne_nil h.2 hrest)]
      exact ih h.2

theorem eq_of_parts {p q : Path} (hanchor : p.anchor = q.anchor) (hnames : p.names = q.names) :
    p = q := by
  cases p
  cases q
  cases hanchor
  cases hnames
  rfl

theorem text_of_names {p : Path} (h : p.names ≠ []) :
    p.text = p.anchor.text ++ joinNames p.names := by
  obtain ⟨a, ns, hns⟩ := p
  cases ns with
  | nil => exact absurd rfl h
  | cons n rest => cases a <;> rfl

/-- The components of the text of a path are its names, and blank ones for its anchor. -/
theorem components_text {p : Path} (h : p.names ≠ []) :
    (components p.text).filter (· != "") = p.names := by
  have hnames : p.names.filter (· != "") = p.names := by
    rw [List.filter_eq_self]
    intro n hn
    simpa using (p.names_ok n hn).1
  have hjoined := components_joinNames p.names_ok h
  rw [text_of_names h]
  cases p.anchor with
  | relative =>
    rw [Anchor.text, String.empty_append, hjoined, hnames]
  | root =>
    rw [Anchor.text, components_slash, hjoined, List.filter_cons_of_neg (by simp), hnames]
  | doubleRoot =>
    rw [Anchor.text, show ("//" : String) = "/" ++ "/" from rfl, String.append_assoc,
      components_slash, components_slash, hjoined, List.filter_cons_of_neg (by simp),
      List.filter_cons_of_neg (by simp), hnames]

/-- A path with names does not end in a slash. -/
theorem getLast_text {p : Path} (h : p.names ≠ []) : p.text.toList.getLast? ≠ some '/' := by
  rw [text_of_names h, String.toList_append,
    List.getLast?_append_of_ne_nil _ (toList_joinNames_ne_nil p.names_ok h)]
  exact getLast_joinNames p.names_ok

/-- A path with names is looked up name by name. -/
theorem pathNames_text {p : Path} (h : p.names ≠ []) : FileSystem.pathNames p.text = p.names := by
  unfold FileSystem.pathNames
  rw [if_neg (getLast_text h)]
  exact components_text h

/-- A path without names is looked up as a dot. -/
theorem pathNames_text_nil {p : Path} (h : p.names = []) : FileSystem.pathNames p.text = ["."] := by
  obtain ⟨a, ns, hns⟩ := p
  subst h
  cases a
  · exact (by decide +kernel : FileSystem.pathNames "." = ["."])
  · exact (by decide +kernel : FileSystem.pathNames "/" = ["."])
  · exact (by decide +kernel : FileSystem.pathNames "//" = ["."])

/-- The text of a path begins with a slash exactly if the path has an anchor. -/
theorem head_text (p : Path) : p.text.toList.head? = some '/' ↔ p.anchor ≠ .relative := by
  by_cases h : p.names = []
  · obtain ⟨a, ns, hns⟩ := p
    subst h
    cases a
    · exact (by decide +kernel : (".").toList.head? = some '/' ↔ Anchor.relative ≠ .relative)
    · exact (by decide +kernel : ("/").toList.head? = some '/' ↔ Anchor.root ≠ .relative)
    · exact (by decide +kernel : ("//").toList.head? = some '/' ↔ Anchor.doubleRoot ≠ .relative)
  · obtain ⟨c, cs, he, hc⟩ := head_joinNames p.names_ok h
    rw [text_of_names h, String.toList_append, he]
    cases p.anchor with
    | relative => simpa [Anchor.text] using hc
    | root => simp [Anchor.text]
    | doubleRoot => simp [Anchor.text]

end Path

/-! ### Names in a directory -/

namespace FileSystem

/-- The look at a name in a directory. -/
def lastLook (fs : FileSystem) (dir : Location) (n : String) : Trail :=
  trailAlong fs false (fun _ _ => ([], .error .notFound)) dir [n]

/-- A name that leads to an entry of a directory, and to no link. -/
structure IsPlain (fs : FileSystem) (dir : Location) (n : String) : Prop where
  isName : IsName n
  ne_up : n ≠ ".."
  noLink : ∀ e ∈ fs.entryAt? (dir ++ [n]), e.isLink = false

section

variable {fs : FileSystem} {followLast : Bool} {onLink onLink' : Location → List String → Trail}
  {here dir loc : Location} {n : String} {names : List String}

/-- The last look does not depend on how links are followed. -/
theorem trailAlong_plain (h : IsPlain fs dir n) :
    trailAlong fs followLast onLink dir [n] = lastLook fs dir n := by
  unfold lastLook
  rcases name_cases n with hdot | hup | hlong | hn
  · exact absurd hdot h.isName.2.1
  · exact absurd hup h.ne_up
  · rw [trailAlong_long hlong, trailAlong_long hlong]
  · rw [trailAlong_name hn, trailAlong_name hn]
    rcases hentry : fs.entryAt? (dir ++ [n]) with _ | _ | _ | target
    · rfl
    · rfl
    · rfl
    · exact absurd (h.noLink _ hentry) Bool.noConfusion

theorem trailAlong_append (h : IsPlain fs dir n)
    (hlink : ∀ here names, (onLink here names).2 = .ok (.present dir .directory) →
      onLink' here (names ++ [n]) =
        ((onLink here names).1 ++ (lastLook fs dir n).1, (lastLook fs dir n).2))
    (hdir : (trailAlong fs true onLink here names).2 = .ok (.present dir .directory)) :
    trailAlong fs followLast onLink' here (names ++ [n]) =
      ((trailAlong fs true onLink here names).1 ++ (lastLook fs dir n).1,
        (lastLook fs dir n).2) := by
  induction names generalizing here with
  | nil =>
    cases hdir
    exact trailAlong_plain h
  | cons m rest ih =>
    rcases name_cases m with rfl | rfl | hm | hm
    · exact ih hdir
    · exact ih hdir
    · rw [trailAlong_long hm] at hdir
      cases hdir
    have hway : trailAlong fs true onLink here (m :: rest) = _ := trailAlong_name hm
    rw [hway] at hdir ⊢
    dsimp only at hdir ⊢
    rw [List.cons_append, trailAlong_name hm]
    rcases onward_cases hdir with ⟨-, -, hend⟩ | ⟨hentry, hnext⟩ | ⟨target, hentry, -, hempty, hnext⟩
    · generalize fs.entryAt? (here ++ [m]) = found at hend
      cases hend with
      | present e he => exact absurd rfl he
    · rw [hnext] at hdir ⊢
      rw [hentry]
      dsimp only [onward]
      rw [ih hdir]
      rfl
    · rw [hnext] at hdir ⊢
      have hlast : ¬ (rest ++ [n] = [] ∧ followLast = false) := by simp
      rw [hentry, onward_link hlast hempty, ← List.append_assoc, hlink _ _ hdir]
      rfl

theorem trailFollow_append {fuel : Nat} (h : IsPlain fs dir n)
    (hdir : (trailFollow fs true fuel here names).2 = .ok (.present dir .directory)) :
    trailFollow fs followLast fuel here (names ++ [n]) =
      ((trailFollow fs true fuel here names).1 ++ (lastLook fs dir n).1,
        (lastLook fs dir n).2) := by
  induction fuel generalizing here names with
  | zero => exact trailAlong_append h (fun _ _ he => by cases he) hdir
  | succ fuel ih => exact trailAlong_append h (fun _ _ => ih) hdir

theorem lastLook_cases (h : IsPlain fs dir n) :
    (∃ f, lastLook fs dir n = ([], .error f)) ∨ ∃ r, lastLook fs dir n = ([dir ++ [n]], r) := by
  unfold lastLook
  rcases name_cases n with hdot | hup | hlong | hn
  · exact absurd hdot h.isName.2.1
  · exact absurd hup h.ne_up
  · exact .inl ⟨_, trailAlong_long hlong⟩
  · rw [trailAlong_name hn]
    rcases hentry : fs.entryAt? (dir ++ [n]) with _ | _ | _ | target
    · exact .inr ⟨_, rfl⟩
    · exact .inr ⟨_, rfl⟩
    · exact .inr ⟨_, rfl⟩
    · exact absurd (h.noLink _ hentry) Bool.noConfusion

end

/-! ### Paths to plain names -/

section

variable {fs : FileSystem} {followLast : Bool} {directory : Path} {dir l : Location} {n : String}

theorem trailFollow_pathNames (here : Location) (p : Path) :
    trailFollow fs followLast maxLinks here (pathNames p.text) =
      trailFollow fs followLast maxLinks here p.names := by
  by_cases h : p.names = []
  · rw [Path.pathNames_text_nil h, h]
    rfl
  · rw [Path.pathNames_text h]

theorem join_name (directory : Path) (h : IsName n) :
    (directory / Path.ofString n).anchor = directory.anchor ∧
      (directory / Path.ofString n).names = directory.names ++ [n] := by
  rw [Path.ofString_name h]
  exact ⟨rfl, rfl⟩

theorem name_of_join (directory : Path) (h : IsName n) :
    (directory / Path.ofString n).name = n := by
  unfold Path.name
  rw [(join_name directory h).2, List.getLast?_concat]
  rfl

theorem parent_of_join (directory : Path) (h : IsName n) :
    (directory / Path.ofString n).parent = directory := by
  obtain ⟨hanchor, hnames⟩ := join_name directory h
  refine Path.eq_of_parts hanchor ?_
  change (directory / Path.ofString n).names.dropLast = directory.names
  rw [hnames, List.dropLast_concat]

/-- **The way to a name in a directory** is the way to the directory and one look more, unless
    the path or the name is too long. -/
theorem trail_append (hdir : fs.resolve true directory.text = .ok (.present dir .directory))
    (h : IsPlain fs dir n) :
    (∃ f, fs.trail followLast (directory / .ofString n).text = ([], .error f)) ∨
      (∃ f, fs.trail followLast (directory / .ofString n).text =
        (fs.lookups true directory.text, .error f)) ∨
      ∃ r, fs.trail followLast (directory / .ofString n).text =
        (fs.lookups true directory.text ++ [dir ++ [n]], r) := by
  rw [← trail_snd] at hdir
  unfold lookups
  rcases trail_cases directory.text with ⟨f, hnowhere⟩ | hway
  · rw [hnowhere] at hdir
    cases hdir
  rcases trail_cases (directory / .ofString n).text with ⟨f, hnowhere⟩ | hway'
  · exact .inl ⟨f, hnowhere fs followLast⟩
  obtain ⟨hanchor, hnames⟩ := join_name directory h.isName
  have hstart : ((directory / Path.ofString n).text.toList.head? = some '/') ↔
      (directory.text.toList.head? = some '/') := by
    rw [Path.head_text, Path.head_text, hanchor]
  right
  rw [hway, trailFollow_pathNames] at hdir ⊢
  rw [hway', trailFollow_pathNames, hnames]
  simp only [hstart]
  rw [trailFollow_append h hdir]
  rcases lastLook_cases h with ⟨f, hlook⟩ | ⟨r, hlook⟩
  · rw [hlook, List.append_nil]
    exact .inl ⟨f, rfl⟩
  · rw [hlook]
    exact .inr ⟨r, rfl⟩

theorem mem_lookups (hdir : fs.resolve true directory.text = .ok (.present dir .directory))
    (h : IsPlain fs dir n) (hl : l ∈ fs.lookups followLast (directory / .ofString n).text) :
    l ∈ fs.lookups true directory.text ∨ l = dir ++ [n] := by
  unfold lookups at hl
  rcases trail_append hdir h with ⟨f, htrail⟩ | ⟨f, htrail⟩ | ⟨r, htrail⟩
  · rw [htrail] at hl
    exact absurd hl List.not_mem_nil
  · rw [htrail] at hl
    exact .inl hl
  · rw [htrail] at hl
    simpa using hl

theorem mem_dropLast_lookups
    (hdir : fs.resolve true directory.text = .ok (.present dir .directory))
    (h : IsPlain fs dir n)
    (hl : l ∈ (fs.lookups followLast (directory / .ofString n).text).dropLast) :
    l ∈ fs.lookups true directory.text := by
  unfold lookups at hl
  rcases trail_append hdir h with ⟨f, htrail⟩ | ⟨f, htrail⟩ | ⟨r, htrail⟩
  · rw [htrail] at hl
    exact absurd hl List.not_mem_nil
  · rw [htrail] at hl
    exact List.dropLast_subset _ hl
  · rw [htrail] at hl
    rwa [List.dropLast_concat] at hl

theorem place_eq (hdir : fs.resolve true directory.text = .ok (.present dir .directory))
    (h : IsPlain fs dir n) (hl : l ∈ fs.place? (directory / .ofString n).text) :
    l = dir ++ [n] := by
  have hleads := leadsTo_of_place hl
  have hlast := (isPlace_of_place hl).last
  unfold lookups at hlast
  rcases trail_append hdir h with ⟨f, htrail⟩ | ⟨f, htrail⟩ | ⟨r, htrail⟩
  · rw [htrail] at hleads
    exact absurd hleads not_leadsTo_error
  · rw [htrail] at hleads
    exact absurd hleads not_leadsTo_error
  · rw [htrail, List.getLast?_concat] at hlast
    exact (Option.some.inj hlast).symm

/-- The place of a plain name is not met on the way to its directory. -/
theorem place_notMem_lookups
    (hdir : fs.resolve true directory.text = .ok (.present dir .directory))
    (h : IsPlain fs dir n) (hl : l ∈ fs.place? (directory / .ofString n).text) :
    l ∉ fs.lookups true directory.text := by
  intro hmem
  obtain ⟨e, he, hmet⟩ := isMet_of_lookup hdir l hmem
  have hnoDirectory := (isPlace_of_place hl).noDirectory
  have hdirectory : e ≠ .directory := by
    rintro rfl
    exact hnoDirectory he
  rcases hmet with heq | hlink | heq
  · exact hdirectory heq
  · obtain rfl := place_eq hdir h hl
    rw [h.noLink e he] at hlink
    cases hlink
  · exact hdirectory heq

end

end FileSystem

/-! ### Plain artifact names -/

namespace Artifact

open FileSystem

/-- The name under which the text of a target is staged. -/
def stagingName (n : String) : String := "." ++ n ++ ".tmp"

theorem toList_stagingName (n : String) :
    (stagingName n).toList = '.' :: (n.toList ++ ['.', 't', 'm', 'p']) := by
  unfold stagingName
  rw [String.toList_append, String.toList_append]
  rfl

theorem isName_stagingName {n : String} (h : IsName n) : IsName (stagingName n) := by
  have hlist := toList_stagingName n
  refine ⟨?_, ?_, ?_⟩
  · intro heq
    rw [heq] at hlist
    cases hlist
  · intro heq
    rw [heq] at hlist
    simp at hlist
  · rw [hlist]
    simpa using h.2.2

theorem stagingName_ne_up (n : String) : stagingName n ≠ ".." := by
  intro heq
  have hlist := toList_stagingName n
  rw [heq] at hlist
  have hlength := congrArg List.length hlist
  simp at hlength

theorem stagingPath_of_name (directory : Path) {n : String} (h : IsName n) :
    stagingPath? (directory / .ofString n) = some (directory / .ofString (stagingName n)) := by
  unfold stagingPath?
  rw [name_of_join directory h, if_neg h.1, parent_of_join directory h]
  rfl

theorem writtenPaths_of_name (directory : Path) {n : String} (h : IsName n) :
    writtenPaths (directory / .ofString n) =
      [n, stagingName n].map fun x => (directory / .ofString x).text := by
  unfold writtenPaths
  rw [stagingPath_of_name directory h]
  rfl

/-- **Targets with plain names stand apart**, if the names and those under which they are staged
    are all different and no link stands at their places. -/
theorem apart_of_plain {fs : FileSystem} {directory : Path} {dir : Location}
    {names : List String} (hdir : fs.resolve true directory.text = .ok (.present dir .directory))
    (hnames : ∀ n ∈ names, IsName n ∧ n ≠ "..")
    (hdistinct : (names.flatMap fun n => [n, stagingName n]).Nodup)
    (hlinks : ∀ x ∈ names.flatMap fun n => [n, stagingName n],
      ∀ e ∈ fs.entryAt? (dir ++ [x]), e.isLink = false) :
    Apart fs (names.map fun n => directory / .ofString n) := by
  have hplain : ∀ x ∈ names.flatMap fun n => [n, stagingName n], IsPlain fs dir x := by
    intro x hx
    obtain ⟨n, hn, hxn⟩ := List.mem_flatMap.1 hx
    obtain ⟨hname, hup⟩ := hnames n hn
    rcases List.mem_pair.1 hxn with rfl | rfl
    · exact ⟨hname, hup, hlinks _ hx⟩
    · exact ⟨isName_stagingName hname, stagingName_ne_up n, hlinks _ hx⟩
  have hwritten : (names.map fun n => directory / Path.ofString n).flatMap writtenPaths =
      (names.flatMap fun n => [n, stagingName n]).map fun x =>
        (directory / Path.ofString x).text := by
    rw [List.flatMap_map, List.map_flatMap]
    apply List.flatMap_congr
    exact fun n hn => writtenPaths_of_name directory (hnames n hn).1
  have hother : ∀ x ∈ names.flatMap (fun n => [n, stagingName n]),
      ∀ y ∈ names.flatMap (fun n => [n, stagingName n]), x ≠ y → ∀ followLast,
        ∀ l ∈ fs.place? (directory / Path.ofString x).text,
          l ∉ fs.lookups followLast (directory / Path.ofString y).text := by
    intro x hx y hy hne followLast l hl hmem
    rcases mem_lookups hdir (hplain y hy) hmem with hbase | heq
    · exact place_notMem_lookups hdir (hplain x hx) hl hbase
    · rw [place_eq hdir (hplain x hx) hl] at heq
      exact hne (by simpa using heq)
  constructor
  case independent =>
    rw [hwritten, List.pairwise_map]
    apply hdistinct.imp_of_mem
    intro x y hx hy hne followLast
    exact ⟨hother x hx y hy hne followLast, hother y hy x hx (Ne.symm hne) followLast⟩
  case once =>
    rw [hwritten]
    intro p hp l hl hmem
    obtain ⟨x, hx, rfl⟩ := List.mem_map.1 hp
    exact place_notMem_lookups hdir (hplain x hx) hl (mem_dropLast_lookups hdir (hplain x hx) hmem)
  case unlinked =>
    intro t ht l hl
    obtain ⟨n, hn, rfl⟩ := List.mem_map.1 ht
    obtain ⟨s, hs, hplace⟩ := mem_stagingPlace.1 hl
    rw [stagingPath_of_name directory (hnames n hn).1] at hs
    cases hs
    have hx : stagingName n ∈ names.flatMap fun n => [n, stagingName n] :=
      List.mem_flatMap.2 ⟨n, hn, by simp⟩
    rw [place_eq hdir (hplain _ hx) hplace]
    exact hlinks _ hx

/-- The names of the artifacts, as they are set. -/
def artifactNames (config : Config) : List String :=
  [config.dataFile.1, config.typesFile.1, config.searchIndexFile.1] ++ config.schemaFile.toList

theorem paths_inDirectory (config : Config) (directory : Path) :
    (Places.inDirectory config directory).paths =
      (artifactNames config).map fun n => directory / .ofString n := by
  unfold Places.paths Places.inDirectory artifactNames
  cases config.schemaFile <;> rfl

end Artifact

end WorkflowCatalog
