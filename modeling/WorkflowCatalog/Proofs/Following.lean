/-
  WorkflowCatalog/Proofs/Following.lean
  =====================================
  **The way to a name below a directory.**  A path that goes on behind a directory leads
  where its rest leads from there, but with fewer links left (`exists_trailFollow_append`).
  A way with more links left leads to the same (`trailFollow_mono`).  So a longer path may
  get lost where the same name, taken from its directory, does not, and never the other way
  round.

  `directoryAt?` is the directory that a name leads to from its own directory, and
  `WellFormed` says which file systems there are.  Main statement: a name that is tested by
  the path of a search leads to a directory only if it does so from its own directory, and
  to the same (`directoryAt_of_find_below`).
-/
import Mathlib.Data.List.Nodup
import WorkflowCatalog.Manifest.Discovery
import WorkflowCatalog.Proofs.PlainNames

namespace WorkflowCatalog.FileSystem

variable {fs : FileSystem} {followLast : Bool} {onLink onLink' : Location → List String → Trail}
  {here loc l dir : Location} {n : String} {names rest : List String} {t : Target}

/-! ### Ways in two parts -/

/-- A way that has reached a directory goes on from there, or is left to a link on it. -/
theorem trailAlong_onward (rest : List String)
    (h : (trailAlong fs true onLink here names).2 = .ok (.present dir .directory)) :
    (trailAlong fs true onLink here (names ++ rest)).2 = (trailAlong fs true onLink dir rest).2 ∨
      ∃ here' names', (onLink here' names').2 = .ok (.present dir .directory) ∧
        (trailAlong fs true onLink here (names ++ rest)).2 =
          (onLink here' (names' ++ rest)).2 := by
  induction names generalizing here with
  | nil =>
    cases h
    exact .inl rfl
  | cons m names ih =>
    rcases name_cases m with rfl | rfl | hm | hm
    · exact ih h
    · exact ih h
    · rw [trailAlong_long hm] at h
      cases h
    rw [trailAlong_name hm] at h
    rw [List.cons_append, trailAlong_name hm]
    dsimp only at h ⊢
    rcases onward_cases h with ⟨-, -, hend⟩ | ⟨hentry, hway⟩ | ⟨target, hentry, -, hempty, hway⟩
    · generalize fs.entryAt? (here ++ [m]) = found at hend
      cases hend with
      | present e he => exact absurd rfl he
    · rw [hway] at h
      rw [hentry]
      exact ih h
    · rw [hway] at h
      have hlast : ¬ (names ++ rest = [] ∧ true = false) := by simp
      rw [hentry, onward_link hlast hempty, ← List.append_assoc]
      exact .inr ⟨_, _, h, rfl⟩

/-- **A way in two parts.**  The second part begins where the first has led, with the links
    that are left. -/
theorem exists_trailFollow_append {fuel : Nat} (rest : List String)
    (h : (trailFollow fs true fuel here names).2 = .ok (.present dir .directory)) :
    ∃ left ≤ fuel, (trailFollow fs true fuel here (names ++ rest)).2 =
      (trailFollow fs true left dir rest).2 := by
  induction fuel generalizing here names with
  | zero =>
    rcases trailAlong_onward rest h with hon | ⟨_, _, hlink, -⟩
    · exact ⟨0, Nat.le_refl 0, hon⟩
    · cases hlink
  | succ fuel ih =>
    rcases trailAlong_onward rest h with hon | ⟨_, _, hlink, hon⟩
    · exact ⟨fuel + 1, Nat.le_refl _, hon⟩
    · obtain ⟨left, hle, hleft⟩ := ih hlink
      exact ⟨left, Nat.le_succ_of_le hle, hon.trans hleft⟩

theorem trailAlong_mono
    (hlink : ∀ here names t, (onLink here names).2 = .ok t → (onLink' here names).2 = .ok t)
    (h : (trailAlong fs followLast onLink here names).2 = .ok t) :
    (trailAlong fs followLast onLink' here names).2 = .ok t := by
  induction names generalizing here with
  | nil => exact h
  | cons m rest ih =>
    rcases name_cases m with rfl | rfl | hm | hm
    · exact ih h
    · exact ih h
    · rw [trailAlong_long hm] at h
      cases h
    rw [trailAlong_name hm] at h ⊢
    dsimp only at h ⊢
    rcases hentry : fs.entryAt? (here ++ [m]) with _ | bytes | _ | target
    · rw [hentry] at h
      exact h
    · rw [hentry] at h
      exact h
    · rw [hentry] at h
      exact ih h
    · rw [hentry] at h
      dsimp only [onward] at h ⊢
      by_cases hlast : rest = [] ∧ followLast = false
      · rw [if_pos hlast] at h ⊢
        exact h
      rw [if_neg hlast] at h ⊢
      by_cases hempty : target = ""
      · rw [if_pos hempty] at h
        cases h
      rw [if_neg hempty] at h ⊢
      exact hlink _ _ _ h

/-- **More links do no harm.** -/
theorem trailFollow_mono {fuel more : Nat} (hle : fuel ≤ more)
    (h : (trailFollow fs followLast fuel here names).2 = .ok t) :
    (trailFollow fs followLast more here names).2 = .ok t := by
  induction fuel generalizing more here names t with
  | zero =>
    cases more with
    | zero => exact h
    | succ more => exact trailAlong_mono (fun _ _ _ he => by cases he) h
  | succ fuel ih =>
    cases more with
    | zero => exact absurd hle (Nat.not_succ_le_zero _)
    | succ more => exact trailAlong_mono (fun _ _ _ => ih (Nat.le_of_succ_le_succ hle)) h

/-! ### File systems as they are -/

/-- A name that an entry can have. -/
structure IsEntryName (n : String) : Prop where
  isName : IsName n
  ne_up : n ≠ ".."
  noNul : n.toList.contains '\x00' = false
  isShort : n.utf8ByteSize ≤ maxNameBytes

instance (n : String) : Decidable (IsEntryName n) :=
  decidable_of_iff (IsName n ∧ n ≠ ".." ∧ n.toList.contains '\x00' = false ∧
      n.utf8ByteSize ≤ maxNameBytes)
    ⟨fun ⟨h₁, h₂, h₃, h₄⟩ => ⟨h₁, h₂, h₃, h₄⟩, fun ⟨h₁, h₂, h₃, h₄⟩ => ⟨h₁, h₂, h₃, h₄⟩⟩

/-- No location has two entries, every entry has a name and stands in a directory, and the
    working directory is a directory. -/
structure WellFormed (fs : FileSystem) : Prop where
  nodup : (fs.entries.map (·.1)).Nodup
  ne_root : ∀ e ∈ fs.entries, e.1 ≠ []
  isEntryName : ∀ e ∈ fs.entries, IsEntryName (e.1.headD "")
  inDirectory : ∀ e ∈ fs.entries, fs.entryAt? e.1.tail.reverse = some .directory
  workingDirectory : fs.entryAt? fs.workingDirectory = some .directory

instance (fs : FileSystem) : Decidable fs.WellFormed :=
  decidable_of_iff ((fs.entries.map (·.1)).Nodup ∧ (∀ e ∈ fs.entries, e.1 ≠ []) ∧
      (∀ e ∈ fs.entries, IsEntryName (e.1.headD "")) ∧
      (∀ e ∈ fs.entries, fs.entryAt? e.1.tail.reverse = some .directory) ∧
      fs.entryAt? fs.workingDirectory = some .directory)
    ⟨fun ⟨h₁, h₂, h₃, h₄, h₅⟩ => ⟨h₁, h₂, h₃, h₄, h₅⟩,
      fun ⟨h₁, h₂, h₃, h₄, h₅⟩ => ⟨h₁, h₂, h₃, h₄, h₅⟩⟩

theorem mem_entries_of_entryAt {e : Entry} (hloc : loc ≠ []) (h : fs.entryAt? loc = some e) :
    (loc.reverse, e) ∈ fs.entries := by
  unfold entryAt? entryUp? at h
  rw [if_neg hloc, Option.map_eq_some_iff] at h
  obtain ⟨⟨up, e'⟩, hfind, rfl⟩ := h
  have heq : up = loc.reverse := by simpa using List.find?_some hfind
  subst heq
  exact List.mem_of_find?_eq_some hfind

/-- Entries that stand at different locations are found at their locations. -/
theorem entryAt_eq_some_iff (hnodup : (fs.entries.map (·.1)).Nodup) {e : Entry} (hloc : loc ≠ []) :
    fs.entryAt? loc = some e ↔ (loc.reverse, e) ∈ fs.entries := by
  refine ⟨mem_entries_of_entryAt hloc, ?_⟩
  intro hmem
  unfold entryAt? entryUp?
  rw [if_neg hloc, Option.map_eq_some_iff]
  cases hfind : fs.entries.find? (·.1 == loc.reverse) with
  | none =>
    have hnone := List.find?_eq_none.1 hfind _ hmem
    simp at hnone
  | some e' =>
    have hat : e'.1 = loc.reverse := by simpa using List.find?_some hfind
    have hmem' : e' ∈ fs.entries := List.mem_of_find?_eq_some hfind
    have heq : e' = (loc.reverse, e) := List.inj_on_of_nodup_map hnodup hmem' hmem hat
    exact ⟨e', rfl, by rw [heq]⟩

/-- An entry stands in a directory. -/
theorem directory_of_entryAt (hfs : fs.WellFormed) {e : Entry} (hloc : loc ≠ [])
    (h : fs.entryAt? loc = some e) : fs.entryAt? loc.dropLast = some .directory := by
  have habove := hfs.inDirectory _ (mem_entries_of_entryAt hloc h)
  rwa [List.tail_reverse, List.reverse_reverse] at habove

/-- The directory above a directory is one. -/
theorem entryAt_dropLast (hfs : fs.WellFormed) (h : fs.entryAt? loc = some .directory) :
    fs.entryAt? loc.dropLast = some .directory := by
  by_cases hloc : loc = []
  · subst hloc
    exact h
  · exact directory_of_entryAt hfs hloc h

/-- The root directory is one. -/
theorem entryAt_root : fs.entryAt? [] = some .directory := if_pos rfl

/-! ### What stands at the end of a way -/

theorem trailAlong_entryAt (hfs : fs.WellFormed)
    (hlink : ∀ here names, fs.entryAt? here = some .directory → ∀ l e,
      (onLink here names).2 = .ok (.present l e) → fs.entryAt? l = some e)
    (hhere : fs.entryAt? here = some .directory) {e : Entry}
    (h : (trailAlong fs followLast onLink here names).2 = .ok (.present l e)) :
    fs.entryAt? l = some e := by
  induction names generalizing here with
  | nil =>
    cases h
    exact hhere
  | cons m rest ih =>
    rcases name_cases m with rfl | rfl | hm | hm
    · exact ih hhere h
    · exact ih (entryAt_dropLast hfs hhere) h
    · rw [trailAlong_long hm] at h
      cases h
    rw [trailAlong_name hm] at h
    dsimp only at h
    rcases onward_cases h with ⟨-, -, hend⟩ | ⟨hentry, hway⟩ | ⟨target, -, -, -, hway⟩
    · generalize hfound : fs.entryAt? (here ++ [m]) = found at hend
      cases hend with
      | present e he => exact hfound
    · rw [hway] at h
      exact ih hentry h
    · rw [hway] at h
      refine hlink _ _ ?_ _ _ h
      by_cases hslash : target.toList.head? = some '/'
      · rw [if_pos hslash]
        exact entryAt_root
      · rw [if_neg hslash]
        exact hhere

/-- **A way from a directory ends at what stands there.** -/
theorem trailFollow_entryAt (hfs : fs.WellFormed) {fuel : Nat}
    (hhere : fs.entryAt? here = some .directory) {e : Entry}
    (h : (trailFollow fs followLast fuel here names).2 = .ok (.present l e)) :
    fs.entryAt? l = some e := by
  induction fuel generalizing here names l e with
  | zero => exact trailAlong_entryAt hfs (fun _ _ _ _ _ he => by cases he) hhere h
  | succ fuel ih => exact trailAlong_entryAt hfs (fun _ _ hhere _ _ he => ih hhere he) hhere h

/-! ### Names in a directory -/

theorem nameBelow_eq_some {up names : List String} {n : String} :
    nameBelow? up names = some n ↔ names = n :: up := by
  cases names with
  | nil => simp [nameBelow?]
  | cons m above =>
    unfold nameBelow?
    rw [Option.ite_none_right_eq_some, beq_iff_eq, Option.some.injEq, List.cons.injEq, and_comm]

theorem mem_namesIn (hfs : fs.WellFormed) :
    n ∈ fs.namesIn loc ↔ ∃ e, fs.entryAt? (loc ++ [n]) = some e := by
  have hne : loc ++ [n] ≠ [] := by simp
  unfold namesIn
  rw [List.mem_filterMap]
  constructor
  · rintro ⟨⟨names, e⟩, hmem, hname⟩
    rw [nameBelow_eq_some, ← List.reverse_concat] at hname
    dsimp only at hname
    subst hname
    exact ⟨e, (entryAt_eq_some_iff hfs.nodup hne).2 hmem⟩
  · rintro ⟨e, he⟩
    refine ⟨_, mem_entries_of_entryAt hne he, nameBelow_eq_some.2 ?_⟩
    rw [List.reverse_concat]

theorem isEntryName_of_mem_namesIn (hfs : fs.WellFormed) (h : n ∈ fs.namesIn loc) :
    IsEntryName n := by
  obtain ⟨e, he⟩ := (mem_namesIn hfs).1 h
  have hname := hfs.isEntryName _ (mem_entries_of_entryAt (by simp) he)
  simpa using hname

/-- The names in a directory are different. -/
theorem nodup_namesIn (hfs : fs.WellFormed) : (fs.namesIn loc).Nodup := by
  have hnames : fs.namesIn loc = (fs.entries.map (·.1)).filterMap (nameBelow? loc.reverse) := by
    rw [List.filterMap_map]
    rfl
  rw [hnames]
  refine hfs.nodup.filterMap ?_
  intro up up' n hn hn'
  rw [Option.mem_def, nameBelow_eq_some] at hn hn'
  rw [hn, hn']

/-! ### Where a name leads -/

/-- The directory that a name in a directory leads to, links followed, if it leads to one. -/
def directoryAt? (fs : FileSystem) (dir : Location) (n : String) : Option Location :=
  match fs.follow true maxLinks dir [n] with
  | .ok (.present l .directory) => some l
  | _ => none

theorem directoryAt_eq_some :
    fs.directoryAt? dir n = some l ↔
      (trailFollow fs true maxLinks dir [n]).2 = .ok (.present l .directory) := by
  unfold directoryAt?
  rw [trailFollow_snd]
  split
  · rename_i l' h
    rw [h]
    simp
  · rename_i h
    simp only [reduceCtorEq, false_iff]
    intro hl
    exact h l hl

theorem IsEntryName.isLookedUp (h : IsEntryName n) : IsLookedUp n where
  ne_dot := h.isName.2.1
  ne_up := h.ne_up
  isShort := Nat.not_lt.2 h.isShort

/-- A directory leads to itself. -/
theorem directoryAt_directory (hn : IsEntryName n)
    (h : fs.entryAt? (dir ++ [n]) = some .directory) :
    fs.directoryAt? dir n = some (dir ++ [n]) := by
  rw [directoryAt_eq_some]
  unfold maxLinks trailFollow
  rw [trailAlong_name hn.isLookedUp, h]
  rfl

/-- A file leads to no directory. -/
theorem directoryAt_file (hn : IsEntryName n) {bytes : ByteArray}
    (h : fs.entryAt? (dir ++ [n]) = some (.file bytes)) : fs.directoryAt? dir n = none := by
  rw [Option.eq_none_iff_forall_ne_some]
  intro l hl
  rw [directoryAt_eq_some] at hl
  unfold maxLinks trailFollow at hl
  rw [trailAlong_name hn.isLookedUp, h] at hl
  cases hl

end WorkflowCatalog.FileSystem

/-! ### The texts of a search -/

namespace WorkflowCatalog.Path

variable {q : Path} {n : String} {names : List String}

theorem joinNames_concat (h : names ≠ []) :
    joinNames (names ++ [n]) = joinNames names ++ "/" ++ n := by
  induction names with
  | nil => exact absurd rfl h
  | cons m rest ih =>
    by_cases hrest : rest = []
    · subst hrest
      rfl
    · rw [List.cons_append, joinNames_cons (by simp), ih hrest, joinNames_cons hrest]
      simp only [String.append_assoc]

/-- The text of a path with one name more. -/
theorem text_join_name (h : q.names ≠ []) (hn : IsName n) :
    (q / ofString n).text = q.text ++ "/" ++ n := by
  obtain ⟨hanchor, hnames⟩ := FileSystem.join_name q hn
  rw [text_of_names (by simp [hnames]), hanchor, hnames, joinNames_concat h, text_of_names h]
  simp only [String.append_assoc]

theorem text_ne_empty (h : q.names ≠ []) : q.text.toList ≠ [] := by
  rw [text_of_names h, String.toList_append]
  exact List.append_ne_nil_of_right_ne_nil _ (toList_joinNames_ne_nil q.names_ok h)

end WorkflowCatalog.Path

namespace WorkflowCatalog.Manifest

open FileSystem

/-- The text under which a search comes to the directory of a path: below the working
    directory it begins with a dot. -/
inductive IsTextOf : String → Path → Prop where
  | plain (q : Path) : IsTextOf q.text q
  | dotted {q : Path} (hanchor : q.anchor = .relative) (hnames : q.names ≠ []) :
    IsTextOf ("./" ++ q.text) q

variable {fs : FileSystem} {q : Path} {d n : String} {loc l : Location}

/-- The text of a path without names is a dot, or ends in a slash. -/
theorem text_of_no_names (h : q.names = []) :
    (q.anchor = .relative ∧ q.text = ".") ∨
      (q.text.toList.getLast? = some '/' ∧ q.text = q.anchor.text) := by
  obtain ⟨a, ns, hns⟩ := q
  subst h
  cases a with
  | relative => exact .inl ⟨rfl, rfl⟩
  | root => exact .inr ⟨(by decide : ("/").toList.getLast? = some '/'), rfl⟩
  | doubleRoot => exact .inr ⟨(by decide : ("//").toList.getLast? = some '/'), rfl⟩

theorem below_of_getLast (h : d.toList.getLast? ≠ some '/') : below d n = d ++ "/" ++ n :=
  if_neg h

theorem getLast_dotted (h : q.names ≠ []) : ("./" ++ q.text).toList.getLast? ≠ some '/' := by
  rw [String.toList_append, List.getLast?_append_of_ne_nil _ (Path.text_ne_empty h)]
  exact Path.getLast_text h

/-- **The text of a directory with one name more.** -/
theorem IsTextOf.below (h : IsTextOf d q) (hn : IsName n) :
    IsTextOf (below d n) (q / Path.ofString n) := by
  obtain ⟨hanchor, hnames⟩ := join_name q hn
  have hne : (q / Path.ofString n).names ≠ [] := by simp [hnames]
  cases h with
  | plain =>
    by_cases hempty : q.names = []
    · have htext : (q / Path.ofString n).text = q.anchor.text ++ n := by
        rw [Path.text_of_names hne, hanchor, hnames, hempty]
        rfl
      rcases text_of_no_names hempty with ⟨hrelative, hdot⟩ | ⟨hslash, hanchored⟩
      · rw [hdot, below_of_getLast (by decide), show "." ++ "/" ++ n = "./" ++ n from rfl]
        rw [hrelative] at htext
        have hn' : n = (q / Path.ofString n).text := by
          rw [htext]
          exact String.empty_append.symm
        nth_rewrite 1 [hn']
        exact .dotted (hanchor.trans hrelative) hne
      · rw [Manifest.below, if_pos hslash, hanchored, ← htext]
        exact .plain _
    · rw [below_of_getLast (Path.getLast_text hempty), ← Path.text_join_name hempty hn]
      exact .plain _
  | dotted hrelative hempty =>
    have hbelow : Manifest.below ("./" ++ q.text) n = "./" ++ (q / Path.ofString n).text := by
      rw [below_of_getLast (getLast_dotted hempty), Path.text_join_name hempty hn]
      simp only [String.append_assoc]
    rw [hbelow]
    exact .dotted (hanchor.trans hrelative) hne

theorem components_dotted (t : String) :
    Path.components ("./" ++ t) = "." :: Path.components t := by
  unfold Path.components
  rw [String.toList_append]
  change (Text.splitOn '/' (['.'] ++ '/' :: t.toList)).map String.ofList = _
  rw [Text.splitOn_append (by decide)]
  rfl

/-- A text tells the path. -/
theorem IsTextOf.ofString_eq (h : IsTextOf d q) : Path.ofString d = q := by
  cases h with
  | plain => exact Path.ofString_text q
  | dotted hanchor hnames =>
    have hq : (Path.components q.text).filter (fun n => decide (IsName n)) = q.names :=
      congrArg Path.names (Path.ofString_text q)
    refine Path.eq_of_parts ?_ ?_
    · rw [hanchor]
      change Path.anchorOf ("./" ++ q.text).toList = .relative
      rw [String.toList_append]
      rfl
    · change (Path.components ("./" ++ q.text)).filter (fun n => decide (IsName n)) = q.names
      rw [components_dotted, List.filter_cons_of_neg (by decide)]
      exact hq

/-! ### Where a search comes to -/

theorem find_eq_ok {followLast : Bool} {e : Entry} :
    fs.find followLast d = .ok (loc, e) ↔ (fs.trail followLast d).2 = .ok (.present loc e) := by
  rw [trail_snd]
  unfold find
  rcases fs.resolve followLast d with f | t
  · simp [bind, Except.bind]
  · cases t <;> simp [bind, Except.bind]

theorem listDirectory_eq_ok {names : List String} :
    fs.listDirectory d = .ok (loc, names) ↔
      fs.find true d = .ok (loc, .directory) ∧ names = fs.namesIn loc := by
  unfold listDirectory
  rcases fs.find true d with f | ⟨loc', e⟩
  · simp [bind, Except.bind]
  · cases e <;> simp +contextual [bind, Except.bind, eq_comm]

/-- What a path leads to stands where it leads. -/
theorem entryAt_of_find (hfs : fs.WellFormed) {followLast : Bool} {e : Entry}
    (h : fs.find followLast d = .ok (loc, e)) : fs.entryAt? loc = some e := by
  rw [find_eq_ok] at h
  rcases trail_cases d with ⟨f, hnowhere⟩ | hway
  · rw [hnowhere] at h
    cases h
  · rw [hway] at h
    refine trailFollow_entryAt hfs ?_ h
    by_cases hslash : d.toList.head? = some '/'
    · rw [if_pos hslash]
      exact entryAt_root
    · rw [if_neg hslash]
      exact hfs.workingDirectory

/-- Where the way of a path begins. -/
def startOf (fs : FileSystem) (q : Path) : Location :=
  if q.anchor = .relative then fs.workingDirectory else []

theorem IsTextOf.start (h : IsTextOf d q) :
    (if d.toList.head? = some '/' then [] else fs.workingDirectory) = startOf fs q := by
  unfold startOf
  cases h with
  | plain =>
    by_cases hanchor : q.anchor = .relative
    · rw [if_pos hanchor, if_neg (mt (Path.head_text q).1 (not_not_intro hanchor))]
    · rw [if_neg hanchor, if_pos ((Path.head_text q).2 hanchor)]
  | dotted hanchor hnames =>
    have hhead : ("./" ++ q.text).toList.head? ≠ some '/' := by
      rw [String.toList_append]
      change some '.' ≠ some '/'
      decide
    rw [if_pos hanchor, if_neg hhead]

theorem IsTextOf.trailFollow_eq {followLast : Bool} {here : Location} (h : IsTextOf d q) :
    trailFollow fs followLast maxLinks here (pathNames d) =
      trailFollow fs followLast maxLinks here q.names := by
  cases h with
  | plain => exact trailFollow_pathNames here q
  | dotted hanchor hnames =>
    have hpath : pathNames ("./" ++ q.text) = "." :: q.names := by
      unfold pathNames
      rw [if_neg (getLast_dotted hnames), components_dotted, List.filter_cons_of_pos (by decide),
        Path.components_text hnames]
    rw [hpath]
    rfl

/-- **The way of a search goes along the names of its path.** -/
theorem IsTextOf.way {e : Entry} (h : IsTextOf d q) (hfind : fs.find true d = .ok (loc, e)) :
    (trailFollow fs true maxLinks (startOf fs q) q.names).2 = .ok (.present loc e) := by
  rw [find_eq_ok] at hfind
  rcases trail_cases d with ⟨f, hnowhere⟩ | hway
  · rw [hnowhere] at hfind
    cases hfind
  · rwa [hway, h.start, h.trailFollow_eq] at hfind

/-- A path leads to where the search has come under its text. -/
theorem IsTextOf.find_text {e : Entry} (h : IsTextOf d q)
    (hfind : fs.find true d = .ok (loc, e)) : fs.find true q.text = .ok (loc, e) := by
  cases h with
  | plain => exact hfind
  | dotted hanchor hnames =>
    have hway := (IsTextOf.dotted hanchor hnames).way hfind
    rw [find_eq_ok] at hfind ⊢
    unfold trail at hfind
    -- a text without the dot is shorter and holds nothing else
    have hnul : ¬ q.text.toList.contains '\x00' = true := by
      intro hnul
      rw [if_pos] at hfind
      · cases hfind
      · rw [String.toList_append, List.contains_eq_mem, decide_eq_true_eq]
        rw [List.contains_eq_mem, decide_eq_true_eq] at hnul
        exact List.mem_append_right _ hnul
    have hempty : q.text ≠ "" := by
      intro hempty
      exact Path.text_ne_empty hnames (by rw [hempty]; rfl)
    have hshort : ¬ maxPathBytes ≤ q.text.utf8ByteSize := by
      intro hlong
      have hlonger : maxPathBytes ≤ ("./" ++ q.text).utf8ByteSize := by
        rw [String.utf8ByteSize_append]
        omega
      rw [if_pos hlonger] at hfind
      split at hfind
      · cases hfind
      · split at hfind <;> cases hfind
    unfold trail
    rw [if_neg hnul, if_neg hempty, if_neg hshort, (IsTextOf.plain q).start,
      (IsTextOf.plain q).trailFollow_eq]
    exact hway

/-- **A name that the search comes to leads there from its own directory.** -/
theorem directoryAt_of_find_below (h : IsTextOf d q)
    (hd : fs.find true d = .ok (loc, .directory)) (hn : IsName n)
    (hl : fs.find true (below d n) = .ok (l, .directory)) : fs.directoryAt? loc n = some l := by
  obtain ⟨hanchor, hnames⟩ := join_name q hn
  have hway := (h.below hn).way hl
  have hstart : startOf fs (q / Path.ofString n) = startOf fs q := by
    unfold startOf
    rw [hanchor]
  rw [hstart, hnames] at hway
  obtain ⟨left, hle, hleft⟩ := exists_trailFollow_append [n] (h.way hd)
  rw [hleft] at hway
  rw [directoryAt_eq_some]
  exact trailFollow_mono hle hway

/-- What is taken for a directory leads to one. -/
theorem exists_directoryAt (h : IsTextOf d q) (hd : fs.find true d = .ok (loc, .directory))
    (hn : IsEntryName n) (hdir : fs.isDirectoryEntry loc (below d n) n = true) :
    ∃ l, fs.directoryAt? loc n = some l := by
  unfold isDirectoryEntry at hdir
  split at hdir
  · rename_i hentry
    exact ⟨_, directoryAt_directory hn hentry⟩
  · split at hdir
    · rename_i l hfind
      exact ⟨l, directoryAt_of_find_below h hd hn.isName hfind⟩
    · cases hdir
  · cases hdir

end WorkflowCatalog.Manifest
