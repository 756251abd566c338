/-
  WorkflowCatalog/Proofs/Resolution.lean
  ======================================
  **What a path leads to depends only on the locations that are looked up on the way.**
  `trail` is resolution with a record of these locations, in order.  A change of the
  file system elsewhere changes neither the way nor its end (`trail_congr`); a change
  at the last location, in an otherwise equal file system, changes the end only
  (`trail_of_place`).

  The *place* of a path is the location where the entry stands that it leads to, or where
  an entry can be put; a path that leads to a directory or nowhere has none (`place?`).
-/
import WorkflowCatalog.FileSystem.Operations

namespace WorkflowCatalog

/-- Is the entry a link? -/
def Entry.isLink : Entry → Bool
  | .link _ => true
  | _ => false

namespace FileSystem

/-! ### Trails -/

/-- The locations that are looked up, and the end of the way. -/
abbrev Trail := List Location × Except Fault Target

/-- The way on after a look at the entry of a name: `goOn` enters a directory, and `onLink`
    follows a link. -/
def onward (followLast : Bool) (onLink : Location → List String → Trail) (goOn : Trail)
    (here : Location) (n : String) (rest : List String) : Option Entry → Trail
  | none => ([], if rest = [] then .ok (.absent here n) else .error .notFound)
  | some .directory => goOn
  | some (.file bytes) =>
    ([], if rest = [] then .ok (.present (here ++ [n]) (.file bytes)) else .error .notDirectory)
  | some (.link target) =>
    if rest = [] ∧ followLast = false then ([], .ok (.present (here ++ [n]) (.link target)))
    else if target = "" then ([], .error .notFound)
    else onLink (if target.toList.head? = some '/' then [] else here) (pathNames target ++ rest)

/-- `along` with a record of the locations that are looked up. -/
def trailAlong (fs : FileSystem) (followLast : Bool) (onLink : Location → List String → Trail) :
    Location → List String → Trail
  | here, [] => ([], .ok (.present here .directory))
  | here, n :: rest =>
    if n = "." then trailAlong fs followLast onLink here rest
    else if n = ".." then trailAlong fs followLast onLink here.dropLast rest
    else if maxNameBytes < n.utf8ByteSize then ([], .error .nameTooLong)
    else
      let next := onward followLast onLink (trailAlong fs followLast onLink (here ++ [n]) rest)
        here n rest (fs.entryAt? (here ++ [n]))
      ((here ++ [n]) :: next.1, next.2)

/-- `follow` with a record of the locations that are looked up. -/
def trailFollow (fs : FileSystem) (followLast : Bool) : Nat → Location → List String → Trail
  | 0 => trailAlong fs followLast fun _ _ => ([], .error .tooManyLinks)
  | n + 1 => trailAlong fs followLast (trailFollow fs followLast n)

/-- `resolve` with a record of the locations that are looked up. -/
def trail (fs : FileSystem) (followLast : Bool) (path : String) : Trail :=
  if path.toList.contains '\x00' then ([], .error .nulInPath)
  else if path = "" then ([], .error .notFound)
  else if maxPathBytes ≤ path.utf8ByteSize then ([], .error .nameTooLong)
  else
    trailFollow fs followLast maxLinks
      (if path.toList.head? = some '/' then [] else fs.workingDirectory) (pathNames path)

/-- The locations that are looked up for a path. -/
def lookups (fs : FileSystem) (followLast : Bool) (path : String) : List Location :=
  (fs.trail followLast path).1

/-! ### Single names -/

/-- A name that is looked up. -/
structure IsLookedUp (n : String) : Prop where
  ne_dot : n ≠ "."
  ne_up : n ≠ ".."
  isShort : ¬ maxNameBytes < n.utf8ByteSize

section

variable {fs fs' : FileSystem} {followLast : Bool} {onLink onLink' : Location → List String → Trail}
  {here : Location} {n : String} {rest names : List String}

theorem name_cases (n : String) :
    n = "." ∨ n = ".." ∨ (n ≠ "." ∧ n ≠ ".." ∧ maxNameBytes < n.utf8ByteSize) ∨ IsLookedUp n := by
  by_cases hdot : n = "."
  · exact .inl hdot
  by_cases hup : n = ".."
  · exact .inr (.inl hup)
  by_cases hlong : maxNameBytes < n.utf8ByteSize
  · exact .inr (.inr (.inl ⟨hdot, hup, hlong⟩))
  · exact .inr (.inr (.inr ⟨hdot, hup, hlong⟩))

theorem trailAlong_long (h : n ≠ "." ∧ n ≠ ".." ∧ maxNameBytes < n.utf8ByteSize) :
    trailAlong fs followLast onLink here (n :: rest) = ([], .error .nameTooLong) := by
  rw [trailAlong, if_neg h.1, if_neg h.2.1, if_pos h.2.2]

theorem trailAlong_name (h : IsLookedUp n) :
    trailAlong fs followLast onLink here (n :: rest) =
      ((here ++ [n]) :: (onward followLast onLink (trailAlong fs followLast onLink (here ++ [n]) rest)
          here n rest (fs.entryAt? (here ++ [n]))).1,
        (onward followLast onLink (trailAlong fs followLast onLink (here ++ [n]) rest)
          here n rest (fs.entryAt? (here ++ [n]))).2) := by
  rw [trailAlong, if_neg h.ne_dot, if_neg h.ne_up, if_neg h.isShort]

/-- What a way ends in at a name, whatever the ways from there. -/
inductive EndsAt (here : Location) (n : String) : Option Entry → Target → Prop where
  | absent : EndsAt here n none (.absent here n)
  | present (e : Entry) : e ≠ .directory → EndsAt here n (some e) (.present (here ++ [n]) e)

/-- What happens at a name of a way that has an end: the way ends, or a directory is entered,
    or a link is followed. -/
theorem onward_cases {goOn : Trail} {found : Option Entry} {t : Target}
    (h : (onward followLast onLink goOn here n rest found).2 = .ok t) :
    (rest = [] ∧ onward followLast onLink goOn here n rest found = ([], .ok t) ∧
        EndsAt here n found t) ∨
      (found = some .directory ∧ onward followLast onLink goOn here n rest found = goOn) ∨
      ∃ target, found = some (.link target) ∧ ¬ (rest = [] ∧ followLast = false) ∧ target ≠ "" ∧
        onward followLast onLink goOn here n rest found =
          onLink (if target.toList.head? = some '/' then [] else here)
            (pathNames target ++ rest) := by
  rcases found with _ | bytes | _ | target
  · dsimp only [onward] at h ⊢
    by_cases hrest : rest = []
    · rw [if_pos hrest] at h ⊢
      cases h
      exact .inl ⟨hrest, rfl, .absent⟩
    · rw [if_neg hrest] at h
      cases h
  · dsimp only [onward] at h ⊢
    by_cases hrest : rest = []
    · rw [if_pos hrest] at h ⊢
      cases h
      exact .inl ⟨hrest, rfl, .present _ nofun⟩
    · rw [if_neg hrest] at h
      cases h
  · exact .inr (.inl ⟨rfl, rfl⟩)
  · dsimp only [onward] at h ⊢
    by_cases hlast : rest = [] ∧ followLast = false
    · rw [if_pos hlast] at h ⊢
      cases h
      exact .inl ⟨hlast.1, rfl, .present _ nofun⟩
    rw [if_neg hlast] at h ⊢
    by_cases hempty : target = ""
    · rw [if_pos hempty] at h
      cases h
    rw [if_neg hempty]
    exact .inr (.inr ⟨target, rfl, hlast, hempty, rfl⟩)

theorem onward_link {goOn : Trail} {target : String} (hlast : ¬ (rest = [] ∧ followLast = false))
    (hempty : target ≠ "") :
    onward followLast onLink goOn here n rest (some (.link target)) =
      onLink (if target.toList.head? = some '/' then [] else here) (pathNames target ++ rest) := by
  dsimp only [onward]
  rw [if_neg hlast, if_neg hempty]

/-! ### The end of the way -/

theorem trailAlong_snd {follow : Location → List String → Except Fault Target}
    (hlink : ∀ here names, (onLink here names).2 = follow here names) :
    (trailAlong fs followLast onLink here names).2 =
      along fs followLast follow here.reverse names := by
  induction names generalizing here with
  | nil =>
    rw [along, List.reverse_reverse]
    rfl
  | cons n rest ih =>
    rcases name_cases n with rfl | rfl | h | h
    · exact ih
    · change (trailAlong fs followLast onLink here.dropLast rest).2 =
        along fs followLast follow here.reverse.tail rest
      rw [ih, List.tail_reverse]
    · rw [trailAlong_long h, along, if_neg h.1, if_neg h.2.1, if_pos h.2.2]
    · have hhere : (n :: here.reverse).reverse = here ++ [n] := by simp
      rw [trailAlong_name h, along, if_neg h.ne_dot, if_neg h.ne_up, if_neg h.isShort,
        ← entryAt_concat, List.reverse_reverse, hhere]
      rcases fs.entryAt? (here ++ [n]) with _ | _ | _ | target
      · rfl
      · rfl
      · dsimp only [onward]
        rw [ih, List.reverse_concat]
      · dsimp only [onward]
        rw [apply_ite Prod.snd, apply_ite Prod.snd, hlink]

theorem trailFollow_snd (fs : FileSystem) (followLast : Bool) (fuel : Nat) (here : Location)
    (names : List String) :
    (trailFollow fs followLast fuel here names).2 = follow fs followLast fuel here names := by
  induction fuel generalizing here names with
  | zero => exact trailAlong_snd fun _ _ => rfl
  | succ fuel ih => exact trailAlong_snd ih

/-- **The end of the way is what the path leads to.** -/
theorem trail_snd (fs : FileSystem) (followLast : Bool) (path : String) :
    (fs.trail followLast path).2 = fs.resolve followLast path := by
  unfold trail resolve
  rw [apply_ite Prod.snd, apply_ite Prod.snd, apply_ite Prod.snd, trailFollow_snd]

/-! ### Changes elsewhere -/

theorem trailAlong_congr
    (hlink : ∀ here names, (∀ l ∈ (onLink here names).1, fs'.entryAt? l = fs.entryAt? l) →
      onLink' here names = onLink here names)
    (h : ∀ l ∈ (trailAlong fs followLast onLink here names).1, fs'.entryAt? l = fs.entryAt? l) :
    trailAlong fs' followLast onLink' here names = trailAlong fs followLast onLink here names := by
  induction names generalizing here with
  | nil => rfl
  | cons n rest ih =>
    rcases name_cases n with rfl | rfl | hn | hn
    · exact ih h
    · exact ih h
    · rw [trailAlong_long hn, trailAlong_long hn]
    · rw [trailAlong_name hn] at h ⊢
      rw [trailAlong_name hn, h (here ++ [n]) List.mem_cons_self]
      have hrest := fun l hl => h l (List.mem_cons_of_mem _ hl)
      rcases hentry : fs.entryAt? (here ++ [n]) with _ | _ | _ | target
      · rfl
      · rfl
      · rw [hentry] at hrest
        dsimp only [onward] at hrest ⊢
        rw [ih hrest]
      · rw [hentry] at hrest
        dsimp only [onward] at hrest ⊢
        by_cases hlast : rest = [] ∧ followLast = false
        · rw [if_pos hlast, if_pos hlast]
        rw [if_neg hlast] at hrest ⊢
        rw [if_neg hlast]
        by_cases hempty : target = ""
        · rw [if_pos hempty, if_pos hempty]
        rw [if_neg hempty] at hrest ⊢
        rw [if_neg hempty, hlink _ _ hrest]

theorem trailFollow_congr {fuel : Nat}
    (h : ∀ l ∈ (trailFollow fs followLast fuel here names).1, fs'.entryAt? l = fs.entryAt? l) :
    trailFollow fs' followLast fuel here names = trailFollow fs followLast fuel here names := by
  induction fuel generalizing here names with
  | zero => exact trailAlong_congr (fun _ _ _ => rfl) h
  | succ fuel ih => exact trailAlong_congr (fun _ _ => ih) h

end

/-- Either no path with this text leads anywhere, or the way goes along its names. -/
theorem trail_cases (path : String) :
    (∃ f, ∀ (fs : FileSystem) (followLast : Bool), fs.trail followLast path = ([], .error f)) ∨
      ∀ (fs : FileSystem) (followLast : Bool), fs.trail followLast path =
        trailFollow fs followLast maxLinks
          (if path.toList.head? = some '/' then [] else fs.workingDirectory) (pathNames path) := by
  unfold trail
  by_cases hnul : path.toList.contains '\x00' = true
  · exact .inl ⟨_, fun _ _ => if_pos hnul⟩
  by_cases hempty : path = ""
  · refine .inl ⟨.notFound, fun _ _ => ?_⟩
    rw [if_neg hnul, if_pos hempty]
  by_cases hlong : maxPathBytes ≤ path.utf8ByteSize
  · refine .inl ⟨.nameTooLong, fun _ _ => ?_⟩
    rw [if_neg hnul, if_neg hempty, if_pos hlong]
  · refine .inr fun _ _ => ?_
    rw [if_neg hnul, if_neg hempty, if_neg hlong]

/-- **Changes elsewhere change nothing.** -/
theorem trail_congr {fs fs' : FileSystem} {followLast : Bool} {path : String}
    (hwd : fs'.workingDirectory = fs.workingDirectory)
    (h : ∀ l ∈ fs.lookups followLast path, fs'.entryAt? l = fs.entryAt? l) :
    fs'.trail followLast path = fs.trail followLast path := by
  unfold lookups at h
  rcases trail_cases path with ⟨f, hnowhere⟩ | hway
  · rw [hnowhere, hnowhere]
  · rw [hway] at h ⊢
    rw [hway, hwd]
    exact trailFollow_congr h

/-! ### Places -/

/-- The place at the end of a way, unless a directory is there. -/
def spot? : Target → Option Location
  | .present _ .directory => none
  | .present loc _ => some loc
  | .absent dir name => some (dir ++ [name])

/-- The place of a path. -/
def place? (fs : FileSystem) (path : String) : Option Location :=
  match fs.resolve false path with
  | .ok t => spot? t
  | .error _ => none

/-- The end of a way to a place. -/
def endAt (fs : FileSystem) (loc : Location) : Target :=
  match fs.entryAt? loc with
  | some e => .present loc e
  | none => .absent loc.dropLast (loc.getLast?.getD "")

/-- The way ends at a place. -/
def LeadsTo (way : Trail) (loc : Location) : Prop := ∃ t, way.2 = .ok t ∧ spot? t = some loc

/-- A place is looked up last of all, and no directory stands there. -/
structure IsPlace (fs : FileSystem) (lookups : List Location) (loc : Location) : Prop where
  last : lookups.getLast? = some loc
  ne_root : loc ≠ []
  noDirectory : fs.entryAt? loc ≠ some .directory

section

variable {fs fs' : FileSystem} {followLast : Bool} {onLink onLink' : Location → List String → Trail}
  {here loc : Location} {n : String} {names : List String}

theorem not_leadsTo_error {lookups : List Location} {f : Fault} :
    ¬ LeadsTo (lookups, .error f) loc := by
  rintro ⟨t, ht, -⟩
  cases ht

theorem IsPlace.cons {lookups : List Location} (l : Location) (h : IsPlace fs lookups loc) :
    IsPlace fs (l :: lookups) loc := by
  refine ⟨?_, h.ne_root, h.noDirectory⟩
  rw [List.getLast?_cons, h.last]
  rfl

theorem EndsAt.isPlace {t : Target} (h : EndsAt here n (fs.entryAt? (here ++ [n])) t)
    (hspot : spot? t = some loc) : loc = here ++ [n] ∧ IsPlace fs [here ++ [n]] (here ++ [n]) := by
  have hne : here ++ [n] ≠ [] := by simp
  generalize hfound : fs.entryAt? (here ++ [n]) = found at h
  cases h with
  | absent =>
    cases hspot
    refine ⟨rfl, rfl, hne, ?_⟩
    rw [hfound]
    nofun
  | present e he =>
    cases e with
    | directory => exact absurd rfl he
    | _ =>
      cases hspot
      refine ⟨rfl, rfl, hne, ?_⟩
      rw [hfound]
      nofun

theorem isPlace_of_trailAlong
    (hlink : ∀ here names, LeadsTo (onLink here names) loc → IsPlace fs (onLink here names).1 loc)
    (h : LeadsTo (trailAlong fs followLast onLink here names) loc) :
    IsPlace fs (trailAlong fs followLast onLink here names).1 loc := by
  obtain ⟨t, ht, hspot⟩ := h
  induction names generalizing here with
  | nil =>
    cases ht
    cases hspot
  | cons n rest ih =>
    rcases name_cases n with rfl | rfl | hn | hn
    · exact ih ht
    · exact ih ht
    · rw [trailAlong_long hn] at ht
      cases ht
    rw [trailAlong_name hn] at ht ⊢
    dsimp only at ht ⊢
    rcases onward_cases ht with ⟨-, hway, hend⟩ | ⟨-, hway⟩ | ⟨target, -, -, -, hway⟩
    · rw [hway]
      obtain ⟨rfl, hplace⟩ := hend.isPlace hspot
      exact hplace
    · rw [hway] at ht ⊢
      exact (ih ht).cons _
    · rw [hway] at ht ⊢
      exact (hlink _ _ ⟨t, ht, hspot⟩).cons _

theorem isPlace_of_trailFollow {fuel : Nat}
    (h : LeadsTo (trailFollow fs followLast fuel here names) loc) :
    IsPlace fs (trailFollow fs followLast fuel here names).1 loc := by
  induction fuel generalizing here names with
  | zero => exact isPlace_of_trailAlong (fun _ _ h => absurd h not_leadsTo_error) h
  | succ fuel ih => exact isPlace_of_trailAlong (fun _ _ => ih) h

/-- What may stand at a place so that it can be changed there. -/
structure IsEnd (fs : FileSystem) (followLast : Bool) (loc : Location) : Prop where
  noDirectory : fs.entryAt? loc ≠ some .directory
  noLink : followLast = true → ∀ e ∈ fs.entryAt? loc, e.isLink = false

/-- A way ends at its last name, unless a link there is followed. -/
theorem trailAlong_last (hn : IsLookedUp n)
    (hend : followLast = true → ∀ e ∈ fs.entryAt? (here ++ [n]), e.isLink = false) :
    trailAlong fs followLast onLink here [n] = ([here ++ [n]], .ok (fs.endAt (here ++ [n]))) := by
  rw [trailAlong_name hn, endAt]
  rcases hentry : fs.entryAt? (here ++ [n]) with _ | bytes | _ | target
  · simp [onward]
  · simp [onward]
  · simp [onward, trailAlong]
  · cases followLast with
    | false => simp [onward]
    | true => exact absurd (hend rfl _ hentry) Bool.noConfusion

/-- A change at the end of the way: the links on the way stay where they are, so each is
    followed as before. -/
theorem trailAlong_of_place
    (hplace : ∀ here names, LeadsTo (onLink here names) loc → IsPlace fs (onLink here names).1 loc)
    (hlink : ∀ here names, LeadsTo (onLink here names) loc →
      (∀ l ∈ (onLink here names).1.dropLast, fs'.entryAt? l = fs.entryAt? l) →
        onLink' here names = ((onLink here names).1, .ok (fs'.endAt loc)))
    (hend : followLast = true → ∀ e ∈ fs'.entryAt? loc, e.isLink = false)
    (hleads : LeadsTo (trailAlong fs false onLink here names) loc)
    (h : ∀ l ∈ (trailAlong fs false onLink here names).1.dropLast,
      fs'.entryAt? l = fs.entryAt? l) :
    trailAlong fs' followLast onLink' here names =
      ((trailAlong fs false onLink here names).1, .ok (fs'.endAt loc)) := by
  obtain ⟨t, ht, hspot⟩ := hleads
  induction names generalizing here with
  | nil =>
    cases ht
    cases hspot
  | cons n rest ih =>
    rcases name_cases n with rfl | rfl | hn | hn
    · exact ih h ht
    · exact ih h ht
    · rw [trailAlong_long hn] at ht
      cases ht
    have hway : trailAlong fs false onLink here (n :: rest) = _ := trailAlong_name hn
    rw [hway] at ht h ⊢
    dsimp only at ht h ⊢
    -- A look at an entry in front of the last one finds what it found before.
    have hfront : ∀ way : Trail, IsPlace fs way.1 loc →
        (∀ l ∈ ((here ++ [n]) :: way.1).dropLast, fs'.entryAt? l = fs.entryAt? l) →
          fs'.entryAt? (here ++ [n]) = fs.entryAt? (here ++ [n]) ∧
            ∀ l ∈ way.1.dropLast, fs'.entryAt? l = fs.entryAt? l := by
      intro way hplaced hall
      have hne : way.1 ≠ [] := by
        intro hnil
        have hlast := hplaced.last
        rw [hnil] at hlast
        cases hlast
      rw [List.dropLast_cons_of_ne_nil hne] at hall
      exact List.forall_mem_cons.1 hall
    rcases onward_cases ht with ⟨hrest, hnext, hends⟩ | ⟨hentry, hnext⟩ |
      ⟨target, hentry, hlast, hempty, hnext⟩
    · rw [hnext]
      obtain ⟨rfl, -⟩ := hends.isPlace hspot
      subst hrest
      exact trailAlong_last hn hend
    · rw [hnext] at ht h ⊢
      obtain ⟨hsame, hrest⟩ := hfront _ (isPlace_of_trailAlong hplace ⟨t, ht, hspot⟩) h
      rw [trailAlong_name hn, hsame, hentry]
      dsimp only [onward]
      rw [ih hrest ht]
    · rw [hnext] at ht h ⊢
      obtain ⟨hsame, hrest⟩ := hfront _ (hplace _ _ ⟨t, ht, hspot⟩) h
      have hlast' : ¬ (rest = [] ∧ followLast = false) := fun hr => hlast ⟨hr.1, rfl⟩
      rw [trailAlong_name hn, hsame, hentry, onward_link hlast' hempty,
        hlink _ _ ⟨t, ht, hspot⟩ hrest]

theorem trailFollow_of_place {fuel : Nat}
    (hend : followLast = true → ∀ e ∈ fs'.entryAt? loc, e.isLink = false)
    (hleads : LeadsTo (trailFollow fs false fuel here names) loc)
    (h : ∀ l ∈ (trailFollow fs false fuel here names).1.dropLast,
      fs'.entryAt? l = fs.entryAt? l) :
    trailFollow fs' followLast fuel here names =
      ((trailFollow fs false fuel here names).1, .ok (fs'.endAt loc)) := by
  induction fuel generalizing here names with
  | zero =>
    exact trailAlong_of_place (fun _ _ h => absurd h not_leadsTo_error)
      (fun _ _ h => absurd h not_leadsTo_error) hend hleads h
  | succ fuel ih =>
    exact trailAlong_of_place (fun _ _ => isPlace_of_trailFollow) (fun _ _ => ih) hend hleads h

/-- Whether the last name is followed makes a difference only if a link is reached there. -/
theorem trailAlong_unlinked
    (hlink : ∀ here names, (∀ l target, (onLink here names).2 ≠ .ok (.present l (.link target))) →
      onLink' here names = onLink here names)
    (h : ∀ l target, (trailAlong fs false onLink here names).2 ≠ .ok (.present l (.link target))) :
    trailAlong fs true onLink' here names = trailAlong fs false onLink here names := by
  induction names generalizing here with
  | nil => rfl
  | cons n rest ih =>
    rcases name_cases n with rfl | rfl | hn | hn
    · exact ih h
    · exact ih h
    · rw [trailAlong_long hn, trailAlong_long hn]
    · rw [trailAlong_name hn] at h ⊢
      rw [trailAlong_name hn]
      rcases hentry : fs.entryAt? (here ++ [n]) with _ | bytes | _ | target
      · rfl
      · rfl
      · rw [hentry] at h
        dsimp only [onward] at h ⊢
        rw [ih h]
      · rw [hentry] at h
        dsimp only [onward] at h ⊢
        by_cases hlast : rest = [] ∧ false = false
        · rw [if_pos hlast] at h
          exact absurd rfl (h _ _)
        rw [if_neg hlast] at h ⊢
        rw [if_neg (by simp : ¬ (rest = [] ∧ true = false))]
        by_cases hempty : target = ""
        · rw [if_pos hempty, if_pos hempty]
        rw [if_neg hempty] at h ⊢
        rw [if_neg hempty, hlink _ _ h]

theorem trailFollow_unlinked {fuel : Nat}
    (h : ∀ l target, (trailFollow fs false fuel here names).2 ≠ .ok (.present l (.link target))) :
    trailFollow fs true fuel here names = trailFollow fs false fuel here names := by
  induction fuel generalizing here names with
  | zero => exact trailAlong_unlinked (fun _ _ _ => rfl) h
  | succ fuel ih => exact trailAlong_unlinked (fun _ _ => ih) h

end

section

variable {fs fs' : FileSystem} {followLast : Bool} {path : String} {loc : Location}

theorem leadsTo_of_place (h : fs.place? path = some loc) :
    LeadsTo (fs.trail false path) loc := by
  unfold place? at h
  rw [← trail_snd] at h
  split at h
  · rename_i t ht
    exact ⟨t, ht, h⟩
  · cases h

theorem isPlace_of_place (h : fs.place? path = some loc) :
    IsPlace fs (fs.lookups false path) loc := by
  have hleads := leadsTo_of_place h
  unfold lookups
  rcases trail_cases path with ⟨f, hnowhere⟩ | hway
  · rw [hnowhere] at hleads
    exact absurd hleads not_leadsTo_error
  · rw [hway] at hleads ⊢
    exact isPlace_of_trailFollow hleads

/-- **A change at the place of a path changes what the path leads to, and nothing else.** -/
theorem trail_of_place (hwd : fs'.workingDirectory = fs.workingDirectory)
    (hplace : fs.place? path = some loc)
    (hend : followLast = true → ∀ e ∈ fs'.entryAt? loc, e.isLink = false)
    (h : ∀ l ∈ (fs.lookups false path).dropLast, fs'.entryAt? l = fs.entryAt? l) :
    fs'.trail followLast path = (fs.lookups false path, .ok (fs'.endAt loc)) := by
  have hleads := leadsTo_of_place hplace
  unfold lookups at h ⊢
  rcases trail_cases path with ⟨f, hnowhere⟩ | hway
  · rw [hnowhere] at hleads
    exact absurd hleads not_leadsTo_error
  · rw [hway fs] at hleads h ⊢
    rw [hway, hwd]
    exact trailFollow_of_place hend hleads h

/-- A path that does not end at a link leads to the same with and without following it. -/
theorem trail_unlinked (h : ∀ l target, fs.resolve false path ≠ .ok (.present l (.link target))) :
    fs.trail true path = fs.trail false path := by
  rw [← trail_snd] at h
  rcases trail_cases path with ⟨f, hnowhere⟩ | hway
  · rw [hnowhere, hnowhere]
  · rw [hway] at h ⊢
    rw [hway]
    exact trailFollow_unlinked h

end

/-! ### What is seen -/

/-- The entry that a path leads to, if there is one. -/
def seen? (fs : FileSystem) (followLast : Bool) (path : String) : Option Entry :=
  match fs.resolve followLast path with
  | .ok (.present _ e) => some e
  | _ => none

section

variable {fs fs' : FileSystem} {followLast : Bool} {onLink : Location → List String → Trail}
  {here loc : Location} {e : Entry} {names : List String} {path : String}

theorem seen_of_trail {followLast' : Bool}
    (h : fs'.trail followLast' path = fs.trail followLast path) :
    fs'.seen? followLast' path = fs.seen? followLast path := by
  unfold seen?
  rw [← trail_snd, ← trail_snd, h]

theorem seen_of_resolve (h : fs.resolve followLast path = .ok (fs.endAt loc)) :
    fs.seen? followLast path = fs.entryAt? loc := by
  unfold seen?
  rw [h, endAt]
  cases fs.entryAt? loc <;> rfl

/-- A file that is seen without following a link is seen in any case. -/
theorem seen_of_file {bytes : ByteArray} (h : fs.seen? false path = some (.file bytes)) :
    fs.seen? followLast path = some (.file bytes) := by
  cases followLast with
  | false => exact h
  | true =>
    rw [← h]
    apply seen_of_trail
    apply trail_unlinked
    intro l target hlink
    unfold seen? at h
    rw [hlink] at h
    cases h

/-- A directory or a link stands there, or an entry like the given one. -/
def IsMet (fs : FileSystem) (e : Entry) (l : Location) : Prop :=
  ∃ e' ∈ fs.entryAt? l, e' = .directory ∨ e'.isLink = true ∨ e' = e

/-- On the way to an entry only directories and links are met, and at its end the entry. -/
theorem trailAlong_present
    (hlink : ∀ here names, (onLink here names).2 = .ok (.present loc e) →
      ∀ l ∈ (onLink here names).1, IsMet fs e l)
    (h : (trailAlong fs followLast onLink here names).2 = .ok (.present loc e)) :
    ∀ l ∈ (trailAlong fs followLast onLink here names).1, IsMet fs e l := by
  induction names generalizing here with
  | nil => exact fun l hl => absurd hl List.not_mem_nil
  | cons n rest ih =>
    rcases name_cases n with rfl | rfl | hn | hn
    · exact ih h
    · exact ih h
    · rw [trailAlong_long hn] at h
      cases h
    rw [trailAlong_name hn] at h ⊢
    dsimp only at h ⊢
    rw [List.forall_mem_cons]
    rcases onward_cases h with ⟨-, hway, hend⟩ | ⟨hentry, hway⟩ | ⟨target, hentry, -, -, hway⟩
    · rw [hway]
      refine ⟨?_, fun l hl => absurd hl List.not_mem_nil⟩
      generalize hfound : fs.entryAt? (here ++ [n]) = found at hend
      cases hend
      exact ⟨e, hfound, .inr (.inr rfl)⟩
    · rw [hway] at h ⊢
      exact ⟨⟨_, hentry, .inl rfl⟩, ih h⟩
    · rw [hway] at h ⊢
      exact ⟨⟨_, hentry, .inr (.inl rfl)⟩, hlink _ _ h⟩

theorem trailFollow_present {fuel : Nat}
    (h : (trailFollow fs followLast fuel here names).2 = .ok (.present loc e)) :
    ∀ l ∈ (trailFollow fs followLast fuel here names).1, IsMet fs e l := by
  induction fuel generalizing here names with
  | zero => exact trailAlong_present (fun _ _ h => by cases h) h
  | succ fuel ih => exact trailAlong_present (fun _ _ => ih) h

theorem isMet_of_lookup (h : fs.resolve followLast path = .ok (.present loc e)) :
    ∀ l ∈ fs.lookups followLast path, IsMet fs e l := by
  rw [← trail_snd] at h
  unfold lookups
  rcases trail_cases path with ⟨f, hnowhere⟩ | hway
  · rw [hnowhere] at h
    cases h
  · rw [hway] at h ⊢
    exact trailFollow_present h

end

end FileSystem

end WorkflowCatalog
