/-
  WorkflowCatalog/Proofs/Descent.lean
  ===================================
  **Names that never lead above where they start.**  `..` is a name like any other, so names
  lead up as well as down, and what they lead to need not be below their start.  Counting how
  deep they are tells whether they ever get above it (`Path.depth?`).

  In a directory without links, names that do not get above it lead where they say, whatever
  the way to the directory is like (`resolve_below`).  And where only directories are, more of
  them can be put so that names lead where they say (`exists_descent`).
-/
import Mathlib.Data.List.Induction
import WorkflowCatalog.Proofs.LastName
import WorkflowCatalog.Proofs.UnlinkedChange

namespace WorkflowCatalog

/-! ### How deep names lead -/

namespace Path

/-- How deep a name leads that is met so deep below a start, unless it leads above the start. -/
def deeper (depth : Nat) (n : String) : Option Nat :=
  if n = ".." then if depth = 0 then none else some (depth - 1) else some (depth + 1)

/-- How deep names lead below a start, unless they ever lead above it. -/
def depth? (names : List String) : Option Nat := names.foldlM deeper 0

theorem depth_concat (names : List String) (n : String) :
    depth? (names ++ [n]) = (depth? names).bind fun d => deeper d n := by
  simp [depth?, List.foldlM_append]

theorem join_relative (p : Path) {q : Path} (h : q.anchor = .relative) :
    (p / q).anchor = p.anchor ∧ (p / q).names = p.names ++ q.names := by
  obtain ⟨a, names, hnames⟩ := q
  subst h
  exact ⟨rfl, rfl⟩

theorem parent_join (p : Path) {q : Path} (h : q.anchor = .relative) (hnamed : q.names ≠ []) :
    (p / q).parent = p / q.parent := by
  obtain ⟨hanchor, hnames⟩ := join_relative p h
  obtain ⟨hanchor', hnames'⟩ := join_relative p (q := q.parent) h
  refine eq_of_parts (hanchor.trans hanchor'.symm) ?_
  change (p / q).names.dropLast = _
  rw [hnames, hnames', List.dropLast_append_of_ne_nil hnamed]
  rfl

end Path

namespace FileSystem

/-- Where a name leads from a location, if it is no link. -/
def step (l : Location) (n : String) : Location := if n = ".." then l.dropLast else l ++ [n]

/-- Where names lead from a location, if none of them is a link. -/
def walk (start : Location) (names : List String) : Location := names.foldl step start

section

variable {names : List String} {n : String} {start here loc l : Location} {d : Nat}

theorem step_up (l : Location) : step l ".." = l.dropLast := if_pos rfl

theorem step_name (l : Location) (hn : n ≠ "..") : step l n = l ++ [n] := if_neg hn

theorem walk_cons (start : Location) (n : String) (names : List String) :
    walk start (n :: names) = walk (step start n) names := rfl

theorem walk_concat (start : Location) (names : List String) (n : String) :
    walk start (names ++ [n]) = step (walk start names) n := by
  simp [walk, List.foldl_append]

/-- **Names that never lead above their start** lead to a location below it, the same one from
    everywhere. -/
theorem walk_of_depth (h : Path.depth? names = some d) :
    ∃ below : Location, below.length = d ∧ ∀ start, walk start names = start ++ below := by
  induction names using List.reverseRecOn generalizing d with
  | nil =>
    cases h
    exact ⟨[], rfl, fun start => (List.append_nil start).symm⟩
  | append_singleton names n ih =>
    rw [Path.depth_concat, Option.bind_eq_some_iff] at h
    obtain ⟨k, hk, h⟩ := h
    obtain ⟨below, hlength, hwalk⟩ := ih hk
    simp only [walk_concat, hwalk]
    unfold Path.deeper at h
    by_cases hn : n = ".."
    · subst hn
      by_cases hzero : k = 0
      · simp [hzero] at h
      · simp only [if_true, if_neg hzero, Option.some.injEq] at h
        have hne : below ≠ [] := by
          rintro rfl
          exact hzero hlength.symm
        refine ⟨below.dropLast, by simp [hlength, h], fun start => ?_⟩
        rw [step_up, List.dropLast_append_of_ne_nil hne]
    · simp only [if_neg hn, Option.some.injEq] at h
      refine ⟨below ++ [n], by simp [hlength, h], fun start => ?_⟩
      rw [step_name _ hn, List.append_assoc]

/-- Names that lead above their start forget where it was, if it was not far from the root. -/
theorem walk_of_not_depth (h : Path.depth? names = none) :
    ∃ l, ∀ a, walk [a] names = l := by
  induction names using List.reverseRecOn with
  | nil => cases h
  | append_singleton names n ih =>
    simp only [walk_concat]
    cases hk : Path.depth? names with
    | none =>
      obtain ⟨l, hl⟩ := ih hk
      exact ⟨step l n, fun a => by rw [hl]⟩
    | some k =>
      rw [Path.depth_concat, hk, Option.bind_some] at h
      unfold Path.deeper at h
      by_cases hn : n = ".."
      · subst hn
        by_cases hzero : k = 0
        · obtain ⟨below, hlength, hwalk⟩ := walk_of_depth hk
          rw [hzero, List.length_eq_zero_iff] at hlength
          refine ⟨[], fun a => ?_⟩
          rw [hwalk, hlength]
          rfl
        · simp [hzero] at h
      · simp [hn] at h

/-! ### Directories without links -/

variable {fs fs' : FileSystem} {q p : Path} {dir : Location} {t : Target} {path : String}

/-- There are no links below a location. -/
def HasNoLinkBelow (fs : FileSystem) (top : Location) : Prop :=
  ∀ l, top <+: l → l ≠ top → ∀ e ∈ fs.entryAt? l, e.isLink = false

theorem isUsable_of_resolve {followLast : Bool} (h : fs.resolve followLast path = .ok t) :
    IsUsable path := by
  unfold resolve at h
  refine ⟨fun hnul => ?_, fun hempty => ?_, fun hlong => ?_⟩
  · rw [if_pos hnul] at h
    cases h
  · subst hempty
    cases h
  · rw [if_pos hlong] at h
    split at h
    · cases h
    split at h <;> cases h

/-- A name that is no link leads to no link, and to a directory only where it says. -/
theorem lastLook_ends (hn : IsName n)
    (hlink : n ≠ ".." → ∀ e ∈ fs.entryAt? (dir ++ [n]), e.isLink = false)
    (h : (lastLook fs dir n).2 = .ok t) :
    (∀ l target, t ≠ .present l (.link target)) ∧ ∀ l, t = .present l .directory → l = step dir n := by
  unfold lastLook at h
  rcases name_cases n with rfl | rfl | hlong | hlook
  · exact absurd rfl hn.2.1
  · cases h
    refine ⟨nofun, ?_⟩
    rintro l ⟨⟩
    rfl
  · rw [trailAlong_long hlong] at h
    cases h
  rw [trailAlong_name hlook] at h
  have hplain := hlink hlook.ne_up
  rw [step_name dir hlook.ne_up]
  rcases hentry : fs.entryAt? (dir ++ [n]) with _ | bytes | _ | target <;> rw [hentry] at h hplain
  · cases h
    exact ⟨nofun, nofun⟩
  · cases h
    exact ⟨nofun, nofun⟩
  · cases h
    refine ⟨nofun, ?_⟩
    rintro l ⟨⟩
    rfl
  · exact absurd (hplain _ rfl) Bool.noConfusion

/-- Where the last name is not a link, following it makes no difference. -/
theorem resolve_true_of_false {r : Except Fault Target} (h : fs.resolve false path = r)
    (hlink : ∀ l target, r ≠ .ok (.present l (.link target))) : fs.resolve true path = r := by
  subst h
  rw [← trail_snd, ← trail_snd, trail_unlinked hlink]

/-- Where the parent of a path leads to is a directory, or the path leads to none. -/
theorem resolve_parent (hname : p.names = q.names ++ [n]) (hanchor : p.anchor = q.anchor)
    (hlink : ∀ dir, fs.resolve true q.text = .ok (.present dir .directory) → n ≠ ".." →
      ∀ e ∈ fs.entryAt? (dir ++ [n]), e.isLink = false)
    (h : fs.resolve true p.text = .ok (.present loc .directory)) :
    ∃ dir, fs.resolve true q.text = .ok (.present dir .directory) ∧ loc = step dir n := by
  have hn : IsName n := p.names_ok n (by simp [hname])
  have hjoin : q / Path.ofString n = p := by
    obtain ⟨hanchor', hnames'⟩ := join_name q hn
    exact Path.eq_of_parts (hanchor'.trans hanchor.symm) (hnames'.trans hname.symm)
  have husable := isUsable_of_resolve h
  rw [← hjoin] at husable h
  have hfalse : fs.resolve false (q / Path.ofString n).text =
      (withName fs n (fs.trail true q.text)).2 := by
    rw [← trail_snd, trail_join hn husable]
  have herror : ∀ f, fs.resolve false (q / Path.ofString n).text ≠ .error f := by
    intro f hf
    rw [resolve_true_of_false hf nofun] at h
    cases h
  rw [← trail_snd] at hlink ⊢
  rcases hway : fs.trail true q.text with ⟨ls, f | ⟨dir, bytes | _ | target⟩ | ⟨dir, m⟩⟩ <;>
    rw [hway] at hfalse hlink
  · exact absurd hfalse (herror f)
  · exact absurd hfalse (herror _)
  · change _ = (lastLook fs dir n).2 at hfalse
    refine ⟨dir, rfl, ?_⟩
    cases hlook : (lastLook fs dir n).2 with
    | error f => exact absurd (hfalse.trans hlook) (herror f)
    | ok t =>
      obtain ⟨hno, hdirectory⟩ := lastLook_ends hn (hlink dir rfl) hlook
      rw [hlook] at hfalse
      rw [resolve_true_of_false hfalse fun l target heq => hno l target (Except.ok.inj heq)] at h
      exact hdirectory loc (Except.ok.inj h)
  · exact absurd hfalse (herror _)
  · exact absurd hfalse (herror _)

/-- **Names that never lead above a directory without links** lead to directories where they
    say. -/
theorem resolve_below (hanchor : p.anchor = q.anchor) (hnames : p.names = q.names ++ names)
    (hdepth : Path.depth? names = some d)
    (hlinks : ∀ dir, fs.resolve true q.text = .ok (.present dir .directory) → fs.HasNoLinkBelow dir)
    (h : fs.resolve true p.text = .ok (.present loc .directory)) :
    ∃ dir, fs.resolve true q.text = .ok (.present dir .directory) ∧ loc = walk dir names := by
  induction names using List.reverseRecOn generalizing p loc d with
  | nil =>
    rw [List.append_nil] at hnames
    rw [Path.eq_of_parts hanchor hnames] at h
    exact ⟨loc, h, rfl⟩
  | append_singleton names n ih =>
    rw [Path.depth_concat, Option.bind_eq_some_iff] at hdepth
    obtain ⟨k, hk, -⟩ := hdepth
    obtain ⟨below, -, hwalk⟩ := walk_of_depth hk
    have hparent : p.parent.names = q.names ++ names := by
      change p.names.dropLast = _
      rw [hnames, ← List.append_assoc, List.dropLast_concat]
    have hlast : p.names = p.parent.names ++ [n] := by
      rw [hnames, hparent, List.append_assoc]
    have hrest : ∀ dir, fs.resolve true p.parent.text = .ok (.present dir .directory) →
        ∃ top, fs.resolve true q.text = .ok (.present top .directory) ∧ dir = walk top names :=
      fun dir hdir => ih (p := p.parent) hanchor hparent hk hdir
    have hlink : ∀ dir, fs.resolve true p.parent.text = .ok (.present dir .directory) → n ≠ ".." →
        ∀ e ∈ fs.entryAt? (dir ++ [n]), e.isLink = false := by
      intro dir hdir _
      obtain ⟨top, htop, rfl⟩ := hrest dir hdir
      rw [hwalk, List.append_assoc]
      exact hlinks top htop _ (List.prefix_append _ _) (by simp)
    obtain ⟨dir, hdir, rfl⟩ := resolve_parent hlast rfl hlink h
    obtain ⟨top, htop, rfl⟩ := hrest dir hdir
    exact ⟨top, htop, (walk_concat top names n).symm⟩

/-! ### Directories that are put -/

/-- Only directories are there. -/
def HasOnlyDirectories (fs : FileSystem) : Prop := ∀ l e, fs.entryAt? l = some e → e = .directory

/-- A way to a directory goes on to any name there. -/
theorem Way.concat (h : Way fs here names dir) (hdir : fs.entryAt? dir = some .directory)
    (hn : IsLookedUp n) : Way fs here (names ++ [n]) (dir ++ [n]) := by
  induction h with
  | stay here => exact .last hn
  | dot _ ih => exact .dot (ih hdir)
  | up _ ih => exact .up (ih hdir)
  | last hm => exact .enter hm hdir (.last hn)
  | enter hm hentry _ ih => exact .enter hm hentry (ih hdir)

/-- A directory is there, or can be put. -/
theorem exists_directory (hfs : fs.Unlinked) (honly : fs.HasOnlyDirectories)
    (hhere : fs.entryAt? here = some .directory) (hn : IsEntryName n) :
    ∃ fs', Adds fs fs' ∧ fs'.HasOnlyDirectories ∧
      fs'.entryAt? (here ++ [n]) = some .directory ∧
      ∀ l, fs'.entryAt? l ≠ fs.entryAt? l → l = here ++ [n] := by
  cases hfound : fs.entryAt? (here ++ [n]) with
  | some e =>
    obtain rfl := honly _ e hfound
    exact ⟨fs, .refl hfs, honly, hfound, fun l hl => absurd rfl hl⟩
  | none =>
    have hput : (fs.set (here ++ [n]) .directory).entryAt? (here ++ [n]) = some .directory :=
      entryAt_set_self (by simp)
    have hcases : ∀ l, l = here ++ [n] ∨
        (fs.set (here ++ [n]) .directory).entryAt? l = fs.entryAt? l :=
      fun l => (em (l = here ++ [n])).imp_right entryAt_set_of_ne
    refine ⟨fs.set (here ++ [n]) .directory, ⟨hfs.set hhere hn (by simp [hfound]) rfl, rfl, ?_⟩,
      ?_, hput, ?_⟩
    · intro l
      rcases hcases l with rfl | hsame
      · exact .inr ⟨hfound, hput⟩
      · exact .inl hsame
    · intro l e he
      rcases hcases l with rfl | hsame
      · rw [hput] at he
        exact (Option.some.inj he).symm
      · rw [hsame] at he
        exact honly l e he
    · intro l hl
      exact (hcases l).resolve_right hl

/-- **Where only directories are, more can be put so that names lead where they say.** -/
theorem exists_descent (hfs : fs.Unlinked) (honly : fs.HasOnlyDirectories)
    (hhere : fs.entryAt? here = some .directory)
    (hnames : ∀ n ∈ names, n ≠ ".." → IsEntryName n) :
    ∃ fs', Adds fs fs' ∧ Way fs' here names (walk here names) ∧
      fs'.entryAt? (walk here names) = some .directory ∧
      ∀ l, fs'.entryAt? l ≠ fs.entryAt? l → ∃ n ∈ names, l.getLast? = some n := by
  induction names generalizing fs here with
  | nil => exact ⟨fs, .refl hfs, .stay here, hhere, fun l hl => absurd rfl hl⟩
  | cons n rest ih =>
    rw [List.forall_mem_cons] at hnames
    rw [walk_cons]
    have hmem : ∀ l : Location, (∃ m ∈ rest, l.getLast? = some m) →
        ∃ m ∈ n :: rest, l.getLast? = some m :=
      fun l ⟨m, hm, hl⟩ => ⟨m, List.mem_cons_of_mem _ hm, hl⟩
    by_cases hup : n = ".."
    · subst hup
      rw [step_up]
      obtain ⟨fs', hadds, hway, hdir, hchanged⟩ :=
        ih hfs honly (entryAt_dropLast hfs.wellFormed hhere) hnames.2
      exact ⟨fs', hadds, .up hway, hdir, fun l hl => hmem l (hchanged l hl)⟩
    · rw [step_name here hup]
      have hn := hnames.1 hup
      obtain ⟨fs₁, hadd, honly', hput, hsame⟩ := exists_directory hfs honly hhere hn
      obtain ⟨fs', hadds, hway, hdir, hchanged⟩ := ih hadd.unlinked honly' hput hnames.2
      refine ⟨fs', hadd.trans hadds,
        .enter hn.isLookedUp (hadds.keepsDirectories.directory _ hput) hway, hdir, fun l hl => ?_⟩
      by_cases hat : fs'.entryAt? l = fs₁.entryAt? l
      · rw [hat] at hl
        exact ⟨n, List.mem_cons_self, by rw [hsame l hl, List.getLast?_concat]⟩
      · exact hmem l (hchanged l hat)

/-! ### A file that names lead to from elsewhere -/

/-- A path that a file can have: neither its text nor a name is too long, and the directories on
    its way are called otherwise. -/
structure CanBeFile (p : Path) : Prop where
  usable : IsUsable p.text
  isShort : ∀ n ∈ p.names, n.utf8ByteSize ≤ maxNameBytes
  notMem : p.name ∉ p.parent.names

/-- A single directory, which is the working directory. -/
def lone (a : String) : FileSystem := ⟨[([a], .directory)], [a]⟩

theorem entryAt_lone {a : String} {e : Entry} (h : (lone a).entryAt? l = some e) :
    e = .directory ∧ (l = [] ∨ l = [a]) := by
  by_cases hl : l = []
  · rw [hl] at h
    exact ⟨(Option.some.inj h).symm, .inl hl⟩
  · have hmem := mem_entries_of_entryAt hl h
    obtain ⟨hup, he⟩ := Prod.mk.inj (List.mem_singleton.1 hmem)
    exact ⟨he, .inr (List.reverse_eq_iff.1 hup)⟩

theorem unlinked_lone {a : String} (ha : IsEntryName a) : (lone a).Unlinked := by
  have hwell : (lone a).WellFormed := by
    constructor <;> simp [lone, entryAt?, entryUp?, ha]
  exact ⟨hwell, by simp [lone, Entry.isLink]⟩

theorem comes_dot (fs : FileSystem) : Comes fs "." fs.workingDirectory where
  usable := ⟨by decide, by decide, by decide⟩
  way := by
    have hstart : fs.startAt "." = fs.workingDirectory := if_neg (by decide)
    have hnames : pathNames "." = ["."] := by decide +kernel
    rw [hstart, hnames]
    exact .dot (.stay _)

theorem startAt_text (p : Path) :
    fs.startAt p.text = if p.anchor = .relative then fs.workingDirectory else [] := by
  unfold startAt
  simp only [Path.head_text]
  by_cases h : p.anchor = .relative <;> simp [h]

/-- A name that cannot be the first of a location. -/
theorem exists_other (l : Location) : ∃ a, IsEntryName a ∧ ¬ [a] <+: l := by
  by_cases h : ["a"] <+: l
  · refine ⟨"b", by decide, fun hb => ?_⟩
    obtain ⟨x, rfl⟩ := h
    simp at hb
  · exact ⟨"a", by decide, h⟩

theorem names_eq (hnamed : p.names ≠ []) : p.names = p.parent.names ++ [p.name] := by
  rw [← (join_name p.parent (Path.isName_name hnamed)).2, Path.parent_join_name hnamed]

/-- A file is put where nothing is, at the end of a way. -/
theorem put_file (hfs : fs.Unlinked) (husable : IsUsable p.text) (hnamed : p.names ≠ [])
    (hname : IsEntryName p.name) (hway : Way fs (fs.startAt p.text) p.parent.names dir)
    (hdir : fs.entryAt? dir = some .directory) (hnone : fs.entryAt? (dir ++ [p.name]) = none)
    (bytes : ByteArray) :
    (fs.set (dir ++ [p.name]) (.file bytes)).Unlinked ∧
      KeepsDirectories fs (fs.set (dir ++ [p.name]) (.file bytes)) ∧
        (fs.set (dir ++ [p.name]) (.file bytes)).place? p.text = some (dir ++ [p.name]) := by
  have hset : (fs.set (dir ++ [p.name]) (.file bytes)).Unlinked :=
    hfs.set hdir hname (by simp [hnone]) rfl
  have hput : (fs.set (dir ++ [p.name]) (.file bytes)).entryAt? (dir ++ [p.name]) =
      some (.file bytes) := entryAt_set_self (by simp)
  have hkeeps : KeepsDirectories fs (fs.set (dir ++ [p.name]) (.file bytes)) := by
    refine ⟨rfl, fun l hl => ?_⟩
    rw [entryAt_set_of_ne, hl]
    rintro rfl
    rw [hnone] at hl
    cases hl
  refine ⟨hset, hkeeps, (place_eq_some_iff hset).2 ⟨?_, ?_⟩⟩
  · have hcomes : Comes fs p.text (dir ++ [p.name]) := by
      refine ⟨husable, ?_⟩
      rw [Path.pathNames_text hnamed, names_eq hnamed]
      exact hway.concat hdir hname.isLookedUp
    exact hcomes.mono hkeeps
  · rw [hput]
    nofun

/-- **A path that leads above where it starts, or starts at the root, can lead to a file
    elsewhere**: outside the working directory, in a file system without links. -/
theorem exists_elsewhere (h : CanBeFile p) (hnamed : p.names ≠ []) (hup : p.name ≠ "..")
    (hout : p.anchor = .relative → Path.depth? p.parent.names = none) :
    ∃ fs : FileSystem, ∃ top l : Location, fs.Unlinked ∧
      fs.find true "." = .ok (top, .directory) ∧ fs.place? p.text = some l ∧
        fs.entryAt? l = some (.file .empty) ∧ ¬ top <+: l := by
  obtain ⟨dir, hwalk⟩ : ∃ dir, ∀ a,
      walk (if p.anchor = .relative then [a] else []) p.parent.names = dir := by
    by_cases hrelative : p.anchor = .relative
    · simpa [hrelative] using walk_of_not_depth (hout hrelative)
    · simp [hrelative]
  obtain ⟨a, ha, hother⟩ := exists_other (dir ++ [p.name])
  have hentry : ∀ n ∈ p.names, n ≠ ".." → IsEntryName n := by
    intro n hn hne
    have hmem : n ∈ pathNames p.text := by rwa [Path.pathNames_text hnamed]
    exact isEntryName_of_mem_pathNames h.usable hmem
      ⟨(p.names_ok n hn).2.1, hne, Nat.not_lt.2 (h.isShort n hn)⟩
  have hparents : ∀ n ∈ p.parent.names, n ≠ ".." → IsEntryName n :=
    fun n hn => hentry n (List.dropLast_subset _ hn)
  have hname : IsEntryName p.name := hentry p.name (by simp [names_eq hnamed]) hup
  have hlone : (lone a).entryAt? [a] = some .directory := by
    simp [lone, entryAt?, entryUp?]
  have hstart : (lone a).entryAt? (if p.anchor = .relative then [a] else []) =
      some .directory := by
    split
    · exact hlone
    · exact entryAt_root
  obtain ⟨fs, hadds, hway, hdir, hchanged⟩ :=
    exists_descent (unlinked_lone ha) (fun l e he => (entryAt_lone he).1) hstart hparents
  have hwd : fs.workingDirectory = [a] := hadds.workingDirectory
  rw [hwalk a] at hway hdir
  rw [← hwd, ← startAt_text] at hway
  -- the file has another name than the directories that have been put
  have hnone : fs.entryAt? (dir ++ [p.name]) = none := by
    by_contra hsome
    by_cases hsame : fs.entryAt? (dir ++ [p.name]) = (lone a).entryAt? (dir ++ [p.name])
    · rw [hsame] at hsome
      obtain ⟨e, he⟩ := Option.ne_none_iff_exists'.1 hsome
      obtain ⟨-, hl | hl⟩ := entryAt_lone he
      · simp at hl
      · exact hother (hl ▸ List.prefix_rfl)
    · obtain ⟨n, hn, hlast⟩ := hchanged _ hsame
      rw [List.getLast?_concat] at hlast
      cases hlast
      exact h.notMem hn
  obtain ⟨hset, hkeeps, hplace⟩ :=
    put_file hadds.unlinked h.usable hnamed hname hway hdir hnone .empty
  refine ⟨_, [a], dir ++ [p.name], hset, (find_eq_ok_iff hset).2 ⟨?_, ?_⟩, hplace,
    entryAt_set_self (by simp), hother⟩
  · rw [← hwd]
    exact comes_dot _
  · exact hkeeps.directory _ (hadds.keepsDirectories.directory _ hlone)

end

end FileSystem

end WorkflowCatalog
