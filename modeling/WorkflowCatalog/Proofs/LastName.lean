/-
  WorkflowCatalog/Proofs/LastName.lean
  ====================================
  **The last name of a path.**  A path with one name more leads to what the name stands for
  in the directory that the path leads to, links and all (`trail_join`).  So the place of a
  path is its last name in the directory that its parent leads to (`place_join`), and two
  paths with one parent have one way but for the last look.

  A path without NUL has parents without NUL, so making its directories fails with other
  faults only (`makePath_ne_nul`).
-/
import WorkflowCatalog.Proofs.Overwriting

namespace WorkflowCatalog

namespace Path

variable {p q : Path} {n : String}

theorem isName_name (h : p.names ≠ []) : IsName p.name := by
  have hlast := List.getLast?_eq_some_getLast h
  unfold name
  rw [hlast]
  exact p.names_ok _ (List.getLast_mem h)

/-- A path with names is its last name in its parent. -/
theorem parent_join_name (h : p.names ≠ []) : p.parent / ofString p.name = p := by
  obtain ⟨hanchor, hnames⟩ := FileSystem.join_name p.parent (isName_name h)
  refine eq_of_parts hanchor (hnames.trans ?_)
  have hlast : p.name = p.names.getLast h := by
    unfold name
    rw [List.getLast?_eq_some_getLast h]
    rfl
  rw [hlast]
  exact List.dropLast_concat_getLast h

end Path

namespace FileSystem

variable {fs : FileSystem} {onLink onLink' : Location → List String → Trail}
  {here dir l : Location} {n path : String} {names : List String} {p q : Path}

/-! ### One name more -/

/-- The way on from where a way has led, to a name there. -/
def withName (fs : FileSystem) (n : String) : Trail → Trail
  | (ls, .ok (.present dir .directory)) =>
    (ls ++ (lastLook fs dir n).1, (lastLook fs dir n).2)
  | (ls, .ok (.present _ _)) => (ls, .error .notDirectory)
  | (ls, .ok (.absent _ _)) => (ls, .error .notFound)
  | (ls, .error f) => (ls, .error f)

theorem withName_cons (way : Trail) :
    withName fs n (l :: way.1, way.2) = (l :: (withName fs n way).1, (withName fs n way).2) := by
  obtain ⟨ls, f | ⟨dir, _ | _ | _⟩ | ⟨dir, m⟩⟩ := way <;> rfl

/-- A link at the end is not followed. -/
theorem trailAlong_single : trailAlong fs false onLink dir [n] = lastLook fs dir n := by
  unfold lastLook
  rcases name_cases n with rfl | rfl | hn | hn
  · rfl
  · rfl
  · rw [trailAlong_long hn, trailAlong_long hn]
  · rw [trailAlong_name hn, trailAlong_name hn]
    rcases fs.entryAt? (dir ++ [n]) with _ | _ | _ | target
    · rfl
    · rfl
    · rfl
    · simp [onward]

theorem trailAlong_concat
    (hlink : ∀ here names, onLink' here (names ++ [n]) = withName fs n (onLink here names)) :
    trailAlong fs false onLink' here (names ++ [n]) =
      withName fs n (trailAlong fs true onLink here names) := by
  induction names generalizing here with
  | nil => exact trailAlong_single
  | cons m rest ih =>
    have hrest : rest ++ [n] ≠ [] := by simp
    rcases name_cases m with rfl | rfl | hm | hm
    · exact ih
    · exact ih
    · rw [List.cons_append, trailAlong_long hm, trailAlong_long hm]
      rfl
    rw [List.cons_append, trailAlong_name hm, trailAlong_name hm, withName_cons]
    rcases fs.entryAt? (here ++ [m]) with _ | bytes | _ | target
    · dsimp only [onward]
      rw [if_neg hrest]
      split <;> rfl
    · dsimp only [onward]
      rw [if_neg hrest]
      split <;> rfl
    · dsimp only [onward]
      rw [ih]
    · dsimp only [onward]
      rw [if_neg fun h => hrest h.1, if_neg (by simp : ¬ (rest = [] ∧ true = false)),
        ← List.append_assoc, hlink]
      split <;> rfl

theorem trailFollow_concat {fuel : Nat} :
    trailFollow fs false fuel here (names ++ [n]) =
      withName fs n (trailFollow fs true fuel here names) := by
  induction fuel generalizing here names with
  | zero => exact trailAlong_concat fun _ _ => rfl
  | succ fuel ih => exact trailAlong_concat fun _ _ => ih

/-! ### Usable texts -/

theorem trail_of_usable (h : IsUsable path) (followLast : Bool) :
    fs.trail followLast path =
      trailFollow fs followLast maxLinks (fs.startAt path) (pathNames path) := by
  unfold trail
  rw [if_neg h.noNul, if_neg h.ne_empty, if_neg h.isShort]
  rfl

theorem isUsable_of_place (h : fs.place? path = some l) : IsUsable path := by
  have hleads := leadsTo_of_place h
  unfold trail at hleads
  by_cases hnul : path.toList.contains '\x00' = true
  · rw [if_pos hnul] at hleads
    exact absurd hleads not_leadsTo_error
  by_cases hempty : path = ""
  · rw [if_neg hnul, if_pos hempty] at hleads
    exact absurd hleads not_leadsTo_error
  by_cases hlong : maxPathBytes ≤ path.utf8ByteSize
  · rw [if_neg hnul, if_neg hempty, if_pos hlong] at hleads
    exact absurd hleads not_leadsTo_error
  · exact ⟨hnul, hempty, hlong⟩

theorem isUsable_of_no_names (h : p.names = []) : IsUsable p.text := by
  have hplain : ∀ s ∈ [".", "/", "//"], ¬ s.toList.contains '\x00' = true ∧ s ≠ "" ∧
      ¬ maxPathBytes ≤ s.utf8ByteSize := by decide +kernel
  have htext : p.text ∈ [".", "/", "//"] := by
    obtain ⟨a, ns, hns⟩ := p
    subst h
    cases a <;> exact List.mem_of_elem_eq_true rfl
  obtain ⟨hnul, hempty, hshort⟩ := hplain _ htext
  exact ⟨hnul, hempty, hshort⟩

/-- What has no NUL has none without its last name. -/
theorem noNul_of_join (hn : IsName n)
    (h : ¬ (q / Path.ofString n).text.toList.contains '\x00' = true) :
    ¬ q.text.toList.contains '\x00' = true := by
  by_cases hq : q.names = []
  · exact (isUsable_of_no_names hq).noNul
  · rw [List.contains_iff_mem] at h ⊢
    rw [Path.text_join_name hq hn, String.toList_append, String.toList_append] at h
    exact fun hmem => h (List.mem_append_left _ (List.mem_append_left _ hmem))

theorem noNul_parent (h : ¬ p.text.toList.contains '\x00' = true) :
    ¬ p.parent.text.toList.contains '\x00' = true := by
  by_cases hp : p.names = []
  · have hparent : p.parent = p := by
      refine Path.eq_of_parts rfl ?_
      change p.names.dropLast = p.names
      rw [hp]
      rfl
    rwa [hparent]
  · rw [← Path.parent_join_name hp] at h
    exact noNul_of_join (Path.isName_name hp) h

/-- A path that can be gone on can be gone without its last name. -/
theorem isUsable_of_join (hn : IsName n) (h : IsUsable (q / .ofString n).text) :
    IsUsable q.text := by
  by_cases hq : q.names = []
  · exact isUsable_of_no_names hq
  refine ⟨noNul_of_join hn h.noNul, fun hempty => ?_, ?_⟩
  · exact Path.text_ne_empty hq (by rw [hempty]; rfl)
  · have hshort := h.isShort
    rw [Path.text_join_name hq hn, String.utf8ByteSize_append, String.utf8ByteSize_append]
      at hshort
    omega

/-- **A path with one name more** leads to what the name stands for where the path leads. -/
theorem trail_join (hn : IsName n) (h : IsUsable (q / .ofString n).text) :
    fs.trail false (q / .ofString n).text = withName fs n (fs.trail true q.text) := by
  obtain ⟨hanchor, hnames⟩ := join_name q hn
  have hstart : fs.startAt (q / Path.ofString n).text = fs.startAt q.text := by
    unfold startAt
    simp only [Path.head_text, hanchor]
  rw [trail_of_usable h, trail_of_usable (isUsable_of_join hn h), trailFollow_pathNames,
    trailFollow_pathNames, hnames, hstart]
  exact trailFollow_concat

/-! ### Places by name -/

theorem lastLook_leadsTo (h : LeadsTo (lastLook fs dir n) l) :
    l = dir ++ [n] ∧ (lastLook fs dir n).1 = [l] := by
  obtain ⟨t, ht, hspot⟩ := h
  unfold lastLook at ht ⊢
  rcases name_cases n with rfl | rfl | hn | hn
  · cases ht
    cases hspot
  · cases ht
    cases hspot
  · rw [trailAlong_long hn] at ht
    cases ht
  · rw [trailAlong_name hn] at ht ⊢
    rcases onward_cases ht with ⟨-, hway, hend⟩ | ⟨-, hway⟩ | ⟨target, -, hlast, -⟩
    · obtain ⟨rfl, -⟩ := hend.isPlace hspot
      rw [hway]
      exact ⟨rfl, rfl⟩
    · dsimp only at ht
      rw [hway] at ht
      cases ht
      cases hspot
    · exact absurd ⟨rfl, rfl⟩ hlast

/-- **The place of a path** is its last name in the directory that its parent leads to. -/
theorem place_join (hn : IsName n) (h : fs.place? (q / .ofString n).text = some l) :
    ∃ dir, fs.resolve true q.text = .ok (.present dir .directory) ∧ l = dir ++ [n] ∧
      fs.lookups false (q / .ofString n).text = fs.lookups true q.text ++ [l] := by
  have hleads := leadsTo_of_place h
  have husable := isUsable_of_place h
  rw [trail_join hn husable] at hleads
  unfold lookups
  rw [trail_join hn husable, ← trail_snd]
  rcases hway : fs.trail true q.text with ⟨ls, f | ⟨dir, _ | _ | _⟩ | ⟨dir, m⟩⟩ <;>
    rw [hway] at hleads
  · exact absurd hleads not_leadsTo_error
  · exact absurd hleads not_leadsTo_error
  · have hlast : LeadsTo (lastLook fs dir n) l := hleads
    obtain ⟨hl, hlooks⟩ := lastLook_leadsTo hlast
    refine ⟨dir, rfl, hl, ?_⟩
    dsimp only [withName]
    rw [hlooks]
  · exact absurd hleads not_leadsTo_error
  · exact absurd hleads not_leadsTo_error

/-- A path without names has no place. -/
theorem names_ne_nil_of_place (h : fs.place? p.text = some l) : p.names ≠ [] := by
  intro hnil
  have hleads := leadsTo_of_place h
  rw [trail_of_usable (isUsable_of_place h), Path.pathNames_text_nil hnil] at hleads
  obtain ⟨t, ht, hspot⟩ := hleads
  cases ht
  cases hspot

theorem place_parent (h : fs.place? p.text = some l) :
    ∃ dir, fs.resolve true p.parent.text = .ok (.present dir .directory) ∧ l = dir ++ [p.name] ∧
      fs.lookups false p.text = fs.lookups true p.parent.text ++ [l] := by
  have hnames := names_ne_nil_of_place h
  have hjoin := Path.parent_join_name hnames
  rw [← hjoin] at h
  obtain ⟨dir, hdir, hl, hlooks⟩ := place_join (Path.isName_name hnames) h
  rw [hjoin] at hlooks
  exact ⟨dir, hdir, hl, hlooks⟩

/-! ### Paths without NUL -/

section

variable {followLast : Bool} {goOn : Location → List String → Except Fault Target} {f : Fault}
  {up : List String}

theorem along_ne_nul (hlink : ∀ here names, goOn here names ≠ .error .nulInPath) :
    along fs followLast goOn up names ≠ .error .nulInPath := by
  induction names generalizing up with
  | nil => rintro ⟨⟩
  | cons n rest ih =>
    rw [along]
    split
    · exact ih
    split
    · exact ih
    split
    · rintro ⟨⟩
    rcases fs.entryUp? (n :: up) with _ | bytes | _ | target <;> dsimp only
    · split <;> rintro ⟨⟩
    · split <;> rintro ⟨⟩
    · exact ih
    · split
      · rintro ⟨⟩
      split
      · rintro ⟨⟩
      · exact hlink _ _

theorem follow_ne_nul (fuel : Nat) : follow fs followLast fuel here names ≠ .error .nulInPath := by
  induction fuel generalizing here names with
  | zero => exact along_ne_nul fun _ _ h => by cases h
  | succ fuel ih => exact along_ne_nul fun _ _ => ih

variable (h : ¬ path.toList.contains '\x00' = true)

include h

theorem resolve_ne_nul : fs.resolve followLast path ≠ .error .nulInPath := by
  unfold resolve
  rw [if_neg h]
  split
  · rintro ⟨⟩
  split
  · rintro ⟨⟩
  · exact follow_ne_nul _

namespace Change

theorem makeDirectory_ne_nul : ((makeDirectory path).run.run fs).1 ≠ .error .nulInPath := by
  unfold makeDirectory create
  rw [run_bind, run_resolve]
  rcases hres : fs.resolve false path with f | ⟨l, e⟩ | ⟨dir, name⟩
  · rintro ⟨⟩
    exact resolve_ne_nul h hres
  · rintro ⟨⟩
  · rintro ⟨⟩

omit h in
theorem acceptDirectory_ne_nul (hf : f ≠ .nulInPath) :
    ((acceptDirectory path f).run.run fs).1 ≠ .error .nulInPath := by
  have hread : fs.isDirectory path ≠ .error .nulInPath := by
    unfold isDirectory
    split <;> simp_all
  unfold acceptDirectory
  rw [if_neg hf, run_bind, run_get]
  dsimp only
  rcases hdir : fs.isDirectory path with g | _ | _
  · rintro ⟨⟩
    exact hread hdir
  · rintro ⟨⟩
    exact hf rfl
  · rintro ⟨⟩

theorem makeLeaf_ne_nul : ((makeLeaf path).run.run fs).1 ≠ .error .nulInPath := by
  unfold makeLeaf
  rw [run_tryCatch]
  have hmake : ((makeDirectory path).run.run fs).1 ≠ .error .nulInPath := makeDirectory_ne_nul h
  rcases hrun : (makeDirectory path).run.run fs with ⟨f | _, fs'⟩
  · rw [hrun] at hmake
    dsimp only
    split
    · exact hmake
    · exact acceptDirectory_ne_nul fun hf => hmake (by rw [hf])
  · rintro ⟨⟩

omit h

/-- **Making a path without NUL fails with other faults only.** -/
theorem makePath_ne_nul (h : ¬ p.text.toList.contains '\x00' = true) (fuel : Nat) :
    ((makePath fuel p).run.run fs).1 ≠ .error .nulInPath := by
  induction fuel generalizing p fs with
  | zero => exact makeLeaf_ne_nul h
  | succ fuel ih =>
    unfold makePath
    rw [run_tryCatch]
    have hmake : ((makeDirectory p.text).run.run fs).1 ≠ .error .nulInPath :=
      makeDirectory_ne_nul h
    rcases hrun : (makeDirectory p.text).run.run fs with ⟨f | _, fs'⟩
    · rw [hrun] at hmake
      dsimp only
      split
      · split
        · exact hmake
        rw [run_bind]
        have hparent : ((makePath fuel p.parent).run.run fs').1 ≠ .error .nulInPath :=
          ih (noNul_parent h)
        rcases hpath : (makePath fuel p.parent).run.run fs' with ⟨g | _, fs''⟩
        · rw [hpath] at hparent
          exact hparent
        · exact makeLeaf_ne_nul h
      · exact acceptDirectory_ne_nul fun hf => hmake (by rw [hf])
    · rintro ⟨⟩

end Change

end

end FileSystem

/-! ### Texts that are staged beside their targets -/

namespace Artifact

open FileSystem

variable {fs fs' : FileSystem} {t u s : Path} {l l' : Location}

theorem stagingPath_eq_some (h : stagingPath? t = some s) :
    IsName t.name ∧ s = t.parent / .ofString (stagingName t.name) := by
  unfold stagingPath? at h
  split at h
  · cases h
  · rename_i hname
    cases h
    refine ⟨Path.isName_name fun hnil => hname ?_, rfl⟩
    unfold Path.name
    rw [hnil]
    rfl

theorem place_staging (hs : stagingPath? t = some s) (hl : fs.place? s.text = some l) :
    ∃ dir, fs.resolve true t.parent.text = .ok (.present dir .directory) ∧
      l = dir ++ [stagingName t.name] ∧
        fs.lookups false s.text = fs.lookups true t.parent.text ++ [l] := by
  obtain ⟨hname, rfl⟩ := stagingPath_eq_some hs
  exact place_join (isName_stagingName hname) hl

/-- Targets with one place have their texts staged at one place. -/
theorem stagingPlace_unique (ht : l ∈ fs.place? t.text) (hu : l ∈ fs.place? u.text)
    {x y : Location} (hx : x ∈ stagingPlace? fs t) (hy : y ∈ stagingPlace? fs u) : x = y := by
  obtain ⟨s, hs, hx⟩ := mem_stagingPlace.1 hx
  obtain ⟨s', hs', hy⟩ := mem_stagingPlace.1 hy
  obtain ⟨dir, hdir, rfl, -⟩ := place_parent ht
  obtain ⟨dir', hdir', heq, -⟩ := place_parent hu
  obtain ⟨d, hd, rfl, -⟩ := place_staging hs hx
  obtain ⟨d', hd', rfl, -⟩ := place_staging hs' hy
  rw [hdir] at hd
  rw [hdir'] at hd'
  cases hd
  cases hd'
  obtain ⟨rfl, hnames⟩ := List.append_inj' heq rfl
  rw [(List.cons.inj hnames).1]

/-- Where the way to a staged text is as it was, so is the way to its target. -/
theorem place_of_staging (h : Rewrites fs fs') (hs : stagingPath? t = some s)
    (hl : fs'.place? s.text = some l) (ht : fs.place? t.text = some l') :
    fs'.place? t.text = some l' := by
  obtain ⟨hplace, hsame⟩ := h.place_of_place hl
  obtain ⟨-, -, -, hlooks⟩ := place_staging hs hplace
  obtain ⟨-, -, -, hlooks'⟩ := place_parent ht
  apply h.place_of_same ht
  rw [hlooks, List.dropLast_concat] at hsame
  rwa [hlooks', List.dropLast_concat]

end Artifact

end WorkflowCatalog
