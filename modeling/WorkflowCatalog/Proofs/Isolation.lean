/-
  WorkflowCatalog/Proofs/Isolation.lean
  =====================================
  **Broken manifests are isolated.**  Manifests that cannot be parsed are added to
  manifests that compile.  Wherever their paths come in the order of all paths, the
  others give the workflows that they give alone (`records_eq`), so the error of the run
  has the parse error of every broken manifest, in the order of their paths, and names the
  workflows of the collection.

  An error shows each parse error as an issue, and every parse error of a manifest keeps
  the rules of an issue but one: the reason has to be a string.  Main statement: the run
  ends in the error that reports the broken manifests, exactly if their parse errors can
  be shown, and in a mismatch otherwise, besides a wait that fails (`isolation_iff`).
-/
import Mathlib.Data.List.Forall2
import WorkflowCatalog.Proofs.Agreement
import WorkflowCatalog.Proofs.Collection

namespace WorkflowCatalog

open Text (CodeText CodePoint)

/-! ### Issues of parse errors -/

/-- The text of a string is the text that has the string. -/
theorem Text.CodeText.ofString_of_toString? {t : CodeText} {s : String}
    (h : t.toString? = some s) : CodeText.ofString s = t := by
  obtain ⟨ps⟩ := t
  obtain ⟨cs, hcs, rfl⟩ := Option.map_eq_some_iff.1 h
  have hpoints : ofChars cs = ps := by
    clear h
    induction ps generalizing cs with
    | nil =>
      cases hcs
      rfl
    | cons p ps ih =>
      obtain ⟨c, hc, cs', hcs', rfl⟩ : ∃ c, p.char? = some c ∧
          ∃ cs', ps.mapM CodePoint.char? = some cs' ∧ cs = c :: cs' := by
        simp only [CodeText.chars?, List.mapM_cons] at hcs
        cases hp : p.char? with
        | none => simp [hp] at hcs
        | some c => cases hps : ps.mapM CodePoint.char? <;> simp_all
      cases p with
      | char d =>
        cases hc
        exact congrArg _ (ih cs' hcs')
      | half n => cases hc
  rw [CodeText.ofString, String.toList_ofList, hpoints]

namespace Compiler

/-- The issue says what the parse error says. -/
structure Shows (e : ParseError) (i : Issue) : Prop where
  path : i.path = e.path
  message : CodeText.ofString i.message = e.reason
  line : i.line = e.line
  column : i.column = e.column

theorem shows_of_ofError {e : ParseError} {i : Issue} (h : Issue.ofError e = .ok i) :
    Shows e i := by
  obtain ⟨hreason, -, -, -, hpath, hline, hcolumn⟩ := Issue.ofError_eq_ok.1 h
  exact ⟨hpath, CodeText.ofString_of_toString? hreason, hline, hcolumn⟩

theorem forall₂_shows {errors : List ParseError} {issues : List Issue}
    (h : errors.mapM Issue.ofError = .ok issues) : List.Forall₂ Shows errors issues := by
  induction errors generalizing issues with
  | nil =>
    cases h
    exact .nil
  | cons e rest ih =>
    rw [List.mapM_cons] at h
    obtain ⟨i, hi, h⟩ := bind_eq_ok.1 h
    obtain ⟨is, his, h⟩ := bind_eq_ok.1 h
    cases h
    exact .cons (shows_of_ofError hi) (ih his)

/-! ### What is reported of broken manifests -/

section

variable {fs : FileSystem} {config : Config} {good broken paths : List Path} {c : Collection}
  {os os' : List (Path × Outcome)}

variable (fs config) in
/-- One parse error for every broken manifest, its own, in ascending order of the paths. -/
structure Reports (broken : List Path) (reported : List (Path × ParseError)) : Prop where
  ascending : reported.Pairwise fun q r => q.1.text < r.1.text
  mem_iff : ∀ p, (∃ e, (p, e) ∈ reported) ↔ p ∈ broken
  unparsed : ∀ q ∈ reported, IsUnparsed fs config q.1 q.2
  path : ∀ q ∈ reported, q.2.path = q.1

/-- The parse errors of outcomes, with their paths. -/
def reportedIn (os : List (Path × Outcome)) : List (Path × ParseError) :=
  os.filterMap fun o =>
    match o.2 with
    | .error (.parse e) => some (o.1, e)
    | _ => none

variable (fs config) in
/-- The result is the error that has the parse error of every broken manifest, shows each as
    an issue, and names the workflows of a collection. -/
def Isolates (broken : List Path) (c : Collection) (result : Except Failure Collection) : Prop :=
  ∃ reported issues, Reports fs config broken reported ∧
    List.Forall₂ Shows (reported.map (·.2)) issues ∧
    result = .error (.error (.manifests (reported.map (·.2)) issues
      (c.workflows.map (·.name))))

theorem map_reportedIn (os : List (Path × Outcome)) :
    (reportedIn os).map (·.2) = parseErrors os := by
  unfold reportedIn parseErrors
  rw [List.map_filterMap]
  congr 1
  funext q
  obtain ⟨p, o⟩ := q
  cases o with
  | ok w => rfl
  | error e => cases e <;> rfl

theorem mem_reportedIn {p : Path} {e : ParseError} :
    (p, e) ∈ reportedIn os ↔ (p, .error (.parse e)) ∈ os := by
  unfold reportedIn
  rw [List.mem_filterMap]
  constructor
  · rintro ⟨⟨p', o⟩, hmem, h⟩
    dsimp only at h
    split at h
    · cases h
      exact hmem
    · cases h
  · intro hmem
    exact ⟨_, hmem, rfl⟩

/-- The parse error of a manifest names the manifest. -/
theorem path_of_isUnparsed {p : Path} {e : ParseError} (h : IsUnparsed fs config p e) :
    e.path = p := by
  cases isFileFailure_of_compileManifest fs config h with
  | text htext =>
    rcases htext with ⟨e', he, hfile, -⟩ | ⟨b, hb⟩
    · cases he
      rw [ParseError.path, hfile, Path.ofString_text]
    · cases hb

/-! ### Manifests that compile, and broken ones among them -/

/-- Where compiling gives a collection, every manifest gives a workflow, and the collection
    is made of them. -/
theorem exists_complete_of_compilesTo (h : CompilesTo fs config good (.ok c)) :
    ∃ os, IsComplete fs config good os ∧
      (∀ p ∈ good, ∃ w, (compileManifest fs config p).outcome = .ok w) ∧
      c.workflows = (records os).map (·.workflow) := by
  obtain ⟨os, hos, hsettle, hbad, -, rfl⟩ := exists_outcomes_of_compilesTo h
  obtain ⟨hpaths, hworkflow⟩ := map_records_of_run hos hsettle hbad
  refine ⟨os, isComplete_of_settle hos hsettle, ?_, rfl⟩
  intro p hp
  rw [← mem_arrange, ← hpaths] at hp
  obtain ⟨r, hr, rfl⟩ := List.mem_map.1 hp
  exact ⟨r.workflow, hworkflow r hr⟩

section

variable (hgood : ∀ p ∈ good, ∃ w, (compileManifest fs config p).outcome = .ok w)
  (hbroken : ∀ p ∈ broken, ∃ e, IsUnparsed fs config p e)
  (hpaths : ∀ p, p ∈ paths ↔ p ∈ good ∨ p ∈ broken)

include hgood hbroken hpaths

/-- Nothing ends the run over the manifests before its end. -/
theorem exists_ends_of_broken :
    ∃ os, Ends (answers fs config) true (arrange paths) (.ok os) := by
  refine exists_ends_ok fun p hp => ?_
  rcases (hpaths p).1 hp with hp | hp
  · obtain ⟨w, hw⟩ := hgood p hp
    exact ⟨.ok w, by rw [answers, hw]; rfl⟩
  · obtain ⟨e, he⟩ := hbroken p hp
    exact ⟨.error (.parse e), by rw [answers, he]; rfl⟩

omit hgood in
/-- **The others give the workflows that they give alone**, in the same order. -/
theorem records_eq (h : IsComplete fs config paths os) (h' : IsComplete fs config good os') :
    records os = records os' := by
  refine eq_of_ascending (records_ascending h.ascending) (records_ascending h'.ascending) ?_
  intro r
  rw [h.mem_records, h'.mem_records, hpaths]
  constructor
  · rintro ⟨hp | hp, hw⟩
    · exact ⟨hp, hw⟩
    · obtain ⟨e, he⟩ := hbroken _ hp
      rw [he] at hw
      cases hw
  · rintro ⟨hp, hw⟩
    exact ⟨.inl hp, hw⟩

/-- **Every broken manifest is reported, and none besides.** -/
theorem reports_reportedIn (h : IsComplete fs config paths os) :
    Reports fs config broken (reportedIn os) where
  ascending := by
    refine pairwise_picked h.ascending ?_
    rintro ⟨p, o⟩ q hq
    dsimp only at hq
    split at hq
    · cases hq
      rfl
    · cases hq
  mem_iff p := by
    simp only [mem_reportedIn, h.mem_outcomes, hpaths]
    constructor
    · rintro ⟨e, hp | hp, he⟩
      · obtain ⟨w, hw⟩ := hgood p hp
        rw [hw] at he
        cases he
      · exact hp
    · intro hp
      obtain ⟨e, he⟩ := hbroken p hp
      exact ⟨e, .inr hp, he⟩
  unparsed := by
    rintro ⟨p, e⟩ hq
    exact (h.mem_outcomes.1 (mem_reportedIn.1 hq)).2
  path := by
    rintro ⟨p, e⟩ hq
    exact path_of_isUnparsed (h.mem_outcomes.1 (mem_reportedIn.1 hq)).2

omit hbroken in
/-- The parse errors of the run can be shown if those of the broken manifests can. -/
theorem forall_isShown_broken_iff (h : IsComplete fs config paths os) :
    (∀ e ∈ parseErrors os, e.isShown = true) ↔
      ∀ p ∈ broken, ∀ e, IsUnparsed fs config p e → e.isShown = true := by
  rw [h.forall_isShown_iff]
  constructor
  · intro hall p hp
    exact hall p ((hpaths p).2 (.inr hp))
  · intro hall p hp e he
    rcases (hpaths p).1 hp with hp | hp
    · obtain ⟨w, hw⟩ := hgood p hp
      cases hw.symm.trans he
    · exact hall p hp e he

/-- The outcomes of all manifests isolate the broken ones exactly if their parse errors can be
    shown, and end in a mismatch otherwise. -/
theorem isolates_conclude (hne : broken ≠ []) (h : IsComplete fs config paths os)
    (h' : IsComplete fs config good os') (hc : c.workflows = (records os').map (·.workflow)) :
    (Isolates fs config broken c (conclude os).outcome ↔
      ∀ p ∈ broken, ∀ e, IsUnparsed fs config p e → e.isShown = true) ∧
    ((∃ p ∈ broken, ∃ e, IsUnparsed fs config p e ∧ e.isShown = false) →
      (conclude os).outcome = .error (.mismatch issueMismatch)) := by
  have hreports := reports_reportedIn hgood hbroken hpaths h
  have hshown := forall_isShown_broken_iff hgood hpaths h
  have hnames : (records os).map (fun r => r.workflow.name) = c.workflows.map (·.name) := by
    rw [records_eq hbroken hpaths h h', hc, List.map_map]
    rfl
  have hbad : parseErrors os ≠ [] := by
    obtain ⟨p, hp⟩ := List.exists_mem_of_ne_nil _ hne
    obtain ⟨e, hmem⟩ := (hreports.mem_iff p).2 hp
    rw [← map_reportedIn]
    exact List.ne_nil_of_mem (List.mem_map_of_mem hmem)
  rw [← hshown]
  rcases outcome_conclude_cases hbad h.presentable with
    ⟨issues, hissues, hall, hended⟩ | ⟨hnot, hended⟩
  · refine ⟨⟨fun _ => hall, fun _ => ?_⟩, ?_⟩
    · refine ⟨reportedIn os, issues, hreports, ?_, ?_⟩
      · rw [map_reportedIn]
        exact forall₂_shows hissues
      · rw [hended, map_reportedIn, hnames]
    · rintro ⟨p, hp, e, he, hhidden⟩
      rw [hshown.1 hall p hp e he] at hhidden
      cases hhidden
  · refine ⟨⟨?_, fun hall => absurd hall hnot⟩, fun _ => hended⟩
    rintro ⟨reported, issues, -, -, hresult⟩
    rw [hended] at hresult
    cases hresult

end

/-- A wait that fails reports nothing. -/
theorem not_isolates_waitTooLong :
    ¬ Isolates fs config broken c (.error .waitTooLong) := by
  rintro ⟨reported, issues, -, -, hresult⟩
  cases hresult

/-- **Broken manifests are isolated**, exactly if their parse errors can be shown; otherwise
    the run ends in a mismatch.  The order in which answers arrive makes no difference; but where
    the time limit is longer than can be waited, the run may end with a wait that fails.  That
    the others compile may be known of their answers in some order, or of the program that works
    on them one after the other (`compilesTo_of_ok`). -/
theorem isolation_iff (hc : CompilesTo fs config good (.ok c)) (hne : broken ≠ [])
    (hbroken : ∀ p ∈ broken, ∃ e, IsUnparsed fs config p e)
    (hpaths : ∀ p, p ∈ paths ↔ p ∈ good ∨ p ∈ broken) :
    (∃ result,
      (∀ result', CompilesTo fs config paths result' ↔ result' = result ∨
        (isTooLong config = true ∧ result' = .error .waitTooLong)) ∧
      (Isolates fs config broken c result ↔
        ∀ p ∈ broken, ∀ e, IsUnparsed fs config p e → e.isShown = true) ∧
      ((∃ p ∈ broken, ∃ e, IsUnparsed fs config p e ∧ e.isShown = false) →
        result = .error (.mismatch issueMismatch))) ∧
    ((∀ result, CompilesTo fs config paths result → Isolates fs config broken c result) ↔
      isTooLong config = false ∧
        ∀ p ∈ broken, ∀ e, IsUnparsed fs config p e → e.isShown = true) ∧
    (isOverAtOnce config = false →
      CompilesTo fs config paths (compilePaths fs config paths).outcome) := by
  obtain ⟨os', hos', hgood, hworkflows⟩ := exists_complete_of_compilesTo hc
  obtain ⟨os, hends⟩ := exists_ends_of_broken hgood hbroken hpaths
  obtain ⟨hisolates, hmismatch⟩ :=
    isolates_conclude hgood hbroken hpaths hne hends.isComplete hos' hworkflows
  have hsome : paths ≠ [] := by
    obtain ⟨p, hp⟩ := List.exists_mem_of_ne_nil _ hne
    exact List.ne_nil_of_mem ((hpaths p).2 (.inr hp))
  have hwait : CanWait config paths ↔ isTooLong config = false := or_iff_left hsome
  refine ⟨⟨(conclude os).outcome, fun result' => ?_, hisolates, hmismatch⟩, ?_,
    compilesTo_compilePaths⟩
  · rw [← Bool.not_eq_false, ← hwait]
    exact leadsTo_iff_of_unique hends fun _ => hends.eq_of_ok
  · rw [forall_leadsTo_iff not_isolates_waitTooLong, hwait, ← hisolates]
    refine and_congr_right fun _ => ⟨fun h => h _ hends, fun h ended hended => ?_⟩
    rw [hends.eq_of_ok hended]
    exact h

end

/-! ### Broken manifests among workflows -/

/-- Two workflows, with broken manifests before, between and after them. -/
def interleaved : FileSystem where
  entries := FileSystem.located [(["d"], .directory), (["d", "a.yaml"], .file "- 1\n".toUTF8),
    (["d", "b.yaml"], .file "name: B\n".toUTF8), (["d", "c.yaml"], .file "x: [\n".toUTF8),
    (["d", "e.yaml"], .file "command: ls\n".toUTF8), (["d", "f.yaml"], .file "ls\n".toUTF8)]
  workingDirectory := []

/-- The workflows, and the broken manifests. -/
def goodPaths : List Path := [.ofString "d/e.yaml", .ofString "d/b.yaml"]
def brokenPaths : List Path := [.ofString "d/f.yaml", .ofString "d/a.yaml", .ofString "d/c.yaml"]

/-- All of them in some order. -/
def mixedPaths : List Path :=
  [.ofString "d/c.yaml", .ofString "d/b.yaml", .ofString "d/f.yaml", .ofString "d/a.yaml",
    .ofString "d/e.yaml"]

/-- A manifest ends in one parse error. -/
theorem IsUnparsed.eq {fs : FileSystem} {config : Config} {p : Path} {e e' : ParseError}
    (h : IsUnparsed fs config p e) (h' : IsUnparsed fs config p e') : e = e' :=
  Error.parse.inj (Failure.error.inj (Except.error.inj (h.symm.trans h')))

theorem isUnparsed_broken : ∀ p ∈ brokenPaths,
    ∃ e, IsUnparsed interleaved .usual p e ∧ e.isShown = true := by
  intro p hp
  simp only [brokenPaths, List.mem_cons, List.not_mem_nil, or_false] at hp
  rcases hp with rfl | rfl | rfl
  · exact ⟨⟨.malformed "Manifest top level must be a mapping, got str", "d/f.yaml", none, none,
      none⟩, by unfold IsUnparsed; decide +kernel, rfl⟩
  · exact ⟨⟨.malformed "Manifest top level must be a mapping, got list", "d/a.yaml", none, none,
      none⟩, by unfold IsUnparsed; decide +kernel, rfl⟩
  · exact ⟨⟨.unreadable "Invalid YAML syntax: expected the node content, but found '<stream end>'",
      "d/c.yaml", some 2, some 1, some .external⟩, by unfold IsUnparsed; decide +kernel, rfl⟩

/-- Three parse errors in the order of the paths, and two names of workflows. -/
theorem isolation_interleaved :
    ∃ c, (compilePaths interleaved .usual goodPaths).outcome = .ok c ∧
      CompilesTo interleaved .usual goodPaths (.ok c) ∧
      c.workflows.map (·.name) = [↑"B", ↑"e"] ∧ brokenPaths ≠ [] ∧
      (∀ p ∈ brokenPaths, ∃ e, IsUnparsed interleaved .usual p e) ∧
      (∀ p, p ∈ mixedPaths ↔ p ∈ goodPaths ∨ p ∈ brokenPaths) ∧
      (∀ result, CompilesTo interleaved .usual mixedPaths result →
        result = (compilePaths interleaved .usual mixedPaths).outcome) ∧
      Isolates interleaved .usual brokenPaths c
        (compilePaths interleaved .usual mixedPaths).outcome := by
  have hnames : ((compilePaths interleaved .usual goodPaths).outcome.map fun c =>
      c.workflows.map (·.name)) = .ok [↑"B", ↑"e"] := by decide +kernel
  have hne : brokenPaths ≠ [] := List.cons_ne_nil _ _
  have hpaths : ∀ p, p ∈ mixedPaths ↔ p ∈ goodPaths ∨ p ∈ brokenPaths := by
    have hsame : arrange mixedPaths = arrange (goodPaths ++ brokenPaths) := by decide +kernel
    intro p
    rw [← mem_arrange, hsame, mem_arrange, List.mem_append]
  have hbroken : ∀ p ∈ brokenPaths, ∃ e, IsUnparsed interleaved .usual p e := by
    intro p hp
    obtain ⟨e, he, -⟩ := isUnparsed_broken p hp
    exact ⟨e, he⟩
  have hshown : ∀ p ∈ brokenPaths, ∀ e, IsUnparsed interleaved .usual p e →
      e.isShown = true := by
    intro p hp e he
    obtain ⟨e', he', hshown⟩ := isUnparsed_broken p hp
    rw [he.eq he']
    exact hshown
  have hshort : isTooLong .usual = false := by decide +kernel
  cases hc : (compilePaths interleaved .usual goodPaths).outcome with
  | error f =>
    rw [hc] at hnames
    cases hnames
  | ok c =>
    rw [hc] at hnames
    have hgood := compilesTo_of_ok hc
    obtain ⟨⟨result, hresult, -⟩, hall, hprogram⟩ := isolation_iff hgood hne hbroken hpaths
    have hcompiles := hprogram (by decide +kernel)
    have honly : ∀ result', CompilesTo interleaved .usual mixedPaths result' →
        result' = result := by
      intro result' h
      refine ((hresult result').1 h).resolve_right ?_
      rw [hshort]
      nofun
    refine ⟨c, rfl, hgood, Except.ok.inj hnames, hne, hbroken, hpaths, ?_,
      hall.2 ⟨hshort, hshown⟩ _ hcompiles⟩
    intro result' h
    rw [honly _ h, honly _ hcompiles]

/-- A workflow, and a manifest that has two arguments with one name, half a surrogate
    pair. -/
def halfBroken : FileSystem where
  entries := FileSystem.located [(["d"], .directory), (["d", "a.yaml"], .file "name: A\n".toUTF8),
    (["d", "m.yaml"],
      .file "arguments:\n- name: \"\\ud800\"\n- name: \"\\ud800\"\n".toUTF8)]
  workingDirectory := []

/-- The parse error of one manifest is lost, and with it the name of the other. -/
theorem not_isolates_halfBroken :
    ∃ c e, (compilePaths halfBroken refusing [.ofString "d/a.yaml"]).outcome = .ok c ∧
      IsUnparsed halfBroken refusing (.ofString "d/m.yaml") e ∧
      isOverAtOnce refusing = false ∧ isTooLong refusing = false ∧
      (compilePaths halfBroken refusing [.ofString "d/a.yaml", .ofString "d/m.yaml"]).outcome =
        .error (.mismatch issueMismatch) ∧
      ¬ Isolates halfBroken refusing [.ofString "d/m.yaml"] c
        (compilePaths halfBroken refusing [.ofString "d/a.yaml", .ofString "d/m.yaml"]).outcome := by
  have hgood : ((compilePaths halfBroken refusing [.ofString "d/a.yaml"]).outcome.map fun c =>
      c.workflows.map (·.name)) = .ok [↑"A"] := by decide +kernel
  have hended : (compilePaths halfBroken refusing
      [.ofString "d/a.yaml", .ofString "d/m.yaml"]).outcome =
        .error (.mismatch issueMismatch) := by decide +kernel
  have herror : IsUnparsed halfBroken refusing (.ofString "d/m.yaml")
      ⟨.duplicateArgument ⟨[.half 0]⟩, "d/m.yaml", none, none, none⟩ := by
    unfold IsUnparsed
    decide +kernel
  cases hc : (compilePaths halfBroken refusing [.ofString "d/a.yaml"]).outcome with
  | error f =>
    rw [hc] at hgood
    cases hgood
  | ok c =>
    refine ⟨c, _, rfl, herror, by decide +kernel, by decide +kernel, hended, ?_⟩
    rintro ⟨reported, issues, -, -, hresult⟩
    rw [hended] at hresult
    cases hresult

end Compiler

end WorkflowCatalog
