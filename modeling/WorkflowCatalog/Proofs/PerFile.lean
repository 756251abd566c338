/-
  WorkflowCatalog/Proofs/PerFile.lean
  ===================================
  **When the text of a manifest ends a run.**  A run goes on after a manifest that
  cannot be parsed, unless its text breaks (`Manifest.Breaks`) or declares an argument
  whose name is no string, which no workflow can have (`SpoilsRun`).

  Main statement: these texts are the only ones for which validating fails, and for
  which compiling does not report the parse errors of the other manifests, apart from
  the parse errors that cannot be shown (`perFile_iff`).  It is so whatever order the
  answers arrive in, as long as no wait fails.
-/
import WorkflowCatalog.Proofs.Agreement
import WorkflowCatalog.Proofs.Breakdown

namespace WorkflowCatalog

/-! ### Names of arguments -/

namespace Workflow

/-- An argument with a name that is not empty can have it exactly if it is a string. -/
theorem exists_normalizeArgument {a : RawArgument} (h : a.name.isEmpty = false) :
    (∃ w, normalizeArgument a = .ok w) ↔ a.name.toString?.isSome = true := by
  unfold normalizeArgument
  cases hs : a.name.toString? with
  | none => simp
  | some s =>
    by_cases hempty : s = ""
    · subst hempty
      have hpoints := Text.CodeText.points_eq_nil hs
      rw [Text.CodeText.isEmpty, hpoints] at h
      cases h
    · simp [hempty]

theorem exists_normalizeArguments {as : List RawArgument}
    (h : ∀ a ∈ as, a.name.isEmpty = false) :
    (∃ ws, normalizeArguments as = .ok ws) ↔ ∀ a ∈ as, a.name.toString?.isSome = true := by
  induction as with
  | nil => simp [normalizeArguments]
  | cons a rest ih =>
    have hrest := ih fun b hb => h b (List.mem_cons_of_mem _ hb)
    rw [List.forall_mem_cons, ← hrest, ← exists_normalizeArgument (h a List.mem_cons_self)]
    constructor
    · rintro ⟨ws, hws⟩
      obtain ⟨w, hw, hws⟩ := bind_eq_ok.1 hws
      obtain ⟨ws', hws', -⟩ := bind_eq_ok.1 hws
      exact ⟨⟨w, hw⟩, ws', hws'⟩
    · rintro ⟨⟨w, hw⟩, ws, hws⟩
      refine ⟨w :: ws, ?_⟩
      simp only [normalizeArguments, hw, hws]
      rfl

theorem exists_normalize {raw : RawWorkflow} {filename : String}
    (h : ∀ a ∈ raw.arguments.getD [], a.name.isEmpty = false) :
    (∃ w, normalize raw filename = .ok w) ↔
      ∀ a ∈ raw.arguments.getD [], a.name.toString?.isSome = true := by
  cases ha : raw.arguments with
  | none =>
    refine ⟨fun _ a hmem => absurd hmem List.not_mem_nil, fun _ => ?_⟩
    unfold normalize
    rw [ha]
    exact ⟨_, rfl⟩
  | some as =>
    rw [ha] at h
    have has : (∃ ws, normalizeArguments as = .ok ws) ↔
        ∀ a ∈ (some as).getD [], a.name.toString?.isSome = true := exists_normalizeArguments h
    rw [← has]
    unfold normalize
    simp only [ha]
    cases normalizeArguments as with
    | error m =>
      constructor
      · rintro ⟨w, hw⟩
        cases hw
      · rintro ⟨ws, hws⟩
        cases hws
    | ok ws => exact ⟨fun _ => ⟨ws, rfl⟩, fun _ => ⟨_, rfl⟩⟩

end Workflow

namespace Compiler

open Manifest (Breaks StaysOwn)

variable {fs : FileSystem} {config : Config} {directory : Path} {paths : List Path}

/-! ### Texts that end a run -/

/-- Reading the text breaks, or it declares an argument whose name is no string. -/
def SpoilsRun (config : Config) (p : Path) (text : String) : Prop :=
  Breaks (parseOptions config).policy text ∨
    ∃ raw, (Manifest.parse (parseOptions config) p.text text).outcome = .ok raw ∧
      ∃ a ∈ raw.arguments.getD [], a.name.toString?.isSome = false

/-- The rest of the work on a text that can be read. -/
theorem staysOwn_text {p : Path} {text : String} :
    StaysOwn ((Manifest.parse (parseOptions config) p.text text).outcome.bind fun raw =>
        (Workflow.normalize raw p.name).mapError Failure.mismatch) ↔
      ¬ SpoilsRun config p text := by
  have hparsed : StaysOwn (Manifest.parse (parseOptions config) p.text text).outcome ↔
      ¬ Breaks (parseOptions config).policy text := Manifest.staysOwn_parse
  unfold SpoilsRun
  rw [not_or, ← hparsed]
  cases hparse : (Manifest.parse (parseOptions config) p.text text).outcome with
  | error f =>
    constructor
    · intro h
      refine ⟨h.imp (fun ⟨w, hw⟩ => by cases hw) fun ⟨e, he⟩ => ⟨e, by cases he; rfl⟩, ?_⟩
      rintro ⟨raw, hraw, -⟩
      cases hraw
    · rintro ⟨h, -⟩
      exact h.imp (fun ⟨raw, hraw⟩ => by cases hraw) fun ⟨e, he⟩ => ⟨e, by cases he; rfl⟩
  | ok raw =>
    have hnormalize : (∃ w, Workflow.normalize raw p.name = .ok w) ↔
        ∀ a ∈ raw.arguments.getD [], a.name.toString?.isSome = true :=
      Workflow.exists_normalize fun a ha => Manifest.name_of_parse hparse ha
    have hown : StaysOwn ((Workflow.normalize raw p.name).mapError Failure.mismatch) ↔
        ∃ w, Workflow.normalize raw p.name = .ok w := by
      cases Workflow.normalize raw p.name with
      | error m =>
        constructor
        · rintro (⟨w, hw⟩ | ⟨e, he⟩)
          · cases hw
          · cases he
        · rintro ⟨w, hw⟩
          cases hw
      | ok w => exact ⟨fun _ => ⟨w, rfl⟩, fun _ => .inl ⟨w, rfl⟩⟩
    change StaysOwn ((Workflow.normalize raw p.name).mapError Failure.mismatch) ↔ _
    rw [hown, hnormalize]
    constructor
    · intro hall
      refine ⟨.inl ⟨raw, rfl⟩, ?_⟩
      rintro ⟨raw', hraw', a, ha, hname⟩
      cases hraw'
      rw [hall a ha] at hname
      cases hname
    · rintro ⟨-, hnone⟩ a ha
      cases hname : a.name.toString?.isSome with
      | true => rfl
      | false => exact absurd ⟨raw, rfl, a, ha, hname⟩ hnone

/-- A text is never the cause of a read error. -/
theorem not_isReadError_of_text {p : Path} {text : String} {e : Error}
    (h : ((Manifest.parse (parseOptions config) p.text text).outcome.bind fun raw =>
        (Workflow.normalize raw p.name).mapError Failure.mismatch) = .error (.error e)) :
    ¬ IsReadError e := by
  rintro ⟨reason, path, detail, rfl⟩
  rcases bind_eq_error.1 h with hparse | ⟨raw, -, hnormalize⟩
  · rcases Manifest.isTextFailure_of_parse hparse with ⟨d, hd, -⟩ | ⟨b, hb⟩
    · cases hd
    · cases hb
  · obtain ⟨m, -, hm⟩ := mapError_eq_error.1 hnormalize
    cases hm

/-- **A run goes on after a manifest**, exactly if its path holds no NUL and its text, if it
    has one, does not spoil the run. -/
theorem endsForeseen_iff {p : Path} :
    EndsForeseen fs config p ↔
      fs.readBytes p.text ≠ .error .nulInPath ∧
        ∀ text, (readText fs p).outcome = .ok text → ¬ SpoilsRun config p text := by
  unfold EndsForeseen
  rw [outcome_compileManifest]
  cases hread : (readText fs p).outcome with
  | ok text =>
    have hnul : fs.readBytes p.text ≠ .error .nulInPath := by
      intro h
      rw [outcome_readText, h] at hread
      cases hread
    constructor
    · intro h
      refine ⟨hnul, ?_⟩
      rintro _ ⟨⟩
      rw [← staysOwn_text]
      rcases h with h | h | ⟨e, he, h⟩
      · exact .inl h
      · exact .inr h
      · exact absurd he (not_isReadError_of_text h)
    · rintro ⟨-, h⟩
      rcases staysOwn_text.2 (h text rfl) with h | h
      · exact .inl h
      · exact .inr (.inl h)
  | error f =>
    have htext : ∀ text, (Except.error f : Except Failure String) ≠ .ok text := nofun
    rw [outcome_readText] at hread
    split at hread
    · rename_i bytes hbytes
      split at hread
      · cases hread
      · cases hread
        refine ⟨fun _ => ⟨by simp [hbytes], fun text h => absurd h (htext text)⟩, fun _ => ?_⟩
        exact .inr (.inl ⟨_, rfl⟩)
    · rename_i hnul
      cases hread
      constructor
      · rintro (⟨w, h⟩ | ⟨e, h⟩ | ⟨e, -, h⟩) <;> cases h
      · rintro ⟨h, -⟩
        exact absurd hnul h
    · rename_i fault hne hfault
      cases hread
      refine ⟨fun _ => ⟨?_, fun text h => absurd h (htext text)⟩, fun _ => ?_⟩
      · rw [hfault]
        intro h
        exact hne (Except.error.inj h)
      · exact .inr (.inr ⟨unreadable p, ⟨_, _, _, rfl⟩, rfl⟩)

/-! ### Validating -/

/-- Validating can list problems exactly if a run goes on after every manifest. -/
theorem exists_validatesTo_iff :
    (∃ problems, ValidatesTo fs config paths (.ok problems)) ↔
      ∀ p ∈ paths, EndsForeseen fs config p := by
  constructor
  · rintro ⟨problems, h⟩ p hp
    rcases leadsTo_iff.1 h with ⟨ended, hends, hproblems⟩ | ⟨-, hfails⟩
    · cases ended with
      | error f => cases hproblems
      | ok os => exact exists_settle_iff.1 (hends.exists_settle p hp)
    · cases hfails
  · intro hall
    obtain ⟨os, hos⟩ := exists_ends_ok fun p hp => exists_settle_iff.2 (hall p hp)
    exact ⟨problemsOf os, leadsTo_iff.2 (.inl ⟨.ok os, hos, rfl⟩)⟩

/-- It does so whatever order the answers arrive in, if no wait can fail. -/
theorem forall_validatesTo_ok_iff :
    (∀ validated, ValidatesTo fs config paths validated → ∃ problems, validated = .ok problems) ↔
      CanWait config paths ∧ ∀ p ∈ paths, EndsForeseen fs config p := by
  rw [forall_leadsTo_iff nofun]
  refine and_congr_right fun _ => ?_
  simp only [← exists_settle_iff]
  rw [← forall_ends_ok_iff]
  refine forall_congr' fun ended => imp_congr_right fun _ => ?_
  cases ended with
  | error f => exact ⟨nofun, nofun⟩
  | ok os => exact ⟨fun _ => ⟨os, rfl⟩, fun _ => ⟨problemsOf os, rfl⟩⟩

/-! ### Compiling -/

/-- The result is the error that reports parse errors, this one among them. -/
def IsReported (e : ParseError) (compiled : Except Failure Collection) : Prop :=
  ∃ errors issues names, compiled = .error (.error (.manifests errors issues names)) ∧ e ∈ errors

/-- A run that goes on to its end and comes upon parse errors reports them all, if they can
    be shown. -/
theorem isReported_conclude_iff {os : List (Path × Outcome)} (h : IsComplete fs config paths os)
    {e : ParseError} (he : e ∈ parseErrors os) :
    IsReported e (conclude os).outcome ↔ ∀ d ∈ parseErrors os, d.isShown = true := by
  rcases outcome_conclude_cases (List.ne_nil_of_mem he) h.presentable with
    ⟨issues, -, hall, hended⟩ | ⟨hnot, hended⟩
  · rw [hended]
    exact ⟨fun _ => hall, fun _ => ⟨parseErrors os, issues, _, rfl, he⟩⟩
  · rw [hended]
    constructor
    · rintro ⟨errors, issues, names, hcompiled, -⟩
      cases hcompiled
    · intro hall
      exact absurd hall hnot

variable (fs config paths) in
/-- A run goes on after every manifest, also one that stops for unreadable manifests, and every
    parse error can be shown. -/
def AllReportable : Prop :=
  (∀ q ∈ paths, EndsForeseen fs config q ∧ ¬ IsUnreadable fs config q) ∧
    ∀ q ∈ paths, ∀ d, IsUnparsed fs config q d → d.isShown = true

/-- **Parse errors are reported only by a run that goes on to its end.** -/
theorem isReported_iff {p : Path} (hp : p ∈ paths) {e : ParseError}
    (he : IsUnparsed fs config p e) {ended : Except Failure (List (Path × Outcome))}
    (hends : Ends (answers fs config) true (arrange paths) ended) :
    IsReported e (ended.bind fun os => (conclude os).outcome) ↔
      AllReportable fs config paths := by
  cases ended with
  | ok os =>
    have hcomplete := hends.isComplete
    have hall : ∀ q ∈ paths, EndsForeseen fs config q ∧ ¬ IsUnreadable fs config q :=
      fun q hq => exists_settle_true_iff.1 (hends.exists_settle q hq)
    unfold AllReportable
    rw [and_iff_right hall, ← hcomplete.forall_isShown_iff]
    exact isReported_conclude_iff hcomplete (hcomplete.mem_parseErrors.2 ⟨p, hp, he⟩)
  | error f =>
    constructor
    · rintro ⟨errors, issues, names, hcompiled, -⟩
      cases hcompiled
      obtain ⟨q, -, hf, -⟩ := hends.exists_fatal
      cases isFileFailure_of_compileManifest fs config hf with
      | text htext =>
        rcases htext with ⟨e', he', -⟩ | ⟨b, hb⟩
        · cases he'
        · cases hb
    · rintro ⟨hall, -⟩
      obtain ⟨os, hos⟩ := exists_ends_ok fun q hq => exists_settle_true_iff.2 (hall q hq)
      cases hos.eq_of_ok hends

theorem exists_isReported_iff {p : Path} (hp : p ∈ paths) {e : ParseError}
    (he : IsUnparsed fs config p e) :
    (∃ compiled, CompilesTo fs config paths compiled ∧ IsReported e compiled) ↔
      AllReportable fs config paths := by
  constructor
  · rintro ⟨compiled, hcompiled, hreported⟩
    rcases leadsTo_iff.1 hcompiled with ⟨ended, hends, rfl⟩ | ⟨-, rfl⟩
    · exact (isReported_iff hp he hends).1 hreported
    · obtain ⟨errors, issues, names, hfails, -⟩ := hreported
      cases hfails
  · intro hall
    have hends := ends_of_mapM fs config true (arrange paths)
    exact ⟨_, leadsTo_iff.2 (.inl ⟨_, hends, rfl⟩), (isReported_iff hp he hends).2 hall⟩

theorem forall_isReported_iff {p : Path} (hp : p ∈ paths) {e : ParseError}
    (he : IsUnparsed fs config p e) :
    (∀ compiled, CompilesTo fs config paths compiled → IsReported e compiled) ↔
      CanWait config paths ∧ AllReportable fs config paths := by
  have hfails : ¬ IsReported e (.error .waitTooLong) := by
    rintro ⟨errors, issues, names, hfails, -⟩
    cases hfails
  rw [forall_leadsTo_iff hfails]
  refine and_congr_right fun _ => ⟨fun h => ?_, fun hall ended hends => ?_⟩
  · have hends := ends_of_mapM fs config true (arrange paths)
    exact (isReported_iff hp he hends).1 (h _ hends)
  · exact (isReported_iff hp he hends).2 hall

/-- **What spoils one manifest spoils that manifest only**, but for texts that break or
    spoil the run, and parse errors that cannot be shown.  Where the time limit is longer than
    can be waited, a wait may fail in any case. -/
theorem perFile_iff (hdiscover : (discover fs config directory).outcome = .ok paths) :
    (∀ options file text, StaysOwn (Manifest.parse options file text).outcome ↔
      ¬ Breaks options.policy text) ∧
    ((∀ p ∈ paths, EndsForeseen fs config p) ↔
      ∀ p ∈ paths, fs.readBytes p.text ≠ .error .nulInPath ∧
        ∀ text, (readText fs p).outcome = .ok text → ¬ SpoilsRun config p text) ∧
    ((∃ problems, ValidatesTo fs config paths (.ok problems)) ↔
      ∀ p ∈ paths, EndsForeseen fs config p) ∧
    ((∀ validated, ValidatesTo fs config paths validated →
        ∃ problems, validated = .ok problems) ↔
      CanWait config paths ∧ ∀ p ∈ paths, EndsForeseen fs config p) ∧
    (∀ p ∈ paths, ∀ e, IsUnparsed fs config p e →
      ((∃ compiled, CompilesTo fs config paths compiled ∧ IsReported e compiled) ↔
        AllReportable fs config paths) ∧
      ((∀ compiled, CompilesTo fs config paths compiled → IsReported e compiled) ↔
        CanWait config paths ∧ AllReportable fs config paths)) ∧
    (isOverAtOnce config = false →
      ValidatesTo fs config paths (validate fs config directory).outcome ∧
        CompilesTo fs config paths (compile fs config directory).outcome) := by
  refine ⟨fun _ _ _ => Manifest.staysOwn_parse,
    ⟨fun h p hp => endsForeseen_iff.1 (h p hp), fun h p hp => endsForeseen_iff.2 (h p hp)⟩,
    exists_validatesTo_iff, forall_validatesTo_ok_iff, fun p hp e he => ?_, fun htime => ?_⟩
  · exact ⟨exists_isReported_iff hp he, forall_isReported_iff hp he⟩
  · exact ⟨validatesTo_validate hdiscover htime, compilesTo_compile hdiscover htime⟩

/-! ### A text that breaks -/

/-- A directory with a workflow and a manifest that gives an integer by its tag and no
    digit. -/
def oneBroken : FileSystem where
  entries := FileSystem.located [(["d"], .directory), (["d", "a.yaml"], .file "name: A\n".toUTF8),
    (["d", "b.yaml"], .file "x: !!int \"\"\n".toUTF8)]
  workingDirectory := []

/-- The break ends every validation of the directory. -/
theorem perFile_oneBroken :
    (discover oneBroken .usual (.ofString "d")).outcome =
        .ok [.ofString "d/a.yaml", .ofString "d/b.yaml"] ∧
      ¬ EndsForeseen oneBroken .usual (.ofString "d/b.yaml") ∧
      ¬ ∃ problems, ValidatesTo oneBroken .usual [.ofString "d/a.yaml", .ofString "d/b.yaml"]
        (.ok problems) := by
  have hdiscover : (discover oneBroken .usual (.ofString "d")).outcome =
      .ok [.ofString "d/a.yaml", .ofString "d/b.yaml"] := by decide +kernel
  have hbroken : (compileManifest oneBroken .usual (.ofString "d/b.yaml")).outcome.map
      (fun _ => ()) = .error (.broken .emptyNumber) := by decide +kernel
  have hnot : ¬ EndsForeseen oneBroken .usual (.ofString "d/b.yaml") := by
    rintro (⟨w, h⟩ | ⟨e, h⟩ | ⟨e, -, h⟩) <;> rw [h] at hbroken <;> cases hbroken
  obtain ⟨-, -, hvalidates, -⟩ := perFile_iff hdiscover
  refine ⟨hdiscover, hnot, ?_⟩
  rw [hvalidates]
  intro hall
  exact hnot (hall _ (List.mem_cons_of_mem _ List.mem_cons_self))

/-- Neither reading the text nor validating its directory ends in anything foreseen. -/
theorem not_perFile_oneBroken :
    (∀ options : Manifest.Options, ∀ file,
      ¬ StaysOwn (Manifest.parse options file "x: !!int \"\"\n").outcome) ∧
      (validate oneBroken .usual (.ofString "d")).outcome = .error (.broken .emptyNumber) ∧
      (compile oneBroken .usual (.ofString "d")).outcome = .error (.broken .emptyNumber) := by
  refine ⟨?_, by decide +kernel, by decide +kernel⟩
  intro options file
  have hload : ((Yaml.load "x: !!int \"\"\n").mapError (Manifest.faultError "")).map
      (fun _ => ()) = .error (.broken .emptyNumber) := by decide +kernel
  rw [Manifest.outcome_parse]
  cases hvalue : Yaml.load "x: !!int \"\"\n" with
  | ok v =>
    rw [hvalue] at hload
    cases hload
  | error fault =>
    rw [hvalue] at hload
    cases fault with
    | broken b => exact Manifest.not_staysOwn_broken b
    | _ => cases hload

end Compiler

end WorkflowCatalog
