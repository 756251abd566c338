/-
  WorkflowCatalog/Proofs/Outcome.lean
  ===================================
  **What reading a manifest ends in.**  The outcome of every stage from the bytes of a
  file to its workflow, as a function of the outcome of the stage before it.

  Main statements: the error of a text is a parse error of its file that can be shown
  as an issue, or a breakdown (`error_cases_of_parse`); the error of a file is that of
  its text, a file that cannot be read, an argument name that is no string, or a NUL
  in the path (`error_cases_of_compileManifest`).  A parse error that can be shown has
  an issue unless it repeats the name of an argument and the name is no string
  (`ParseError.Presentable.ofError`).
-/
import WorkflowCatalog.Compiler.Manifest
import WorkflowCatalog.Proofs.Survey

namespace WorkflowCatalog

open Text (CodeText CodePoint)

/-! ### Texts of two parts -/

namespace Text.CodeText

/-- A text of two parts is a string exactly if both parts are. -/
theorem isSome_toString?_append (t u : CodeText) :
    (t ++ u).toString?.isSome = (t.toString?.isSome && u.toString?.isSome) := by
  have happend : (t ++ u).chars? = (do return (← t.chars?) ++ (← u.chars?)) := List.mapM_append
  simp only [toString?, Option.isSome_map, happend]
  cases t.chars? with
  | none => rfl
  | some cs => cases u.chars? <;> rfl

/-- Only the text without code points is the empty string. -/
theorem points_eq_nil {t : CodeText} (h : t.toString? = some "") : t.points = [] := by
  obtain ⟨ps⟩ := t
  cases ps with
  | nil => rfl
  | cons p ps =>
    simp only [toString?, chars?, List.mapM_cons] at h
    cases hp : p.char? with
    | none => simp [hp] at h
    | some c => cases hps : ps.mapM CodePoint.char? <;> simp [hp, hps] at h

/-- The code points of two strings, one behind the other. -/
theorem points_ofString_append (s t : String) :
    (ofString (s ++ t)).points = (ofString s).points ++ (ofString t).points := by
  simp [ofString, ofChars]

end Text.CodeText

/-! ### Errors that can be shown -/

/-- The line and the column of an error count from one, and it gives a reason. -/
structure ParseError.Presentable (e : ParseError) : Prop where
  line : ∀ n ∈ e.line, 1 ≤ n
  column : ∀ n ∈ e.column, 1 ≤ n
  reason : e.reason.points ≠ []

/-- Is the reason of an error a string?  It is, unless it shows a name that is none. -/
def ParseError.isShown (e : ParseError) : Bool :=
  match e.cause with
  | .duplicateArgument name => name.toString?.isSome
  | _ => true

theorem ParseError.isSome_reason (e : ParseError) : e.reason.toString?.isSome = e.isShown := by
  obtain ⟨cause, file, line, column, detail⟩ := e
  cases cause with
  | duplicateArgument name =>
    simp [ParseError.reason, ParseError.isShown, CodeText.isSome_toString?_append,
      CodeText.toString?_ofString]
  | _ => simp [ParseError.reason, ParseError.isShown, CodeText.toString?_ofString]

/-- The only obstacle to the issue of an error that can be shown: its reason is no
    string. -/
theorem ParseError.Presentable.ofError {e : ParseError} (h : e.Presentable) :
    (∃ i, Issue.ofError e = .ok i) ∧ e.isShown = true ∨
      Issue.ofError e = .error ⟨"ManifestIssue", [⟨.notUnicode, [.field "message"]⟩]⟩ ∧
        e.isShown = false := by
  rw [← e.isSome_reason]
  cases hr : e.reason.toString? with
  | none =>
    refine .inr ⟨?_, rfl⟩
    have hline : Issue.countFromOne "line" e.line = .ok e.line :=
      Issue.countFromOne_eq_ok.2 ⟨h.line, rfl⟩
    have hcolumn : Issue.countFromOne "column" e.column = .ok e.column :=
      Issue.countFromOne_eq_ok.2 ⟨h.column, rfl⟩
    simp only [Issue.ofError, Issue.check, Issue.checkReason, hr, hline, hcolumn]
    rfl
  | some s =>
    refine .inl ⟨⟨⟨e.path, s, e.line, e.column⟩, ?_⟩, rfl⟩
    refine Issue.ofError_eq_ok.2 ⟨hr, ?_, h.line, h.column, rfl, rfl, rfl⟩
    rintro rfl
    exact h.reason (CodeText.points_eq_nil hr)

/-! ### From the text of a manifest to its declarations -/

namespace Manifest

open Yaml (Value)

theorem appends_loadValue (file text : String) : (loadValue file text).Appends := by
  unfold loadValue
  cases Yaml.load text with
  | ok v => exact Traced.appends_pure v
  | error f =>
    dsimp only
    cases faultError file f with
    | error e => exact Run.appends_raise e
    | _ => exact Traced.appends_throw _

theorem outcome_loadValue (file text : String) :
    (loadValue file text).outcome = (Yaml.load text).mapError (faultError file) := by
  unfold loadValue
  cases Yaml.load text with
  | ok v => rfl
  | error f =>
    dsimp only
    change _ = Except.error (faultError file f)
    cases faultError file f with
    | error e => exact Run.outcome_raise e
    | _ => rfl

theorem appends_checkArguments (file : String) (raw : RawWorkflow) :
    (checkArguments file raw).Appends := by
  unfold checkArguments
  cases repeatedArgument? raw with
  | none => exact Traced.appends_pure ()
  | some n => exact Run.appends_raise _

/-- The error of two arguments with one name. -/
def repeatedError (file : String) (name : CodeText) : Error :=
  .parse ⟨.duplicateArgument name, file, none, none, none⟩

theorem outcome_checkArguments (file : String) (raw : RawWorkflow) :
    (checkArguments file raw).outcome =
      match repeatedArgument? raw with
      | some n => .error (.error (repeatedError file n))
      | none => .ok () := by
  unfold checkArguments
  cases repeatedArgument? raw with
  | none => rfl
  | some n => exact Run.outcome_raise _

/-- What the fields of a manifest amount to. -/
def declared (options : Options) (file : String) (fields : List (String × Value)) :
    Except Failure RawWorkflow :=
  match (survey fields).findings.findSome? (Finding.failure? ⟨file, options.policy⟩) with
  | some f => .error f
  | none =>
    match if options.uniqueArguments then repeatedArgument? (survey fields).value else none with
    | some n => .error (.error (repeatedError file n))
    | none => .ok (survey fields).value

/-- What a document amounts to. -/
def interpreted (options : Options) (file : String) : Value → Except Failure RawWorkflow
  | .mapping fields => declared options file fields
  | v => .error (.error (malformedError file v))

/-- The last part of reading: the check of the arguments, if it is asked for. -/
def checked (options : Options) (file : String) (raw : RawWorkflow) : Run RawWorkflow := do
  if options.uniqueArguments then checkArguments file raw
  pure raw

/-- The part of reading that comes after the document has been loaded. -/
def afterLoad (options : Options) (file : String) : Value → Run RawWorkflow
  | .mapping fields => extract ⟨file, options.policy⟩ fields >>= checked options file
  | v => Run.raise (malformedError file v)

theorem parse_eq (options : Options) (file text : String) :
    parse options file text = loadValue file text >>= afterLoad options file := rfl

theorem appends_checked (options : Options) (file : String) (raw : RawWorkflow) :
    (checked options file raw).Appends := by
  unfold checked
  cases options.uniqueArguments with
  | false => exact Traced.appends_pure raw
  | true =>
    exact Traced.appends_bind (appends_checkArguments file raw) fun _ => Traced.appends_pure raw

theorem outcome_checked (options : Options) (file : String) (raw : RawWorkflow) :
    (checked options file raw).outcome =
      match if options.uniqueArguments then repeatedArgument? raw else none with
      | some n => .error (.error (repeatedError file n))
      | none => .ok raw := by
  unfold checked
  cases options.uniqueArguments with
  | false => rfl
  | true =>
    change (checkArguments file raw >>= fun _ => pure raw).outcome = _
    rw [Traced.outcome_bind fun _ => Traced.appends_pure _, outcome_checkArguments]
    simp only [if_true]
    cases repeatedArgument? raw <;> rfl

theorem appends_afterLoad (options : Options) (file : String) (v : Value) :
    (afterLoad options file v).Appends := by
  cases v with
  | mapping fields =>
    exact Traced.appends_bind (appends_extract _ fields) (appends_checked options file)
  | _ => exact Run.appends_raise _

theorem outcome_afterLoad (options : Options) (file : String) (v : Value) :
    (afterLoad options file v).outcome = interpreted options file v := by
  cases v with
  | mapping fields =>
    change (extract ⟨file, options.policy⟩ fields >>= checked options file).outcome =
      declared options file fields
    unfold declared
    rw [Traced.outcome_bind (appends_checked options file), outcome_extract]
    cases (survey fields).findings.findSome? (Finding.failure? ⟨file, options.policy⟩) with
    | some f => rfl
    | none => exact outcome_checked options file _
  | _ => exact Run.outcome_raise _

theorem appends_parse (options : Options) (file text : String) :
    (parse options file text).Appends := by
  rw [parse_eq]
  exact Traced.appends_bind (appends_loadValue file text) (appends_afterLoad options file)

/-- **What reading a text ends in** is decided by its document. -/
theorem outcome_parse (options : Options) (file text : String) :
    (parse options file text).outcome =
      match Yaml.load text with
      | .error f => .error (faultError file f)
      | .ok v => interpreted options file v := by
  rw [parse_eq, Traced.outcome_bind (appends_afterLoad options file), outcome_loadValue]
  cases Yaml.load text with
  | error f => rfl
  | ok v => exact outcome_afterLoad options file v

/-! ### The errors of a text -/

/-- A parse error of a file that can be shown as an issue, or a breakdown. -/
def IsTextFailure (file : String) (f : Failure) : Prop :=
  (∃ e, f = .error (.parse e) ∧ e.file = file ∧ e.Presentable) ∨ ∃ b, f = .broken b

theorem isTextFailure_placeless {file : String} {cause : ParseCause} {detail : Option Log.Detail}
    (h : (ParseError.mk cause file none none detail).reason.points ≠ []) :
    IsTextFailure file (.error (.parse ⟨cause, file, none, none, detail⟩)) :=
  .inl ⟨_, rfl, rfl, nofun, nofun, h⟩

/-- A reason in two parts is not empty if the first part is not. -/
theorem ne_nil_of_left {s t : String} (h : (CodeText.ofString s).points ≠ []) :
    (CodeText.ofString (s ++ t)).points ≠ [] := by
  rw [CodeText.points_ofString_append]
  exact List.append_ne_nil_of_left_ne_nil h _

/-- A reason in two parts is not empty if the second part is not. -/
theorem ne_nil_of_right {s t : String} (h : (CodeText.ofString t).points ≠ []) :
    (CodeText.ofString (s ++ t)).points ≠ [] := by
  rw [CodeText.points_ofString_append]
  exact List.append_ne_nil_of_right_ne_nil _ h

theorem isTextFailure_faultError (file : String) (fault : Yaml.Fault) :
    IsTextFailure file (faultError file fault) := by
  cases fault with
  | unprintable => exact isTextFailure_placeless (ne_nil_of_left (by decide))
  | invalid p m =>
    refine .inl ⟨_, rfl, rfl, ?_, ?_, ne_nil_of_left (by decide)⟩
    · rintro n ⟨⟩
      exact Int.le_add_of_nonneg_left (Int.natCast_nonneg m.line)
    · rintro n ⟨⟩
      exact Int.le_add_of_nonneg_left (Int.natCast_nonneg m.column)
  | unusable p => exact isTextFailure_placeless (ne_nil_of_left (by decide))
  | broken b => exact .inr ⟨b, rfl⟩

theorem isTextFailure_malformedError (file : String) (v : Value) :
    IsTextFailure file (.error (malformedError file v)) :=
  isTextFailure_placeless (ne_nil_of_left (by decide))

theorem isTextFailure_repeatedError (file : String) (name : CodeText) :
    IsTextFailure file (.error (repeatedError file name)) :=
  isTextFailure_placeless (List.append_ne_nil_of_right_ne_nil _ (by decide))

theorem isTextFailure_of_failure? {src : Source} {finding : Finding} {f : Failure}
    (h : finding.failure? src = some f) : IsTextFailure src.file f := by
  cases finding with
  | misshapen field reason =>
    unfold Finding.failure? at h
    cases hp : src.policy with
    | drop => simp [hp] at h
    | refuse =>
      simp only [hp, Option.some.injEq] at h
      subst h
      exact isTextFailure_placeless (ne_nil_of_right (by decide))
  | unwritable =>
    cases h
    exact .inr ⟨_, rfl⟩

theorem isTextFailure_of_declared {options : Options} {file : String}
    {fields : List (String × Value)} {f : Failure}
    (h : declared options file fields = .error f) : IsTextFailure file f := by
  unfold declared at h
  split at h
  · rename_i g hg
    cases h
    obtain ⟨finding, -, hfinding⟩ := List.exists_of_findSome?_eq_some hg
    exact isTextFailure_of_failure? hfinding
  · split at h
    · cases h
      exact isTextFailure_repeatedError file _
    · cases h

theorem isTextFailure_of_interpreted {options : Options} {file : String} {v : Value} {f : Failure}
    (h : interpreted options file v = .error f) : IsTextFailure file f := by
  cases v with
  | mapping fields => exact isTextFailure_of_declared h
  | _ =>
    cases h
    exact isTextFailure_malformedError file _

/-- **The errors of a text.** -/
theorem isTextFailure_of_parse {options : Options} {file text : String} {f : Failure}
    (h : (parse options file text).outcome = .error f) : IsTextFailure file f := by
  rw [outcome_parse] at h
  cases hl : Yaml.load text with
  | error fault =>
    rw [hl] at h
    cases h
    exact isTextFailure_faultError file fault
  | ok v =>
    rw [hl] at h
    exact isTextFailure_of_interpreted h

end Manifest

/-! ### From a file to a workflow -/

namespace Compiler

variable (fs : FileSystem) (config : Config)

theorem appends_readText (p : Path) : (readText fs p).Appends := by
  unfold readText
  cases fs.readBytes p.text with
  | ok bytes =>
    dsimp only
    cases String.fromUTF8? bytes with
    | none => exact Run.appends_raise _
    | some s => exact Traced.appends_pure _
  | error f =>
    cases f with
    | nulInPath => exact Traced.appends_throw _
    | _ => exact Run.appends_raise _

/-- What a file that is read ends in. -/
theorem outcome_readText (p : Path) :
    (readText fs p).outcome =
      match fs.readBytes p.text with
      | .ok bytes =>
        match String.fromUTF8? bytes with
        | some s => .ok (String.ofList (Text.unifyLineEnds s.toList))
        | none => .error (.error (noText p))
      | .error .nulInPath => .error (.fault .nulInPath)
      | .error _ => .error (.error (unreadable p)) := by
  unfold readText
  cases fs.readBytes p.text with
  | ok bytes =>
    dsimp only
    cases String.fromUTF8? bytes with
    | none => exact Run.outcome_raise _
    | some s => rfl
  | error f =>
    cases f with
    | nulInPath => rfl
    | _ => exact Run.outcome_raise _

/-- The part of the work on a manifest that comes after its text has been parsed. -/
def afterParse (p : Path) (raw : RawWorkflow) : Run Workflow := do
  let workflow ← Run.ofChecked (Workflow.normalize raw p.name)
  Traced.log (event .debug "manifest_parsed"
    [("file", .text p.text), ("slug", .text workflow.slug.text)])
  pure workflow

/-- The part of the work on a manifest that comes after its text has been read. -/
def afterText (p : Path) (text : String) : Run Workflow :=
  Manifest.parse (parseOptions config) p.text text >>= afterParse p

theorem compileManifest_eq (p : Path) :
    compileManifest fs config p = readText fs p >>= afterText config p := rfl

theorem appends_afterParse (p : Path) (raw : RawWorkflow) : (afterParse p raw).Appends :=
  Traced.appends_bind (Run.appends_ofChecked _) fun _ =>
    Traced.appends_bind (Traced.appends_log _) fun _ => Traced.appends_pure _

theorem outcome_afterParse (p : Path) (raw : RawWorkflow) :
    (afterParse p raw).outcome = (Workflow.normalize raw p.name).mapError .mismatch := by
  unfold afterParse
  rw [Traced.outcome_bind fun _ =>
    Traced.appends_bind (Traced.appends_log _) fun _ => Traced.appends_pure _,
    Run.outcome_ofChecked]
  cases Workflow.normalize raw p.name <;> rfl

theorem appends_afterText (p : Path) (text : String) : (afterText config p text).Appends :=
  Traced.appends_bind (Manifest.appends_parse _ _ _) (appends_afterParse p)

theorem outcome_afterText (p : Path) (text : String) :
    (afterText config p text).outcome =
      (Manifest.parse (parseOptions config) p.text text).outcome.bind fun raw =>
        (Workflow.normalize raw p.name).mapError .mismatch := by
  unfold afterText
  rw [Traced.outcome_bind (appends_afterParse p)]
  congr 1
  funext raw
  exact outcome_afterParse p raw

theorem appends_compileManifest (p : Path) : (compileManifest fs config p).Appends :=
  Traced.appends_bind (appends_readText fs p) (appends_afterText config p)

/-- **What the work on a manifest ends in**, stage by stage. -/
theorem outcome_compileManifest (p : Path) :
    (compileManifest fs config p).outcome =
      (readText fs p).outcome.bind fun text =>
        (Manifest.parse (parseOptions config) p.text text).outcome.bind fun raw =>
          (Workflow.normalize raw p.name).mapError .mismatch := by
  rw [compileManifest_eq, Traced.outcome_bind (appends_afterText config p)]
  congr 1
  funext text
  exact outcome_afterText config p text

/-! ### The errors of a file -/

/-- The slug of a workflow comes from the file name. -/
theorem slug_of_normalize {raw : RawWorkflow} {filename : String} {w : Workflow}
    (h : Workflow.normalize raw filename = .ok w) : w.slug = Slug.ofFilename filename := by
  unfold Workflow.normalize at h
  cases ha : raw.arguments with
  | none =>
    rw [ha] at h
    cases h
    rfl
  | some args =>
    rw [ha] at h
    dsimp only at h
    cases hn : Workflow.normalizeArguments args with
    | error m =>
      rw [hn] at h
      cases h
    | ok as =>
      rw [hn] at h
      cases h
      rfl

theorem slug_of_compileManifest {p : Path} {w : Workflow}
    (h : (compileManifest fs config p).outcome = .ok w) : w.slug = Slug.ofFilename p.name := by
  rw [outcome_compileManifest] at h
  obtain ⟨text, -, h⟩ := bind_eq_ok.1 h
  obtain ⟨raw, -, h⟩ := bind_eq_ok.1 h
  exact slug_of_normalize (mapError_eq_ok.1 h)

/-- A failure of the text of a file, a file that cannot be read, an argument name that is
    no string, or a NUL in the path. -/
inductive IsFileFailure (p : Path) : Failure → Prop where
  | text {f : Failure} (h : Manifest.IsTextFailure p.text f) : IsFileFailure p f
  | unreadable : IsFileFailure p (.error (unreadable p))
  | mismatch (m : Validation.Mismatch) : IsFileFailure p (.mismatch m)
  | nulInPath : IsFileFailure p (.fault .nulInPath)

theorem isFileFailure_of_readText {p : Path} {f : Failure}
    (h : (readText fs p).outcome = .error f) : IsFileFailure p f := by
  rw [outcome_readText] at h
  split at h
  · split at h
    · cases h
    · cases h
      exact .text (Manifest.isTextFailure_placeless (List.cons_ne_nil _ _))
  · cases h
    exact .nulInPath
  · cases h
    exact .unreadable

/-- **The errors of a file.** -/
theorem isFileFailure_of_compileManifest {p : Path} {f : Failure}
    (h : (compileManifest fs config p).outcome = .error f) : IsFileFailure p f := by
  rw [outcome_compileManifest] at h
  rcases bind_eq_error.1 h with h | ⟨text, -, h⟩
  · exact isFileFailure_of_readText fs h
  rcases bind_eq_error.1 h with h | ⟨raw, -, h⟩
  · exact .text (Manifest.isTextFailure_of_parse h)
  · obtain ⟨m, -, rfl⟩ := mapError_eq_error.1 h
    exact .mismatch m

end Compiler

end WorkflowCatalog
