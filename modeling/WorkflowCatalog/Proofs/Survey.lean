/-
  WorkflowCatalog/Proofs/Survey.lean
  ==================================
  **Extraction as a survey whose findings are met one by one.**  A `Survey` reads all
  fields of a manifest and goes on whatever it comes upon: it gives what a manifest
  declares together with the list of its findings, in order.  It knows neither of a
  journal nor of a policy.

  Main statement: extraction is the survey with its findings met in order
  (`extract_eq_play`).  A policy decides only what it is to meet a finding, so what
  extraction ends in can be read off the findings: under `refuse` from the first
  (`outcome_play_refuse`), under `drop` from whether an integer that cannot be
  written is among them (`outcome_play_drop`).
-/
import WorkflowCatalog.Manifest.Extraction
import WorkflowCatalog.Proofs.Journal

namespace WorkflowCatalog.Manifest

open Text (CodeText)
open Yaml (Value)

/-! ### Findings and surveys -/

/-- What a survey comes upon. -/
inductive Finding where
  /-- A field of the wrong shape. -/
  | misshapen (field reason : String)
  /-- An integer that has too many digits to be written. -/
  | unwritable
  deriving DecidableEq, Repr

/-- A reading that goes on whatever it comes upon. -/
structure Survey (α : Type) where
  findings : List Finding
  value : α

instance : Monad Survey where
  pure a := ⟨[], a⟩
  bind s f := ⟨s.findings ++ (f s.value).findings, (f s.value).value⟩

@[simp]
theorem Survey.findings_pure {α : Type} (a : α) : (pure a : Survey α).findings = [] := rfl

@[simp]
theorem Survey.value_pure {α : Type} (a : α) : (pure a : Survey α).value = a := rfl

@[simp]
theorem Survey.findings_bind {α β : Type} (s : Survey α) (f : α → Survey β) :
    (s >>= f).findings = s.findings ++ (f s.value).findings := rfl

@[simp]
theorem Survey.value_bind {α β : Type} (s : Survey α) (f : α → Survey β) :
    (s >>= f).value = (f s.value).value := rfl

@[simp]
theorem Survey.findings_map {α β : Type} (s : Survey α) (f : α → β) :
    (f <$> s).findings = s.findings := List.append_nil _

@[simp]
theorem Survey.value_map {α β : Type} (s : Survey α) (f : α → β) :
    (f <$> s).value = f s.value := rfl

/-- What happens at a finding. -/
def Finding.meet (src : Source) : Finding → Run Unit
  | .misshapen field reason => reject src field reason
  | .unwritable => throw (.broken .integerTooLong)

/-- The failure that a finding ends in, if it ends in one. -/
def Finding.failure? (src : Source) : Finding → Option Failure
  | .misshapen field reason =>
    match src.policy with
    | .refuse => some (.error (fieldError src.file field reason))
    | .drop => none
  | .unwritable => some (.broken .integerTooLong)

theorem Finding.appends_meet (src : Source) (finding : Finding) :
    (finding.meet src).Appends := by
  cases finding with
  | misshapen field reason =>
    unfold Finding.meet reject
    cases src.policy with
    | drop => exact Traced.appends_log _
    | refuse => exact Run.appends_raise _
  | unwritable => exact Traced.appends_throw _

theorem Finding.outcome_meet (src : Source) (finding : Finding) :
    (finding.meet src).outcome =
      match finding.failure? src with
      | some f => .error f
      | none => .ok () := by
  cases finding with
  | misshapen field reason =>
    unfold Finding.meet Finding.failure? reject
    cases src.policy with
    | drop => exact Traced.outcome_log _
    | refuse => exact Run.outcome_raise _
  | unwritable => exact Traced.outcome_throw _

namespace Survey

variable {α β : Type}

/-- The run that meets the findings of a survey in order. -/
def play (src : Source) (s : Survey α) : Run α := do
  s.findings.forM (Finding.meet src)
  pure s.value

theorem play_pure (src : Source) (a : α) : (pure a : Survey α).play src = pure a := by
  change (do ([] : List Finding).forM (Finding.meet src); pure a) = _
  simp

theorem play_bind (src : Source) (s : Survey α) (f : α → Survey β) :
    (s >>= f).play src = s.play src >>= fun a => (f a).play src := by
  change (do (s.findings ++ (f s.value).findings).forM (Finding.meet src)
             pure (f s.value).value) = _
  simp [play]

theorem play_map (src : Source) (s : Survey α) (f : α → β) :
    (f <$> s).play src = f <$> s.play src := by
  change (s >>= fun a => pure (f a)).play src = _
  simp [play_bind, play_pure]

/-- Findings are met without a look at the journal. -/
theorem appends_forM_meet (src : Source) (findings : List Finding) :
    (findings.forM (Finding.meet src)).Appends := by
  induction findings with
  | nil => exact Traced.appends_pure ()
  | cons finding rest ih =>
    exact Traced.appends_bind (finding.appends_meet src) fun _ => ih

theorem appends_play (src : Source) (s : Survey α) : (s.play src).Appends :=
  Traced.appends_bind (appends_forM_meet src s.findings) fun _ => Traced.appends_pure _

/-- The first finding with a failure decides what meeting findings ends in. -/
theorem outcome_forM_meet (src : Source) (findings : List Finding) :
    (findings.forM (Finding.meet src)).outcome =
      match findings.findSome? (Finding.failure? src) with
      | some f => .error f
      | none => .ok () := by
  induction findings with
  | nil => rfl
  | cons finding rest ih =>
    change (finding.meet src >>= fun _ => rest.forM (Finding.meet src)).outcome = _
    rw [Traced.outcome_bind fun _ => appends_forM_meet src rest, finding.outcome_meet src,
      List.findSome?_cons]
    cases finding.failure? src with
    | some f => rfl
    | none => exact ih

theorem outcome_play (src : Source) (s : Survey α) :
    (s.play src).outcome =
      match s.findings.findSome? (Finding.failure? src) with
      | some f => .error f
      | none => .ok s.value := by
  unfold play
  rw [Traced.outcome_bind fun _ => Traced.appends_pure _, outcome_forM_meet]
  cases s.findings.findSome? (Finding.failure? src) with
  | some f => rfl
  | none => rfl

/-- A survey of one finding. -/
def report (finding : Finding) (a : α) : Survey α := ⟨[finding], a⟩

theorem play_report (src : Source) (finding : Finding) (a : α) :
    (report finding a).play src = finding.meet src >>= fun _ => pure a := by
  simp [play, report]

end Survey

/-! ### The survey of a manifest -/

/-- The text of a value; `otherwise` is what a value that is no scalar amounts to. -/
def surveyText (otherwise : Survey (Option CodeText)) (v : Value) : Survey (Option CodeText) :=
  match v.scalarText? with
  | .ok (some t) => pure (some t)
  | .ok none => otherwise
  | .error _ => .report .unwritable none

/-- The survey of a field that holds a scalar. -/
def surveyScalar (field : String) : Value → Survey (Option CodeText)
  | .null => pure none
  | v => surveyText (.report (.misshapen field ("Expected a scalar, got " ++ v.kindName)) none) v

/-- The survey of the scalars of a list. -/
def surveyTexts (field : String) : Nat → List Value → Survey (List CodeText)
  | _, [] => pure []
  | i, v :: rest => do
    let t ← surveyText (.report (.misshapen (itemField field i) "Expected a scalar list item") none) v
    let ts ← surveyTexts field (i + 1) rest
    pure (t.toList ++ ts)

/-- The survey of a field that holds a list of scalars. -/
def surveyTextList (field : String) : Value → Survey (Option (List CodeText))
  | .null => pure none
  | .list items => some <$> surveyTexts field 0 items
  | v => .report (.misshapen field ("Expected a list, got " ++ v.kindName)) none

/-- The survey of the mark of an argument. -/
def surveyRequired (field : String) : Value → Survey (Option Bool)
  | .null => pure none
  | .bool b => pure (some b)
  | _ => .report (.misshapen field "Expected a boolean") none

/-- The survey of an argument. -/
def surveyArgument (field : String) : Value → Survey (Option RawArgument)
  | .mapping fields => do
    let name := (← surveyScalar (field ++ ".name") (Value.field "name" fields)).getD ⟨[]⟩
    if name.isEmpty then .report (.misshapen (field ++ ".name") "Argument name is missing") none
    else
      let required ← surveyRequired (field ++ ".required") (Value.field "required" fields)
      let description ←
        surveyScalar (field ++ ".description") (Value.field "description" fields)
      let defaultValue ←
        surveyScalar (field ++ ".default_value") (Value.field "default_value" fields)
      pure (some ⟨name, description, defaultValue, required⟩)
  | v => .report (.misshapen field ("Expected a mapping, got " ++ v.kindName)) none

/-- The survey of the arguments of a list. -/
def surveyArgumentItems : Nat → List Value → Survey (List RawArgument)
  | _, [] => pure []
  | i, v :: rest => do
    let a ← surveyArgument (itemField "arguments" i) v
    let as ← surveyArgumentItems (i + 1) rest
    pure (a.toList ++ as)

/-- The survey of the field that holds the arguments. -/
def surveyArguments : Value → Survey (Option (List RawArgument))
  | .null => pure none
  | .list items => some <$> surveyArgumentItems 0 items
  | v => .report (.misshapen "arguments" ("Expected a list, got " ++ v.kindName)) none

/-- The survey of a manifest. -/
def survey (fields : List (String × Value)) : Survey RawWorkflow := do
  let scalarAt (name : String) := surveyScalar name (Value.field name fields)
  let name ← scalarAt "name"
  let command ← scalarAt "command"
  let description ← scalarAt "description"
  let sourceUrl ← scalarAt "source_url"
  let author ← scalarAt "author"
  let authorUrl ← scalarAt "author_url"
  let tags ← surveyTextList "tags" (Value.field "tags" fields)
  let shells ← surveyTextList "shells" (Value.field "shells" fields)
  let arguments ← surveyArguments (Value.field "arguments" fields)
  return { name, command, description, tags, arguments, sourceUrl, author, authorUrl, shells }

/-! ### Extraction meets the findings of the survey -/

/-- To treat a field and go on without it plays the survey that reports it. -/
theorem reject_eq_play (src : Source) (field reason : String) {α : Type} (a : α) :
    (reject src field reason >>= fun _ => pure a) =
      (Survey.report (.misshapen field reason) a).play src :=
  (Survey.play_report src (.misshapen field reason) a).symm

/-- The only breakdown of a text is an integer that is too long. -/
theorem eq_integerTooLong_of_scalarText?_eq_error {v : Value} {b : Yaml.Breakdown}
    (h : v.scalarText? = .error b) : b = .integerTooLong := by
  cases v with
  | int n =>
    simp only [Value.scalarText?] at h
    split at h
    · simpa using h.symm
    · cases h
  | _ => cases h

/-- Playing the survey of a text takes the text, and goes another way for what is none. -/
theorem play_surveyText (src : Source) (otherwise : Survey (Option CodeText)) (v : Value) :
    (surveyText otherwise v).play src =
      textOf? v >>= fun
        | some t => pure (some t)
        | none => otherwise.play src := by
  unfold textOf? surveyText
  cases h : v.scalarText? with
  | ok t =>
    cases t with
    | some t => simp [Survey.play_pure]
    | none => simp
  | error b =>
    rw [eq_integerTooLong_of_scalarText?_eq_error h, Survey.play_report]
    rfl

theorem scalar_eq_play (src : Source) (field : String) (v : Value) :
    scalar src field v = (surveyScalar field v).play src := by
  cases v with
  | null => exact (Survey.play_pure src none).symm
  | _ =>
    simp only [surveyScalar, play_surveyText, Survey.play_report]
    rfl

theorem texts_eq_play (src : Source) (field : String) (i : Nat) (items : List Value) :
    texts src field i items = (surveyTexts field i items).play src := by
  induction items generalizing i with
  | nil => exact (Survey.play_pure src []).symm
  | cons v rest ih =>
    simp only [texts, surveyTexts, Survey.play_bind, Survey.play_pure, play_surveyText,
      Survey.play_report, ← ih, bind_assoc]
    congr 1
    funext t
    cases t <;> simp [Finding.meet]

theorem textList_eq_play (src : Source) (field : String) (v : Value) :
    textList src field v = (surveyTextList field v).play src := by
  cases v with
  | null => exact (Survey.play_pure src none).symm
  | list items => simp [textList, surveyTextList, Survey.play_map, texts_eq_play]
  | _ => exact reject_eq_play src _ _ none

theorem requiredMark_eq_play (src : Source) (field : String) (v : Value) :
    requiredMark src field v = (surveyRequired field v).play src := by
  cases v with
  | null => exact (Survey.play_pure src none).symm
  | bool b => exact (Survey.play_pure src (some b)).symm
  | _ => exact reject_eq_play src _ _ none

theorem argument_eq_play (src : Source) (field : String) (v : Value) :
    argument src field v = (surveyArgument field v).play src := by
  cases v with
  | mapping fields =>
    simp only [argument, surveyArgument, Survey.play_bind, scalar_eq_play, requiredMark_eq_play]
    congr 1
    funext name
    split
    · exact reject_eq_play src _ _ none
    · simp only [Survey.play_bind, Survey.play_pure]
  | _ => exact reject_eq_play src _ _ none

theorem argumentItems_eq_play (src : Source) (i : Nat) (items : List Value) :
    argumentItems src i items = (surveyArgumentItems i items).play src := by
  induction items generalizing i with
  | nil => exact (Survey.play_pure src []).symm
  | cons v rest ih =>
    simp only [argumentItems, surveyArgumentItems, Survey.play_bind, Survey.play_pure, ← ih,
      argument_eq_play]
    congr 1
    funext a
    cases a <;> simp

theorem arguments_eq_play (src : Source) (v : Value) :
    arguments src v = (surveyArguments v).play src := by
  cases v with
  | null => exact (Survey.play_pure src none).symm
  | list items => simp [arguments, surveyArguments, Survey.play_map, argumentItems_eq_play]
  | _ => exact reject_eq_play src _ _ none

/-- **Extraction meets the findings of the survey in order.** -/
theorem extract_eq_play (src : Source) (fields : List (String × Value)) :
    extract src fields = (survey fields).play src := by
  simp only [extract, survey, Survey.play_bind, Survey.play_pure, scalar_eq_play,
    textList_eq_play, arguments_eq_play]

theorem appends_extract (src : Source) (fields : List (String × Value)) :
    (extract src fields).Appends := by
  rw [extract_eq_play]
  exact Survey.appends_play src _

/-- **What extraction ends in can be read off the survey.** -/
theorem outcome_extract (src : Source) (fields : List (String × Value)) :
    (extract src fields).outcome =
      match (survey fields).findings.findSome? (Finding.failure? src) with
      | some f => .error f
      | none => .ok (survey fields).value := by
  rw [extract_eq_play, Survey.outcome_play]

end WorkflowCatalog.Manifest
