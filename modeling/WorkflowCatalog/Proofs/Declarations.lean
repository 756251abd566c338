/-
  WorkflowCatalog/Proofs/Declarations.lean
  ========================================
  **What a well-shaped document declares.**  `Declares` says it without reading anything:
  each field is missing and declares nothing, or it is of its shape and declares what it
  holds; a list declares one thing for each of its items, in their order.

  Main statement: reading finds nothing and ends with a workflow exactly if the document
  declares that workflow (`survey_eq_pure_iff`).
-/
import Mathlib.Data.List.Forall2
import WorkflowCatalog.Proofs.Places

namespace WorkflowCatalog.Manifest

open Text (CodeText)
open Yaml (Value)

/-! ### Declaring -/

/-- The value of a field that may be missing. -/
def MayDeclare {α : Type} (R : Value → α → Prop) (v : Value) : Option α → Prop
  | none => v = .null
  | some a => R v a

def IsText (v : Value) (t : CodeText) : Prop := v.scalarText? = .ok (some t)

def IsMark (v : Value) (b : Bool) : Prop := v = .bool b

/-- A list with one item for each of the things declared. -/
def IsListOf {α : Type} (R : Value → α → Prop) (v : Value) (as : List α) : Prop :=
  ∃ items, v = .list items ∧ List.Forall₂ R items as

/-- A mapping with a name that is not empty. -/
inductive IsArgument : Value → RawArgument → Prop
  | intro {fields : List (String × Value)} {a : RawArgument}
      (name : IsText (Value.field "name" fields) a.name) (named : a.name.isEmpty = false)
      (required : MayDeclare IsMark (Value.field "required" fields) a.required)
      (description : MayDeclare IsText (Value.field "description" fields) a.description)
      (defaultValue : MayDeclare IsText (Value.field "default_value" fields) a.defaultValue) :
      IsArgument (.mapping fields) a

structure Declares (fields : List (String × Value)) (raw : RawWorkflow) : Prop where
  name : MayDeclare IsText (Value.field "name" fields) raw.name
  command : MayDeclare IsText (Value.field "command" fields) raw.command
  description : MayDeclare IsText (Value.field "description" fields) raw.description
  sourceUrl : MayDeclare IsText (Value.field "source_url" fields) raw.sourceUrl
  author : MayDeclare IsText (Value.field "author" fields) raw.author
  authorUrl : MayDeclare IsText (Value.field "author_url" fields) raw.authorUrl
  tags : MayDeclare (IsListOf IsText) (Value.field "tags" fields) raw.tags
  shells : MayDeclare (IsListOf IsText) (Value.field "shells" fields) raw.shells
  arguments : MayDeclare (IsListOf IsArgument) (Value.field "arguments" fields) raw.arguments

/-! ### Reading without findings -/

namespace Survey

variable {α β : Type}

theorem eq_pure_iff {s : Survey α} {a : α} : s = pure a ↔ s.findings = [] ∧ s.value = a := by
  obtain ⟨findings, b⟩ := s
  exact Survey.mk.injEq findings b [] a ▸ Iff.rfl

/-- Readings in sequence find nothing if each finds nothing. -/
theorem bind_eq_pure {s : Survey α} {f : α → Survey β} {b : β} :
    s >>= f = pure b ↔ ∃ a, s = pure a ∧ f a = pure b := by
  simp only [eq_pure_iff, findings_bind, value_bind, List.append_eq_nil_iff]
  constructor
  · rintro ⟨⟨hs, hf⟩, hb⟩
    exact ⟨s.value, ⟨hs, rfl⟩, hf, hb⟩
  · rintro ⟨_, ⟨hs, rfl⟩, hf, hb⟩
    exact ⟨⟨hs, hf⟩, hb⟩

theorem map_eq_pure {s : Survey α} {f : α → β} {b : β} :
    f <$> s = pure b ↔ ∃ a, s = pure a ∧ f a = b := by
  simp only [eq_pure_iff, findings_map, value_map]
  constructor
  · rintro ⟨hs, hb⟩
    exact ⟨s.value, ⟨hs, rfl⟩, hb⟩
  · rintro ⟨_, ⟨hs, rfl⟩, hb⟩
    exact ⟨hs, hb⟩

theorem report_ne_pure {finding : Finding} {a b : α} : report finding a ≠ pure b := by
  intro h
  cases congrArg Survey.findings h

theorem pure_inj {a b : α} : (pure a : Survey α) = pure b ↔ a = b :=
  ⟨congrArg Survey.value, congrArg pure⟩

end Survey

theorem surveyText_eq_pure_iff {finding : Finding} {v : Value} {o : Option CodeText} :
    surveyText (.report finding none) v = pure o ↔ ∃ t, o = some t ∧ IsText v t := by
  unfold surveyText IsText
  cases v.scalarText? with
  | error b => simp [Survey.report_ne_pure]
  | ok t =>
    cases t with
    | none => simp [Survey.report_ne_pure]
    | some t => simp [Survey.pure_inj, eq_comm]

theorem surveyScalar_eq_pure_iff {field : String} {v : Value} {o : Option CodeText} :
    surveyScalar field v = pure o ↔ MayDeclare IsText v o := by
  by_cases hv : v = .null
  · rw [hv]
    cases o with
    | none => exact ⟨fun _ => rfl, fun _ => rfl⟩
    | some t => simp [surveyScalar, Survey.pure_inj, MayDeclare, IsText, Value.scalarText?]
  · rw [surveyScalar_of_ne_null field hv, surveyText_eq_pure_iff]
    cases o with
    | none => simp [MayDeclare, hv]
    | some t => simp [MayDeclare]

theorem surveyRequired_eq_pure_iff {field : String} {v : Value} {o : Option Bool} :
    surveyRequired field v = pure o ↔ MayDeclare IsMark v o := by
  unfold surveyRequired MayDeclare IsMark
  cases v <;> cases o <;> simp [Survey.pure_inj, Survey.report_ne_pure]

theorem surveyItem_eq_pure_iff (place : String) (v : Value) (o : Option CodeText) :
    surveyItem place v = pure o ↔ ∃ t, o = some t ∧ IsText v t :=
  surveyText_eq_pure_iff

theorem surveyArgument_eq_pure_iff (place : String) (v : Value) (o : Option RawArgument) :
    surveyArgument place v = pure o ↔ ∃ a, o = some a ∧ IsArgument v a := by
  cases v with
  | mapping fields =>
    simp only [surveyArgument, Survey.bind_eq_pure, surveyScalar_eq_pure_iff]
    constructor
    · rintro ⟨name, hname, h⟩
      split at h
      · exact absurd h Survey.report_ne_pure
      · rename_i hempty
        simp only [Survey.bind_eq_pure, surveyRequired_eq_pure_iff, surveyScalar_eq_pure_iff,
          Survey.pure_inj] at h
        obtain ⟨required, hrequired, description, hdescription, value, hvalue, rfl⟩ := h
        cases name with
        | none => exact absurd rfl hempty
        | some t =>
          exact ⟨_, rfl, .intro hname (Bool.not_eq_true _ ▸ hempty) hrequired hdescription hvalue⟩
    · rintro ⟨a, rfl, ⟨hname, hnamed, hrequired, hdescription, hvalue⟩⟩
      refine ⟨some a.name, hname, ?_⟩
      rw [if_neg (by rw [Option.getD_some, hnamed]; exact Bool.false_ne_true)]
      simp only [Survey.bind_eq_pure, surveyRequired_eq_pure_iff, surveyScalar_eq_pure_iff,
        Survey.pure_inj]
      exact ⟨_, hrequired, _, hdescription, _, hvalue, rfl⟩
  | _ =>
    constructor
    · intro h
      exact absurd h Survey.report_ne_pure
    · rintro ⟨a, -, h⟩
      cases h

section

variable {α : Type} {read : String → Value → Survey (Option α)} {R : Value → α → Prop}
  (hread : ∀ place v o, read place v = pure o ↔ ∃ a, o = some a ∧ R v a)

include hread

theorem surveyItems_eq_pure_iff {field : String} {i : Nat} {items : List Value} {as : List α} :
    surveyItems read field i items = pure as ↔ List.Forall₂ R items as := by
  induction items generalizing i as with
  | nil => simp [surveyItems, Survey.pure_inj, eq_comm]
  | cons v rest ih =>
    simp only [surveyItems, Survey.bind_eq_pure, hread, ih, Survey.pure_inj,
      List.forall₂_cons_left_iff]
    constructor
    · rintro ⟨_, ⟨a, rfl, ha⟩, as', has', rfl⟩
      exact ⟨a, as', ha, has', rfl⟩
    · rintro ⟨a, as', ha, has', rfl⟩
      exact ⟨some a, ⟨a, rfl, ha⟩, as', has', rfl⟩

/-- A list is read without findings exactly if each of its items is. -/
theorem surveyList_eq_pure_iff {field : String} {v : Value} {o : Option (List α)} :
    surveyList read field v = pure o ↔ MayDeclare (IsListOf R) v o := by
  unfold surveyList MayDeclare IsListOf
  cases v <;> cases o <;>
    simp [Survey.pure_inj, Survey.report_ne_pure, Survey.map_eq_pure,
      surveyItems_eq_pure_iff hread]

end

/-- **Reading finds nothing and ends with a workflow exactly if the document declares it.** -/
theorem survey_eq_pure_iff {fields : List (String × Value)} {raw : RawWorkflow} :
    survey fields = pure raw ↔ Declares fields raw := by
  simp only [survey, surveyTextList_eq, surveyArguments_eq, Survey.bind_eq_pure,
    surveyScalar_eq_pure_iff, surveyList_eq_pure_iff surveyItem_eq_pure_iff,
    surveyList_eq_pure_iff surveyArgument_eq_pure_iff, Survey.pure_inj]
  constructor
  · rintro ⟨name, hname, command, hcommand, description, hdescription, source, hsource, author,
      hauthor, url, hurl, tags, htags, shells, hshells, arguments, harguments, rfl⟩
    exact ⟨hname, hcommand, hdescription, hsource, hauthor, hurl, htags, hshells, harguments⟩
  · rintro ⟨hname, hcommand, hdescription, hsource, hauthor, hurl, htags, hshells, harguments⟩
    exact ⟨_, hname, _, hcommand, _, hdescription, _, hsource, _, hauthor, _, hurl, _, htags, _,
      hshells, _, harguments, rfl⟩

end WorkflowCatalog.Manifest
