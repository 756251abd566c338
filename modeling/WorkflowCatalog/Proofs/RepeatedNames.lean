/-
  WorkflowCatalog/Proofs/RepeatedNames.lean
  =========================================
  **What it changes to ask for arguments with different names.**  The names are compared
  when everything else about a manifest has been read, so a text that cannot be read
  without the comparison ends with it in the same error (`parse_checking`).

  The comparison sees what extraction has made of the document: items that are dropped have
  no name, and a name that is a number or a truth value counts as its text.  `keptNames`
  tells these names from the document alone.

  Main statement: reading goes on exactly if the names are different, and otherwise ends with
  the first name that has occurred before (`parse_uniqueArguments`).
-/
import Mathlib.Data.List.Nodup
import WorkflowCatalog.Proofs.Places
import WorkflowCatalog.Proofs.Policies

namespace WorkflowCatalog.Manifest

open Text (CodeText)
open Yaml (Value)

/-! ### The first repeated name -/

/-- The names are different from each other and from those seen before, or there is a first
    one that is not. -/
theorem firstRepeated_cases {seen : List CodeText} (hseen : seen.Nodup) (names : List CodeText) :
    (firstRepeated? seen names = none ∧ (names ++ seen).Nodup) ∨
      ∃ before n after, names = before ++ n :: after ∧ (before ++ seen).Nodup ∧
        n ∈ before ++ seen ∧ firstRepeated? seen names = some n := by
  induction names generalizing seen with
  | nil => exact .inl ⟨rfl, hseen⟩
  | cons m rest ih =>
    unfold firstRepeated?
    by_cases hm : m ∈ seen
    · rw [if_pos (List.contains_iff_mem.2 hm)]
      exact .inr ⟨[], m, rest, rfl, hseen, hm, rfl⟩
    · rw [if_neg (mt List.contains_iff_mem.1 hm)]
      -- a name that is new stands among those seen, or in front: the same names either way
      have hmove : ∀ names : List CodeText, (names ++ m :: seen).Perm (m :: names ++ seen) :=
        fun _ => List.perm_middle
      rcases ih (List.nodup_cons.2 ⟨hm, hseen⟩) with ⟨hnone, hnodup⟩ |
        ⟨before, n, after, rfl, hnodup, hn, hsome⟩
      · exact .inl ⟨hnone, (hmove rest).nodup_iff.1 hnodup⟩
      · exact .inr ⟨m :: before, n, after, rfl, (hmove before).nodup_iff.1 hnodup,
          (hmove before).mem_iff.1 hn, hsome⟩

/-- The names of the arguments that a manifest declares. -/
def argumentNames (raw : RawWorkflow) : List CodeText := (raw.arguments.getD []).map (·.name)

/-- **The names are different, or there is a first argument whose name another one has in
    front of it.** -/
theorem repeatedArgument_cases (raw : RawWorkflow) :
    (repeatedArgument? raw = none ∧ (argumentNames raw).Nodup) ∨
      ∃ before a after, raw.arguments = some (before ++ a :: after) ∧
        (before.map (·.name)).Nodup ∧ a.name ∈ before.map (·.name) ∧
        repeatedArgument? raw = some a.name := by
  unfold repeatedArgument? argumentNames
  rcases firstRepeated_cases List.nodup_nil ((raw.arguments.getD []).map (·.name)) with
    ⟨hnone, hnodup⟩ | ⟨before, n, after, hnames, hnodup, hn, hsome⟩
  · rw [List.append_nil] at hnodup
    exact .inl ⟨hnone, hnodup⟩
  · rw [List.append_nil] at hnodup hn
    obtain ⟨before, rest, hargs, rfl, hrest⟩ := List.map_eq_append_iff.1 hnames
    obtain ⟨a, after, rfl, rfl, -⟩ := List.map_eq_cons_iff.1 hrest
    refine .inr ⟨before, a, after, ?_, hnodup, hn, hsome⟩
    cases harguments : raw.arguments with
    | none =>
      rw [harguments] at hargs
      exact absurd hargs.symm (List.append_ne_nil_of_right_ne_nil _ (List.cons_ne_nil _ _))
    | some args =>
      rw [harguments] at hargs
      exact congrArg some hargs

/-! ### Comparing names comes last -/

variable {policy : Policy} {file text : String}

/-- Raising an error ends a run, whatever would follow. -/
theorem raise_bind {α β : Type} (e : Error) (f : α → Run β) :
    (Run.raise e >>= f : Run β) = Run.raise e := by
  unfold Run.raise
  rw [bind_assoc]
  rfl

/-- **The names are compared when everything else has been read.** -/
theorem parse_checking (policy : Policy) (file text : String) :
    parse ⟨policy, true⟩ file text =
      parse ⟨policy, false⟩ file text >>= checked ⟨policy, true⟩ file := by
  rw [parse_eq, parse_eq, bind_assoc]
  congr 1
  funext v
  cases v with
  | mapping fields =>
    have hlast : checked ⟨policy, false⟩ file = pure := rfl
    simp only [afterLoad, hlast, bind_pure]
  | _ => exact (raise_bind _ _).symm

theorem outcome_parse_checking (policy : Policy) (file text : String) :
    (parse ⟨policy, true⟩ file text).outcome =
      (parse ⟨policy, false⟩ file text).outcome.bind fun raw =>
        match repeatedArgument? raw with
        | some n => .error (.error (repeatedError file n))
        | none => .ok raw := by
  rw [parse_checking, Traced.outcome_bind (appends_checked _ file)]
  congr 1
  funext raw
  exact outcome_checked ⟨policy, true⟩ file raw

/-! ### The names that are kept -/

/-- The name under which an item of a list of arguments is kept, if it is kept. -/
def keptName? : Value → Option CodeText
  | .mapping fields =>
    match (Value.field "name" fields).scalarText? with
    | .ok (some t) => if t.isEmpty then none else some t
    | _ => none
  | _ => none

/-- The names that are kept of what a document gives as arguments, in order. -/
def keptNames : Value → List CodeText
  | .list items => items.filterMap keptName?
  | _ => []

theorem value_surveyScalar_eq (field : String) (v : Value) :
    (surveyScalar field v).value =
      match v.scalarText? with
      | .ok t => t
      | .error _ => none := by
  by_cases hv : v = .null
  · rw [hv]
    rfl
  · rw [surveyScalar_of_ne_null field hv]
    unfold surveyText
    rcases v.scalarText? with b | _ | t <;> rfl

theorem name_surveyArgument (place : String) (v : Value) :
    (surveyArgument place v).value.map (·.name) = keptName? v := by
  cases v with
  | mapping fields =>
    simp only [surveyArgument, Survey.value_bind, value_surveyScalar_eq, keptName?]
    rcases (Value.field "name" fields).scalarText? with b | _ | t
    · rfl
    · rfl
    · dsimp only [Option.getD_some]
      split <;> rfl
  | _ => rfl

theorem names_surveyArgumentItems (i : Nat) (items : List Value) :
    (surveyArgumentItems i items).value.map (·.name) = items.filterMap keptName? := by
  induction items generalizing i with
  | nil => rfl
  | cons v rest ih =>
    simp only [surveyArgumentItems, Survey.value_bind, Survey.value_pure, List.map_append, ih,
      List.filterMap_cons, ← name_surveyArgument (itemField "arguments" i) v]
    cases (surveyArgument (itemField "arguments" i) v).value <;> rfl

/-- **The arguments that are read have the names that are kept.** -/
theorem argumentNames_survey (fields : List (String × Value)) :
    argumentNames (survey fields).value = keptNames (Value.field "arguments" fields) := by
  change ((surveyArguments (Value.field "arguments" fields)).value.getD []).map (·.name) = _
  cases Value.field "arguments" fields with
  | list items => exact names_surveyArgumentItems 0 items
  | _ => rfl

/-! ### Asking for different names -/

/-- **Asking for different names** leaves every error of a text as it is.  A text that is read
    without asking is read alike if the names of its arguments are different; these are the
    names that are kept of its document.  Otherwise reading ends with the name of the first
    argument that has the name of one in front of it. -/
theorem parse_uniqueArguments (policy : Policy) (file text : String) :
    (∀ f, (parse ⟨policy, false⟩ file text).outcome = .error f →
      (parse ⟨policy, true⟩ file text).outcome = .error f) ∧
    ∀ raw, (parse ⟨policy, false⟩ file text).outcome = .ok raw →
      (∃ fields, Yaml.load text = .ok (.mapping fields) ∧
        argumentNames raw = keptNames (Value.field "arguments" fields)) ∧
      ((argumentNames raw).Nodup → (parse ⟨policy, true⟩ file text).outcome = .ok raw) ∧
      (¬ (argumentNames raw).Nodup → ∃ before a after,
        raw.arguments = some (before ++ a :: after) ∧ (before.map (·.name)).Nodup ∧
        a.name ∈ before.map (·.name) ∧
        (parse ⟨policy, true⟩ file text).outcome =
          .error (.error (.parse ⟨.duplicateArgument a.name, file, none, none, none⟩))) := by
  rw [outcome_parse_checking]
  constructor
  · intro f h
    rw [h]
    rfl
  · intro raw h
    obtain ⟨fields, hload, hraw, -⟩ := exists_fields_of_parse h
    refine ⟨⟨fields, hload, by rw [hraw, argumentNames_survey]⟩, ?_⟩
    rw [h]
    dsimp only [Except.bind]
    rcases repeatedArgument_cases raw with ⟨hnone, hnodup⟩ |
      ⟨before, a, after, hargs, hbefore, ha, hsome⟩
    · rw [hnone]
      exact ⟨fun _ => rfl, fun hrepeated => absurd hnodup hrepeated⟩
    · rw [hsome]
      refine ⟨fun hnodup => ?_, fun _ => ⟨before, a, after, hargs, hbefore, ha, rfl⟩⟩
      unfold argumentNames at hnodup
      rw [hargs, Option.getD_some, List.map_append, List.map_cons] at hnodup
      exact (hnodup.disjoint ha List.mem_cons_self).elim

/-- A manifest that declares arguments with these names and nothing else. -/
def namesDeclared (names : List String) : RawWorkflow :=
  { nothingDeclared with
    arguments := some (names.map fun n => ⟨.ofString n, none, none, none⟩) }

/-- A number, and the text of another one. -/
def numberAndOther : String := "arguments: [name: 1, name: '2']"

/-- A number, an item that is no argument, one without a name, and the text of the number. -/
def numberAndSame : String := "arguments: [name: 1, [1], name: '', name: '1']"

/-- A document that is no mapping is refused either way, a number and the text of another one
    are different names, and a number and its own text are not. -/
theorem parse_uniqueArguments_numbers :
    ((parse ⟨.drop, false⟩ "m.yaml" "- 1").outcome =
        .error (.error (malformedError "m.yaml" (.list [.int 1]))) ∧
      (parse ⟨.drop, true⟩ "m.yaml" "- 1").outcome =
        .error (.error (malformedError "m.yaml" (.list [.int 1])))) ∧
    ((parse ⟨.drop, false⟩ "m.yaml" numberAndOther).outcome = .ok (namesDeclared ["1", "2"]) ∧
      (parse ⟨.drop, true⟩ "m.yaml" numberAndOther).outcome = .ok (namesDeclared ["1", "2"])) ∧
    (parse ⟨.drop, false⟩ "m.yaml" numberAndSame).outcome = .ok (namesDeclared ["1", "1"]) ∧
    ∃ before a after, (namesDeclared ["1", "1"]).arguments = some (before ++ a :: after) ∧
      (before.map (·.name)).Nodup ∧ a.name ∈ before.map (·.name) ∧
      (parse ⟨.drop, true⟩ "m.yaml" numberAndSame).outcome =
        .error (.error (.parse ⟨.duplicateArgument a.name, "m.yaml", none, none, none⟩)) := by
  have hrefused : (parse ⟨.drop, false⟩ "m.yaml" "- 1").outcome =
      .error (.error (malformedError "m.yaml" (.list [.int 1]))) := by decide +kernel
  have hother : (parse ⟨.drop, false⟩ "m.yaml" numberAndOther).outcome =
      .ok (namesDeclared ["1", "2"]) := by decide +kernel
  have hsame : (parse ⟨.drop, false⟩ "m.yaml" numberAndSame).outcome =
      .ok (namesDeclared ["1", "1"]) := by decide +kernel
  exact ⟨⟨hrefused, (parse_uniqueArguments _ _ _).1 _ hrefused⟩,
    ⟨hother, ((parse_uniqueArguments _ _ _).2 _ hother).2.1 (by decide)⟩, hsame,
    ((parse_uniqueArguments _ _ _).2 _ hsame).2.2 (by decide)⟩

end WorkflowCatalog.Manifest
