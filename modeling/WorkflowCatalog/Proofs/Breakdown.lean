/-
  WorkflowCatalog/Proofs/Breakdown.lean
  =====================================
  **When a text spoils more than its own manifest.**  Reading a text ends in what the
  text declares or in a parse error, with two exceptions: its document breaks down, or
  it gives the text of a field as an integer that has too many digits to be written.
  The second is met under a policy: a field of the wrong shape in front of it ends
  reading before, if such fields are refused.

  Main statements: these are all exceptions (`staysOwn_parse`); an integer is
  met exactly where the text of a value is taken (`unwritable_mem_survey`).
-/
import WorkflowCatalog.Proofs.Outcome

namespace WorkflowCatalog.Manifest

open Text (CodeText)
open Yaml (Value)

/-! ### Where integers are met -/

/-- An integer that has too many digits to be written. -/
def IsUnwritable (v : Value) : Prop := ∃ n, v = .int n ∧ Value.isTooLong n = true

theorem isUnwritable_iff {v : Value} : IsUnwritable v ↔ ∃ b, v.scalarText? = .error b := by
  constructor
  · rintro ⟨n, rfl, h⟩
    exact ⟨.integerTooLong, by rw [Value.scalarText?, if_pos h]⟩
  · rintro ⟨b, h⟩
    cases v with
    | int n =>
      simp only [Value.scalarText?] at h
      split at h
      · rename_i hlong
        exact ⟨n, rfl, hlong⟩
      · cases h
    | _ => cases h

theorem unwritable_mem_surveyText {otherwise : Survey (Option CodeText)} {v : Value}
    (h : .unwritable ∉ otherwise.findings) :
    .unwritable ∈ (surveyText otherwise v).findings ↔ IsUnwritable v := by
  rw [isUnwritable_iff]
  unfold surveyText
  cases v.scalarText? with
  | error b => simp [Survey.report]
  | ok t => cases t <;> simp [h]

theorem unwritable_mem_surveyScalar {field : String} {v : Value} :
    .unwritable ∈ (surveyScalar field v).findings ↔ IsUnwritable v := by
  cases v with
  | null => simp [surveyScalar, IsUnwritable]
  | _ =>
    simp only [surveyScalar]
    exact unwritable_mem_surveyText (by simp [Survey.report])

theorem unwritable_mem_surveyTexts {field : String} {i : Nat} {items : List Value} :
    .unwritable ∈ (surveyTexts field i items).findings ↔ ∃ v ∈ items, IsUnwritable v := by
  induction items generalizing i with
  | nil => simp [surveyTexts]
  | cons v rest ih =>
    have hv : .unwritable ∈ (surveyText
        (.report (.misshapen (itemField field i) "Expected a scalar list item") none) v).findings ↔
        IsUnwritable v := unwritable_mem_surveyText (by simp [Survey.report])
    simp only [surveyTexts, Survey.findings_bind, Survey.findings_pure, List.append_nil,
      List.mem_append, hv, ih, List.mem_cons, exists_eq_or_imp]

theorem unwritable_mem_surveyTextList {field : String} {v : Value} :
    .unwritable ∈ (surveyTextList field v).findings ↔
      ∃ items, v = .list items ∧ ∃ w ∈ items, IsUnwritable w := by
  cases v with
  | list items => simp [surveyTextList, unwritable_mem_surveyTexts]
  | _ => simp [surveyTextList, Survey.report]

theorem unwritable_notMem_surveyRequired (field : String) (v : Value) :
    .unwritable ∉ (surveyRequired field v).findings := by
  cases v <;> simp [surveyRequired, Survey.report]

/-! ### Arguments -/

/-- The name that the fields of an argument give. -/
def nameIn (fields : List (String × Value)) : CodeText :=
  (surveyScalar "" (Value.field "name" fields)).value.getD ⟨[]⟩

/-- The place of a field only shows in what is reported of it. -/
theorem value_surveyScalar (field field' : String) (v : Value) :
    (surveyScalar field v).value = (surveyScalar field' v).value := by
  cases v with
  | null => rfl
  | _ =>
    simp only [surveyScalar, surveyText]
    split <;> rfl

/-- The values of an argument whose text is taken. -/
inductive TakesTextOfArgument : Value → Value → Prop where
  | name (fields : List (String × Value)) :
    TakesTextOfArgument (.mapping fields) (Value.field "name" fields)
  | description {fields : List (String × Value)} (h : (nameIn fields).isEmpty = false) :
    TakesTextOfArgument (.mapping fields) (Value.field "description" fields)
  | defaultValue {fields : List (String × Value)} (h : (nameIn fields).isEmpty = false) :
    TakesTextOfArgument (.mapping fields) (Value.field "default_value" fields)

theorem unwritable_mem_surveyArgument {field : String} {v : Value} :
    .unwritable ∈ (surveyArgument field v).findings ↔
      ∃ w, TakesTextOfArgument v w ∧ IsUnwritable w := by
  cases v with
  | mapping fields =>
    have hname : (surveyScalar (field ++ ".name") (Value.field "name" fields)).value.getD ⟨[]⟩ =
        nameIn fields := by rw [nameIn, value_surveyScalar]
    have hreq := unwritable_notMem_surveyRequired (field ++ ".required")
      (Value.field "required" fields)
    simp only [surveyArgument, Survey.findings_bind, List.mem_append, hname,
      unwritable_mem_surveyScalar]
    constructor
    · rintro (h | h)
      · exact ⟨_, .name fields, h⟩
      · cases he : (nameIn fields).isEmpty with
        | true => simp [he, Survey.report] at h
        | false =>
          simp only [he, Bool.false_eq_true, if_false, Survey.findings_bind,
            Survey.findings_pure, List.append_nil, List.mem_append, hreq, false_or,
            unwritable_mem_surveyScalar] at h
          rcases h with h | h
          · exact ⟨_, .description he, h⟩
          · exact ⟨_, .defaultValue he, h⟩
    · rintro ⟨w, hw, h⟩
      cases hw with
      | name => exact .inl h
      | description he =>
        right
        simp [he, unwritable_mem_surveyScalar, h]
      | defaultValue he =>
        right
        simp [he, unwritable_mem_surveyScalar, h]
  | _ =>
    constructor
    · simp [surveyArgument, Survey.report]
    · rintro ⟨w, hw, -⟩
      cases hw

theorem unwritable_mem_surveyArgumentItems {i : Nat} {items : List Value} :
    .unwritable ∈ (surveyArgumentItems i items).findings ↔
      ∃ v ∈ items, ∃ w, TakesTextOfArgument v w ∧ IsUnwritable w := by
  induction items generalizing i with
  | nil => simp [surveyArgumentItems]
  | cons v rest ih =>
    simp only [surveyArgumentItems, Survey.findings_bind, Survey.findings_pure,
      List.append_nil, List.mem_append, unwritable_mem_surveyArgument, ih, List.mem_cons,
      exists_eq_or_imp]

theorem unwritable_mem_surveyArguments {v : Value} :
    .unwritable ∈ (surveyArguments v).findings ↔
      ∃ items, v = .list items ∧ ∃ u ∈ items, ∃ w, TakesTextOfArgument u w ∧ IsUnwritable w := by
  cases v with
  | list items => simp [surveyArguments, unwritable_mem_surveyArgumentItems]
  | _ => simp [surveyArguments, Survey.report]

/-! ### Manifests -/

/-- The fields of a manifest that hold a scalar. -/
def scalarFields : List String :=
  ["name", "command", "description", "source_url", "author", "author_url"]

/-- The values of a manifest whose text is taken. -/
inductive TakesText (fields : List (String × Value)) : Value → Prop where
  | scalar {name : String} (h : name ∈ scalarFields) : TakesText fields (Value.field name fields)
  | item {name : String} {items : List Value} {v : Value} (hname : name ∈ ["tags", "shells"])
    (hitems : Value.field name fields = .list items) (hv : v ∈ items) : TakesText fields v
  | argument {items : List Value} {v w : Value}
    (hitems : Value.field "arguments" fields = .list items) (hv : v ∈ items)
    (hw : TakesTextOfArgument v w) : TakesText fields w

/-- **The survey meets an integer that cannot be written exactly where the text of a value
    is taken.** -/
theorem unwritable_mem_survey {fields : List (String × Value)} :
    .unwritable ∈ (survey fields).findings ↔ ∃ v, TakesText fields v ∧ IsUnwritable v := by
  simp only [survey, Survey.findings_bind, Survey.findings_pure, List.append_nil,
    List.mem_append, unwritable_mem_surveyScalar, unwritable_mem_surveyTextList,
    unwritable_mem_surveyArguments]
  constructor
  · rintro (h | h | h | h | h | h | ⟨items, hi, v, hv, h⟩ | ⟨items, hi, v, hv, h⟩ |
      ⟨items, hi, u, hu, w, hw, h⟩)
    · exact ⟨_, .scalar (by simp [scalarFields]), h⟩
    · exact ⟨_, .scalar (by simp [scalarFields]), h⟩
    · exact ⟨_, .scalar (by simp [scalarFields]), h⟩
    · exact ⟨_, .scalar (by simp [scalarFields]), h⟩
    · exact ⟨_, .scalar (by simp [scalarFields]), h⟩
    · exact ⟨_, .scalar (by simp [scalarFields]), h⟩
    · exact ⟨v, .item (by simp) hi hv, h⟩
    · exact ⟨v, .item (by simp) hi hv, h⟩
    · exact ⟨w, .argument hi hu hw, h⟩
  · rintro ⟨v, hv, h⟩
    cases hv with
    | scalar hname =>
      simp only [scalarFields, List.mem_cons, List.not_mem_nil, or_false] at hname
      rcases hname with rfl | rfl | rfl | rfl | rfl | rfl <;> simp [h]
    | item hname hi hv =>
      simp only [List.mem_cons, List.not_mem_nil, or_false] at hname
      rcases hname with rfl | rfl
      · exact .inr (.inr (.inr (.inr (.inr (.inr (.inl ⟨_, hi, v, hv, h⟩))))))
      · exact .inr (.inr (.inr (.inr (.inr (.inr (.inr (.inl ⟨_, hi, v, hv, h⟩)))))))
    | argument hi hu hw =>
      exact .inr (.inr (.inr (.inr (.inr (.inr (.inr (.inr ⟨_, hi, _, hu, v, hw, h⟩)))))))

/-! ### Reading a text -/

/-- What is met first among the findings of a manifest that ends reading is an integer that
    cannot be written. -/
def MeetsUnwritable (fields : List (String × Value)) : Policy → Prop
  | .drop => ∃ v, TakesText fields v ∧ IsUnwritable v
  | .refuse => (survey fields).findings.head? = some .unwritable

/-- Reading the text has no answer: its document breaks down, or an integer that cannot be
    written is met. -/
def Breaks (policy : Policy) (text : String) : Prop :=
  (∃ b, Yaml.load text = .error (.broken b)) ∨
    ∃ fields, Yaml.load text = .ok (.mapping fields) ∧ MeetsUnwritable fields policy

/-- The result is a value or a parse error. -/
def StaysOwn {α : Type} (r : Except Failure α) : Prop :=
  (∃ a, r = .ok a) ∨ ∃ e, r = .error (.error (.parse e))

theorem not_staysOwn_broken {α : Type} (b : Yaml.Breakdown) :
    ¬ StaysOwn (.error (.broken b) : Except Failure α) := by
  rintro (⟨a, h⟩ | ⟨e, h⟩) <;> cases h

theorem failure?_eq_broken_or_parse {src : Source} {finding : Finding} {f : Failure}
    (h : finding.failure? src = some f) :
    f = .broken .integerTooLong ∨ ∃ e, f = .error (.parse e) := by
  cases finding with
  | misshapen field reason =>
    unfold Finding.failure? at h
    cases hp : src.policy with
    | drop => simp [hp] at h
    | refuse =>
      simp only [hp, Option.some.injEq] at h
      exact .inr ⟨_, h.symm⟩
  | unwritable => exact .inl (Option.some.inj h).symm

/-- The findings of a manifest end in a breakdown exactly if an integer that cannot be
    written is met. -/
theorem findSome_failure?_eq_broken {src : Source} {fields : List (String × Value)} :
    (survey fields).findings.findSome? (Finding.failure? src) = some (.broken .integerTooLong) ↔
      MeetsUnwritable fields src.policy := by
  cases hp : src.policy with
  | drop =>
    have hdrop : ∀ finding, Finding.failure? src finding =
        if finding = .unwritable then some (.broken .integerTooLong) else none := by
      intro finding
      cases finding <;> simp [Finding.failure?, hp]
    unfold MeetsUnwritable
    rw [← unwritable_mem_survey]
    induction (survey fields).findings with
    | nil => simp
    | cons finding rest ih =>
      rw [List.findSome?_cons, hdrop, List.mem_cons]
      by_cases hf : finding = .unwritable
      · simp [hf]
      · have hne : Finding.unwritable ≠ finding := fun e => hf e.symm
        simp [hf, hne, ih]
  | refuse =>
    unfold MeetsUnwritable
    cases (survey fields).findings with
    | nil => simp
    | cons finding rest =>
      cases finding <;> simp [Finding.failure?, List.findSome?_cons, hp]

theorem staysOwn_declared_iff {options : Options} {file : String}
    {fields : List (String × Value)} :
    StaysOwn (declared options file fields) ↔ ¬ MeetsUnwritable fields options.policy := by
  have hmeets : _ ↔ MeetsUnwritable fields (Source.mk file options.policy).policy :=
    findSome_failure?_eq_broken
  rw [← hmeets]
  unfold declared
  cases hfind : (survey fields).findings.findSome? (Finding.failure? ⟨file, options.policy⟩) with
  | some f =>
    obtain ⟨finding, -, hf⟩ := List.exists_of_findSome?_eq_some hfind
    rcases failure?_eq_broken_or_parse hf with rfl | ⟨e, rfl⟩
    · simp [not_staysOwn_broken]
    · simp [StaysOwn]
  | none =>
    dsimp only
    split
    · simp [StaysOwn, repeatedError]
    · simp [StaysOwn]

/-- **Reading a text ends in what it declares or in a parse error**, exactly if it does not
    break. -/
theorem staysOwn_parse {options : Options} {file text : String} :
    StaysOwn (parse options file text).outcome ↔ ¬ Breaks options.policy text := by
  rw [outcome_parse]
  unfold Breaks
  cases hload : Yaml.load text with
  | error fault =>
    cases fault with
    | broken b => simp [faultError, not_staysOwn_broken]
    | _ => simp [faultError, syntaxError, StaysOwn]
  | ok v =>
    cases v with
    | mapping fields => simp [interpreted, staysOwn_declared_iff]
    | _ => simp [interpreted, malformedError, StaysOwn]

/-! ### The names of arguments -/

theorem name_of_surveyArgument {field : String} {v : Value} {a : RawArgument}
    (h : (surveyArgument field v).value = some a) : a.name.isEmpty = false := by
  cases v with
  | mapping fields =>
    simp only [surveyArgument, Survey.value_bind] at h
    split at h
    · cases h
    · rename_i hname
      cases h
      simpa using hname
  | _ => cases h

theorem name_of_surveyArgumentItems {i : Nat} {items : List Value} {a : RawArgument}
    (h : a ∈ (surveyArgumentItems i items).value) : a.name.isEmpty = false := by
  induction items generalizing i with
  | nil => cases h
  | cons v rest ih =>
    simp only [surveyArgumentItems, Survey.value_bind, Survey.value_pure, List.mem_append,
      Option.mem_toList] at h
    rcases h with h | h
    · exact name_of_surveyArgument h
    · exact ih h

/-- Every argument that a manifest declares has a name. -/
theorem name_of_parse {options : Options} {file text : String} {raw : RawWorkflow}
    (h : (parse options file text).outcome = .ok raw) {a : RawArgument}
    (ha : a ∈ raw.arguments.getD []) : a.name.isEmpty = false := by
  have hraw : ∃ fields, raw = (survey fields).value := by
    rw [outcome_parse] at h
    cases hload : Yaml.load text with
    | error fault =>
      rw [hload] at h
      cases h
    | ok v =>
      rw [hload] at h
      cases v with
      | mapping fields =>
        refine ⟨fields, ?_⟩
        change declared options file fields = .ok raw at h
        unfold declared at h
        split at h
        · cases h
        · split at h
          · cases h
          · exact (Except.ok.inj h).symm
      | _ => cases h
  obtain ⟨fields, rfl⟩ := hraw
  change a ∈ (surveyArguments (Value.field "arguments" fields)).value.getD [] at ha
  cases hv : Value.field "arguments" fields with
  | list items =>
    rw [hv] at ha
    exact name_of_surveyArgumentItems ha
  | _ =>
    rw [hv] at ha
    cases ha

end WorkflowCatalog.Manifest
