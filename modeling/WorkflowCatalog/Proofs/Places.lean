/-
  WorkflowCatalog/Proofs/Places.lean
  ==================================
  **The places that findings name.**  A finding names its place by a text: a field, a
  field and the number of an item, or these and a key, with dots between them.  Cut at
  its dots (`parts`) a name shows all places that it lies at or below, so names of
  different places are told apart (`eq_of_below`), and what is found in one field or one
  item can be picked out of all that is found.

  What is found in a value depends on the value alone; only the names change with the
  place where it stands (`ReadsOne`).  The lists of a manifest are surveyed alike, item by
  item (`surveyList`).
-/
import Mathlib.Data.List.Infix
import WorkflowCatalog.Proofs.Survey
import WorkflowCatalog.Text.Split

namespace WorkflowCatalog

/-! ### Names with dots -/

/-- Cutting two lists with a separator between them cuts each of them. -/
theorem Text.splitOn_append_sep {α : Type} [DecidableEq α] (sep : α) (cs ds : List α) :
    splitOn sep (cs ++ sep :: ds) = splitOn sep cs ++ splitOn sep ds := by
  induction cs with
  | nil => simp [splitOn]
  | cons c cs ih =>
    by_cases hc : c = sep
    · simp [splitOn, hc, ih]
    · obtain ⟨p, ps, hps⟩ := List.exists_cons_of_ne_nil (splitOn_ne_nil sep cs)
      simp [splitOn, hc, ih, hps]

namespace Manifest

open Text (CodeText)
open Yaml (Value)

/-- The parts of a name, between its dots. -/
def parts (name : String) : List (List Char) := Text.splitOn '.' name.toList

theorem parts_dot (s t : String) : parts (s ++ "." ++ t) = parts s ++ parts t := by
  unfold parts
  rw [String.toList_append, String.toList_append, List.append_assoc]
  exact Text.splitOn_append_sep '.' _ _

/-- A number is one part, its digits. -/
theorem parts_number (i : Nat) : parts (toString i) = [Nat.toDigits 10 i] := by
  have hdigits : (toString i).toList = Nat.toDigits 10 i := String.toList_ofList
  rw [parts, hdigits]
  refine Text.splitOn_of_notMem ?_
  intro hdot
  have hdigit := Nat.isDigit_of_mem_toDigits (b := 10) (by decide) (by decide) hdot
  exact absurd hdigit (by decide)

theorem parts_itemField (field : String) (i : Nat) :
    parts (itemField field i) = parts field ++ [Nat.toDigits 10 i] := by
  rw [itemField, parts_dot, parts_number]

/-- The second name is that of the first place, or of one below it. -/
def Below (place name : String) : Prop := parts place <+: parts name

theorem below_refl (place : String) : Below place place := List.prefix_refl _

theorem below_dot (place key : String) : Below place (place ++ "." ++ key) := by
  rw [Below, parts_dot]
  exact List.prefix_append _ _

theorem below_suffix (place key : String) : Below place (place ++ ("." ++ key)) := by
  rw [← String.append_assoc]
  exact below_dot place key

theorem below_item (field : String) (i : Nat) : Below field (itemField field i) :=
  below_dot field (toString i)

theorem Below.trans {s t n : String} (h : Below s t) (h' : Below t n) : Below s n :=
  List.IsPrefix.trans h h'

/-- **Places of one depth that a name lies below are one place.** -/
theorem parts_eq_of_below {s t n : String} (hs : Below s n) (ht : Below t n)
    (hlength : (parts s).length = (parts t).length) : parts s = parts t :=
  (List.prefix_of_prefix_length_le hs ht (Nat.le_of_eq hlength)).eq_of_length hlength

theorem item_eq_of_below {field n : String} {i j : Nat} (hi : Below (itemField field i) n)
    (hj : Below (itemField field j) n) : i = j := by
  have h := parts_eq_of_below hi hj (by rw [parts_itemField, parts_itemField]; simp)
  rw [parts_itemField, parts_itemField, List.append_cancel_left_eq] at h
  rw [← @Nat.ofDigitChars_ten_toDigits i, (List.cons.inj h).1, Nat.ofDigitChars_ten_toDigits]

/-- A place is not below its items. -/
theorem not_below_item (field : String) (i : Nat) : ¬ Below (itemField field i) field := by
  intro h
  have hle := h.length_le
  rw [parts_itemField, List.length_append] at hle
  exact absurd hle (Nat.not_succ_le_self _)

/-! ### The names of findings -/

/-- The name of the place where the shape is wrong. -/
def Finding.name? : Finding → Option String
  | .misshapen field _ => some field
  | .unwritable => none

namespace Survey

variable {α β : Type}

/-- The names of the places of wrong shape, in order. -/
def names (s : Survey α) : List String := s.findings.filterMap Finding.name?

/-- Nothing but wrong shapes is found. -/
def Writable (s : Survey α) : Prop := .unwritable ∉ s.findings

@[simp]
theorem names_pure (a : α) : (pure a : Survey α).names = [] := rfl

@[simp]
theorem names_bind (s : Survey α) (f : α → Survey β) :
    (s >>= f).names = s.names ++ (f s.value).names :=
  List.filterMap_append

@[simp]
theorem names_map (s : Survey α) (f : α → β) : (f <$> s).names = s.names := by
  rw [names, findings_map, names]

@[simp]
theorem names_misshapen (field reason : String) (a : α) :
    (report (.misshapen field reason) a).names = [field] := rfl

@[simp]
theorem value_report (finding : Finding) (a : α) : (report finding a).value = a := rfl

@[simp]
theorem writable_pure (a : α) : (pure a : Survey α).Writable := List.not_mem_nil

@[simp]
theorem writable_bind (s : Survey α) (f : α → Survey β) :
    (s >>= f).Writable ↔ s.Writable ∧ (f s.value).Writable := by
  simp [Writable]

@[simp]
theorem writable_map (s : Survey α) (f : α → β) : (f <$> s).Writable ↔ s.Writable := by
  simp [Writable]

end Survey

/-! ### Readings of one value -/

/-- At every place the value is read alike: nothing is found, or the value is reported and
    gives nothing. -/
inductive ReadsOne {α : Type} (read : String → Survey (Option α)) : Prop
  | clean (a : Option α) (h : ∀ field, read field = pure a)
  | misshapen (reason : String)
      (h : ∀ field, read field = Survey.report (.misshapen field reason) none)
  | unwritable (h : ∀ field, read field = Survey.report .unwritable none)

namespace ReadsOne

variable {α : Type} {read : String → Survey (Option α)} {field : String}

/-- Only the place itself is named. -/
theorem eq_of_mem_names (h : ReadsOne read) {n : String} (hn : n ∈ (read field).names) :
    n = field := by
  cases h with
  | clean a h =>
    rw [h] at hn
    cases hn
  | misshapen reason h =>
    rw [h] at hn
    exact List.mem_singleton.1 hn
  | unwritable h =>
    rw [h] at hn
    cases hn

/-- Another key of the same place is not named. -/
theorem not_mem_names (h : ReadsOne read) {place s t : String} (hne : s ≠ t) :
    place ++ s ∉ (read (place ++ t)).names := by
  intro hn
  exact hne ((String.append_right_inj place).1 (h.eq_of_mem_names hn))

theorem below_of_mem_names (h : ReadsOne read) {place n : String} (hfield : Below place field)
    (hn : n ∈ (read field).names) : Below place n := by
  rw [h.eq_of_mem_names hn]
  exact hfield

/-- A value whose place is named gives nothing; any other is read alike wherever it stands. -/
theorem named_or_clean (h : ReadsOne read) (hw : (read field).Writable) :
    field ∈ (read field).names ∧ (read field).value = none ∨
      field ∉ (read field).names ∧ ∃ a, ∀ field', read field' = pure a := by
  cases h with
  | clean a h =>
    refine .inr ⟨?_, a, h⟩
    rw [h]
    exact List.not_mem_nil
  | misshapen reason h =>
    rw [h]
    exact .inl ⟨List.mem_singleton.2 rfl, rfl⟩
  | unwritable h =>
    rw [h] at hw
    exact absurd (List.mem_singleton.2 rfl) hw

end ReadsOne

/-- The reading of a text, where anything else is reported for one reason. -/
theorem readsOne_surveyText (reason : String) (v : Value) :
    ReadsOne fun field => surveyText (.report (.misshapen field reason) none) v := by
  cases h : v.scalarText? with
  | error b =>
    refine .unwritable fun field => ?_
    simp only [surveyText, h]
  | ok t =>
    cases t with
    | none =>
      refine .misshapen reason fun field => ?_
      simp only [surveyText, h]
    | some t =>
      refine .clean (some t) fun field => ?_
      simp only [surveyText, h]

theorem surveyScalar_of_ne_null (field : String) {v : Value} (h : v ≠ .null) :
    surveyScalar field v =
      surveyText (.report (.misshapen field ("Expected a scalar, got " ++ v.kindName)) none) v := by
  cases v with
  | null => exact absurd rfl h
  | _ => simp only [surveyScalar]

theorem readsOne_surveyScalar (v : Value) : ReadsOne fun field => surveyScalar field v := by
  by_cases h : v = .null
  · rw [h]
    exact .clean none fun _ => rfl
  · simp only [surveyScalar_of_ne_null _ h]
    exact readsOne_surveyText _ v

theorem readsOne_surveyRequired (v : Value) : ReadsOne fun field => surveyRequired field v := by
  cases v with
  | null => exact .clean none fun _ => rfl
  | bool b => exact .clean (some b) fun _ => rfl
  | _ => exact .misshapen _ fun _ => rfl

/-! ### Readings of items -/

section

variable {α : Type} (read : String → Value → Survey (Option α))

/-- The survey of the items of a list, each read at its place, the first under the number
    `i`. -/
def surveyItems (field : String) : Nat → List Value → Survey (List α)
  | _, [] => pure []
  | i, v :: rest => do
    let a ← read (itemField field i) v
    let as ← surveyItems field (i + 1) rest
    pure (a.toList ++ as)

/-- The survey of a field that holds a list. -/
def surveyList (field : String) : Value → Survey (Option (List α))
  | .null => pure none
  | .list items => some <$> surveyItems read field 0 items
  | v => .report (.misshapen field ("Expected a list, got " ++ v.kindName)) none

/-- All that is found in a value is named by the place of the value, or by one below it. -/
def NamesBelow : Prop := ∀ place v n, n ∈ (read place v).names → Below place n

variable {read}

theorem NamesBelow.exists_item (h : NamesBelow read) {field n : String} {i : Nat}
    {items : List Value} (hn : n ∈ (surveyItems read field i items).names) :
    ∃ j, i ≤ j ∧ Below (itemField field j) n := by
  induction items generalizing i with
  | nil => cases hn
  | cons v rest ih =>
    simp only [surveyItems, Survey.names_bind, Survey.names_pure, List.append_nil,
      List.mem_append] at hn
    rcases hn with hn | hn
    · exact ⟨i, Nat.le_refl i, h _ v n hn⟩
    · obtain ⟨j, hj, hbelow⟩ := ih hn
      exact ⟨j, Nat.le_of_succ_le hj, hbelow⟩

theorem NamesBelow.list (h : NamesBelow read) : NamesBelow (surveyList read) := by
  intro field v n hn
  cases v with
  | null => cases hn
  | list items =>
    rw [surveyList, Survey.names_map] at hn
    obtain ⟨j, -, hbelow⟩ := h.exists_item hn
    exact (below_item field j).trans hbelow
  | _ =>
    rw [List.mem_singleton.1 hn]
    exact below_refl field

end

/-- The survey of an item that is to be a scalar. -/
def surveyItem (place : String) (v : Value) : Survey (Option CodeText) :=
  surveyText (.report (.misshapen place "Expected a scalar list item") none) v

theorem readsOne_surveyItem (v : Value) : ReadsOne fun place => surveyItem place v :=
  readsOne_surveyText _ v

theorem surveyTextList_eq (field : String) (v : Value) :
    surveyTextList field v = surveyList surveyItem field v := by
  have hitems : ∀ i items, surveyTexts field i items = surveyItems surveyItem field i items := by
    intro i items
    induction items generalizing i with
    | nil => rfl
    | cons v rest ih =>
      rw [surveyTexts, surveyItems, ih]
      rfl
  cases v with
  | list items => rw [surveyTextList, surveyList, hitems]
  | _ => rfl

theorem surveyArguments_eq (v : Value) :
    surveyArguments v = surveyList surveyArgument "arguments" v := by
  have hitems : ∀ i items,
      surveyArgumentItems i items = surveyItems surveyArgument "arguments" i items := by
    intro i items
    induction items generalizing i with
    | nil => rfl
    | cons v rest ih => rw [surveyArgumentItems, surveyItems, ih]
  cases v with
  | list items => rw [surveyArguments, surveyList, hitems]
  | _ => rfl

theorem namesBelow_surveyScalar : NamesBelow surveyScalar := fun place v _ =>
  (readsOne_surveyScalar v).below_of_mem_names (below_refl place)

theorem namesBelow_surveyItem : NamesBelow surveyItem := fun place v _ =>
  (readsOne_surveyItem v).below_of_mem_names (below_refl place)

theorem namesBelow_surveyArgument : NamesBelow surveyArgument := by
  intro place v n hn
  cases v with
  | mapping fields =>
    simp only [surveyArgument, Survey.names_bind, List.mem_append] at hn
    rcases hn with hn | hn
    · exact (readsOne_surveyScalar _).below_of_mem_names (below_suffix place "name") hn
    · split at hn
      · rw [List.mem_singleton.1 hn]
        exact below_suffix place "name"
      · simp only [Survey.names_bind, Survey.names_pure, List.append_nil, List.mem_append] at hn
        rcases hn with hn | hn | hn
        · exact (readsOne_surveyRequired _).below_of_mem_names (below_suffix place "required") hn
        · exact (readsOne_surveyScalar _).below_of_mem_names (below_suffix place "description") hn
        · exact (readsOne_surveyScalar _).below_of_mem_names
            (below_suffix place "default_value") hn
  | _ =>
    rw [List.mem_singleton.1 hn]
    exact below_refl place

end Manifest

end WorkflowCatalog
