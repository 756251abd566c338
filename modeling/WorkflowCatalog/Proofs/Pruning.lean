/-
  WorkflowCatalog/Proofs/Pruning.lean
  ===================================
  **Dropping reads what refusing reads of the pruned document.**  A document is pruned by
  names of places (`prune`): a named field goes with its key, a named item is taken out
  of its list, and so is an argument whose name is named; another named key of an
  argument goes alone.

  The items behind one that is taken out get new numbers, so the pruned document is read
  at other places than the whole.  That makes no difference because what is kept of a
  value is read alike at every place (`Keeps`).  And whether a place is named is decided
  by what is found at or below it, because the names of different places are different
  (`agreeBelow_field`).

  Main statements: the survey of the pruned document finds nothing and has the value of
  the survey of the whole (`survey_prune`); dropping and refusing, accordingly
  (`refuse_prune`).
-/
import WorkflowCatalog.Proofs.Declarations
import WorkflowCatalog.Proofs.Policies

namespace WorkflowCatalog.Manifest

open Text (CodeText)
open Yaml (Value)

/-! ### Deleting what is named -/

/-- The fields of a manifest that are read. -/
def readFields : List String :=
  ["name", "command", "description", "source_url", "author", "author_url", "tags", "shells",
    "arguments"]

/-- The keys that an argument can do without. -/
def looseKeys : List String := ["required", "description", "default_value"]

/-- A mapping without some of its keys. -/
def dropKeys (cut : String → Bool) (fields : List (String × Value)) : List (String × Value) :=
  fields.filter fun f => !cut f.1

section

variable (named : List String)

/-- What is kept of a scalar in a list. -/
def keptText (place : String) (v : Value) : Option Value :=
  if named.contains place then none else some v

/-- An argument without those of its keys that are named and can be done without. -/
def prunedArgument (place : String) : Value → Value
  | .mapping fields =>
    .mapping (dropKeys (fun key => looseKeys.contains key && named.contains (place ++ "." ++ key))
      fields)
  | v => v

/-- What is kept of an argument. -/
def keptArgument (place : String) (v : Value) : Option Value :=
  if named.contains place || named.contains (place ++ ".name") then none
  else some (prunedArgument named place v)

/-- The items of a list as far as they are kept, its first item under the number `i`. -/
def keepItems (keep : String → Value → Option Value) (field : String) : Nat → List Value → List Value
  | _, [] => []
  | i, v :: rest => (keep (itemField field i) v).toList ++ keepItems keep field (i + 1) rest

/-- The value of a field of which items are kept. -/
def keepList (keep : String → Value → Option Value) (field : String) : Value → Value
  | .list items => .list (keepItems keep field 0 items)
  | v => v

/-- The value of a field without the parts that are named. -/
def prunedField (key : String) (v : Value) : Value :=
  if key = "arguments" then keepList (keptArgument named) key v
  else if key = "tags" ∨ key = "shells" then keepList (keptText named) key v
  else v

/-- A document without what is named. -/
def prune (fields : List (String × Value)) : List (String × Value) :=
  (dropKeys (fun key => readFields.contains key && named.contains key) fields).map fun f =>
    (f.1, prunedField named f.1 f.2)

end

/-! ### Looking up what is left -/

theorem field_dropKeys (cut : String → Bool) (key : String) (fields : List (String × Value)) :
    Value.field key (dropKeys cut fields) = if cut key then .null else Value.field key fields := by
  unfold Value.field dropKeys
  rw [List.find?_filter]
  cases hcut : cut key with
  | true =>
    have hnone : fields.find? (fun f => decide ((!cut f.1) = true ∧ (f.1 == key) = true)) =
        none := by
      rw [List.find?_eq_none]
      intro f _
      simp only [decide_eq_true_eq, Bool.not_eq_true', beq_iff_eq, not_and]
      rintro hkept rfl
      rw [hcut] at hkept
      cases hkept
    rw [hnone]
    rfl
  | false =>
    have hsame : (fun f : String × Value => decide ((!cut f.1) = true ∧ (f.1 == key) = true)) =
        fun f => f.1 == key := by
      funext f
      by_cases hf : f.1 = key
      · simp [hf, hcut]
      · simp [hf]
    rw [hsame]
    rfl

theorem prunedField_null (named : List String) (key : String) :
    prunedField named key .null = .null := by
  unfold prunedField
  split
  · rfl
  · split <;> rfl

theorem field_prune (named : List String) (key : String) (fields : List (String × Value)) :
    Value.field key (prune named fields) =
      if readFields.contains key && named.contains key then .null
      else prunedField named key (Value.field key fields) := by
  have hmap : ∀ fields : List (String × Value),
      Value.field key (fields.map fun f => (f.1, prunedField named f.1 f.2)) =
        prunedField named key (Value.field key fields) := by
    intro fields
    unfold Value.field
    rw [List.find?_map]
    change (((fields.find? fun f => f.1 == key).map _).map _).getD Value.null = _
    cases h : fields.find? (fun f => f.1 == key) with
    | none => exact (prunedField_null named key).symm
    | some f =>
      have hkey : f.1 = key := by simpa using List.find?_some h
      simp [hkey]
  rw [prune, hmap, field_dropKeys]
  split
  · exact prunedField_null named key
  · rfl

/-! ### Values at their places -/

/-- A value that is taken out where its place is named is read without findings, at any
    place, and gives what it gave. -/
theorem ReadsOne.read_unless {α : Type} {read : String → Value → Survey (Option α)}
    {named : List String} {field : String} {v : Value}
    (hread : ReadsOne fun field => read field v) (hnull : ∀ field, read field .null = pure none)
    (hw : (read field v).Writable) (hnamed : field ∈ named ↔ field ∈ (read field v).names)
    (field' : String) :
    read field' (if named.contains field then .null else v) = pure (read field v).value := by
  rcases hread.named_or_clean hw with ⟨hmem, hvalue⟩ | ⟨hnot, a, hclean⟩
  · rw [if_pos (List.contains_iff_mem.2 (hnamed.2 hmem)), hnull, hvalue]
  · rw [if_neg fun h => hnot (hnamed.1 (List.contains_iff_mem.1 h)), hclean, hclean]
    rfl

/-- Two lists of names have the same names at and below a place. -/
def AgreeBelow (place : String) (named names : List String) : Prop :=
  ∀ n, Below place n → (n ∈ named ↔ n ∈ names)

variable {named : List String}

/-- What is kept of a value is read without findings, at any place, and gives what the
    value gave; where nothing is kept, the value gave nothing. -/
def Keeps {α : Type} (named : List String) (read : String → Value → Survey (Option α))
    (keep : String → Value → Option Value) : Prop :=
  ∀ place v, (read place v).Writable → AgreeBelow place named (read place v).names →
    keep place v = none ∧ (read place v).value = none ∨
      ∃ left a, keep place v = some left ∧ (read place v).value = a ∧
        ∀ place', read place' left = pure a

section

variable {α : Type} {read : String → Value → Survey (Option α)}
  {keep : String → Value → Option Value} (hbelow : NamesBelow read) (hkeep : Keeps named read keep)

include hbelow hkeep

theorem surveyItems_keepItems {field : String} {i : Nat} {items : List Value}
    (hw : (surveyItems read field i items).Writable)
    (hnamed : ∀ j, i ≤ j →
      AgreeBelow (itemField field j) named (surveyItems read field i items).names) (i' : Nat) :
    surveyItems read field i' (keepItems keep field i items) =
      pure (surveyItems read field i items).value := by
  induction items generalizing i i' with
  | nil => rfl
  | cons v rest ih =>
    simp only [surveyItems, Survey.writable_bind, Survey.writable_pure, and_true] at hw
    simp only [surveyItems, Survey.names_bind, Survey.names_pure, List.append_nil] at hnamed
    -- what the head names, the tail does not, and the other way round
    have hhead : AgreeBelow (itemField field i) named (read (itemField field i) v).names := by
      intro n hn
      rw [hnamed i (Nat.le_refl i) n hn, List.mem_append]
      refine ⟨?_, .inl⟩
      rintro (h | h)
      · exact h
      · obtain ⟨j, hj, hitem⟩ := hbelow.exists_item h
        exact absurd (item_eq_of_below hn hitem) (Nat.ne_of_lt hj)
    have htail : ∀ j, i + 1 ≤ j →
        AgreeBelow (itemField field j) named (surveyItems read field (i + 1) rest).names := by
      intro j hj n hn
      rw [hnamed j (Nat.le_of_succ_le hj) n hn, List.mem_append]
      refine ⟨?_, .inr⟩
      rintro (h | h)
      · have hij : i = j := item_eq_of_below (hbelow _ v n h) hn
        omega
      · exact h
    have hrest := ih hw.2 htail
    rcases hkeep _ v hw.1 hhead with ⟨hnone, hvalue⟩ | ⟨left, a, hleft, hvalue, hclean⟩
    · rw [keepItems, hnone, Option.toList_none, List.nil_append, hrest]
      simp only [surveyItems, Survey.value_bind, Survey.value_pure, hvalue]
      rfl
    · rw [keepItems, hleft, Option.toList_some, List.singleton_append]
      simp only [surveyItems, hclean, hrest, Survey.value_bind, Survey.value_pure, hvalue]
      rfl

/-- What is kept of a list, or null where the field is named. -/
theorem surveyList_unless {field : String} {v : Value} (hw : (surveyList read field v).Writable)
    (hnamed : AgreeBelow field named (surveyList read field v).names) :
    surveyList read field (if named.contains field then .null else keepList keep field v) =
      pure (surveyList read field v).value := by
  have hown := hnamed field (below_refl field)
  cases v with
  | null => cases named.contains field <;> rfl
  | list items =>
    simp only [surveyList, Survey.names_map, Survey.writable_map] at hw hnamed hown
    have hout : field ∉ named := by
      intro h
      obtain ⟨j, -, hitem⟩ := hbelow.exists_item (hown.1 h)
      exact not_below_item field j hitem
    rw [if_neg fun h => hout (List.contains_iff_mem.1 h), keepList, surveyList,
      surveyItems_keepItems hbelow hkeep hw fun j _ n hn =>
        hnamed n ((below_item field j).trans hn)]
    rfl
  | _ =>
    have hin : field ∈ named := hown.2 (List.mem_singleton.2 rfl)
    rw [if_pos (List.contains_iff_mem.2 hin)]
    rfl

end

/-! ### What is kept of scalars and arguments -/

theorem keeps_keptText : Keeps named surveyItem (keptText named) := by
  intro place v hw hnamed
  have hown := hnamed place (below_refl place)
  rcases (readsOne_surveyItem v).named_or_clean hw with ⟨hmem, hvalue⟩ | ⟨hnot, a, hclean⟩
  · refine .inl ⟨?_, hvalue⟩
    rw [keptText, if_pos (List.contains_iff_mem.2 (hown.2 hmem))]
  · refine .inr ⟨v, a, ?_, ?_, hclean⟩
    · rw [keptText, if_neg fun h => hnot (hown.1 (List.contains_iff_mem.1 h))]
    · rw [hclean]
      rfl

/-- The survey of the keys of an argument that has a name. -/
def surveyNamed (place : String) (name : CodeText) (fields : List (String × Value)) :
    Survey (Option RawArgument) := do
  let required ← surveyRequired (place ++ ".required") (Value.field "required" fields)
  let description ← surveyScalar (place ++ ".description") (Value.field "description" fields)
  let defaultValue ←
    surveyScalar (place ++ ".default_value") (Value.field "default_value" fields)
  pure (some ⟨name, description, defaultValue, required⟩)

section

variable {place : String} {fields : List (String × Value)} {name : CodeText}

theorem surveyArgument_nameless
    (h : ((surveyScalar (place ++ ".name") (Value.field "name" fields)).value.getD
      ⟨[]⟩).isEmpty = true) :
    place ++ ".name" ∈ (surveyArgument place (.mapping fields)).names ∧
      (surveyArgument place (.mapping fields)).value = none := by
  simp [surveyArgument, h]

theorem surveyArgument_named
    (hname : surveyScalar (place ++ ".name") (Value.field "name" fields) = pure (some name))
    (hempty : name.isEmpty = false) :
    surveyArgument place (.mapping fields) = surveyNamed place name fields := by
  rw [surveyArgument, hname]
  change (if name.isEmpty = true then _ else _ : Survey _) = _
  rw [hempty]
  rfl

theorem mem_names_surveyNamed {n : String} :
    n ∈ (surveyNamed place name fields).names ↔
      n ∈ (surveyRequired (place ++ ".required") (Value.field "required" fields)).names ∨
      n ∈ (surveyScalar (place ++ ".description") (Value.field "description" fields)).names ∨
      n ∈ (surveyScalar (place ++ ".default_value")
        (Value.field "default_value" fields)).names := by
  simp [surveyNamed]

theorem exists_key_of_mem_surveyNamed {n : String} (h : n ∈ (surveyNamed place name fields).names) :
    ∃ key ∈ looseKeys, n = place ++ ("." ++ key) := by
  rcases mem_names_surveyNamed.1 h with h | h | h
  · exact ⟨"required", by decide, (readsOne_surveyRequired _).eq_of_mem_names h⟩
  · exact ⟨"description", by decide, (readsOne_surveyScalar _).eq_of_mem_names h⟩
  · exact ⟨"default_value", by decide, (readsOne_surveyScalar _).eq_of_mem_names h⟩

/-- What is found in the keys names neither the argument nor its name. -/
theorem keptArgument_eq_some (h : AgreeBelow place named (surveyNamed place name fields).names)
    (v : Value) : keptArgument named place v = some (prunedArgument named place v) := by
  have hplace : place ∉ named := by
    intro hin
    obtain ⟨key, -, hkey⟩ := exists_key_of_mem_surveyNamed ((h _ (below_refl _)).1 hin)
    have hlength := congrArg String.length hkey
    simp only [String.length_append] at hlength
    have hdot : ".".length = 1 := rfl
    omega
  have hname : place ++ ".name" ∉ named := by
    intro hin
    obtain ⟨key, hloose, hkey⟩ :=
      exists_key_of_mem_surveyNamed ((h _ (below_suffix place "name")).1 hin)
    have hnot : ∀ key ∈ looseKeys, ".name" ≠ "." ++ key := by decide
    exact hnot key hloose ((String.append_right_inj place).1 hkey)
  simp [keptArgument, hplace, hname]

/-- What is left of the keys is read without findings, at any place, and gives what they
    gave. -/
theorem surveyNamed_dropKeys (hw : (surveyNamed place name fields).Writable)
    (h : AgreeBelow place named (surveyNamed place name fields).names) (place' : String) :
    surveyNamed place' name (dropKeys (fun key => looseKeys.contains key &&
      named.contains (place ++ "." ++ key)) fields) =
      pure (surveyNamed place name fields).value := by
  simp only [surveyNamed, Survey.writable_bind] at hw
  obtain ⟨hwr, hwd, hwv, -⟩ := hw
  have hrequired : place ++ ".required" ∈ named ↔ place ++ ".required" ∈
      (surveyRequired (place ++ ".required") (Value.field "required" fields)).names := by
    refine (h _ (below_suffix place "required")).trans (mem_names_surveyNamed.trans ⟨?_, .inl⟩)
    rintro (hn | hn | hn)
    · exact hn
    · exact absurd hn ((readsOne_surveyScalar _).not_mem_names (by decide))
    · exact absurd hn ((readsOne_surveyScalar _).not_mem_names (by decide))
  have hdescription : place ++ ".description" ∈ named ↔ place ++ ".description" ∈
      (surveyScalar (place ++ ".description") (Value.field "description" fields)).names := by
    refine (h _ (below_suffix place "description")).trans
      (mem_names_surveyNamed.trans ⟨?_, fun hn => .inr (.inl hn)⟩)
    rintro (hn | hn | hn)
    · exact absurd hn ((readsOne_surveyRequired _).not_mem_names (by decide))
    · exact hn
    · exact absurd hn ((readsOne_surveyScalar _).not_mem_names (by decide))
  have hdefault : place ++ ".default_value" ∈ named ↔ place ++ ".default_value" ∈
      (surveyScalar (place ++ ".default_value") (Value.field "default_value" fields)).names := by
    refine (h _ (below_suffix place "default_value")).trans
      (mem_names_surveyNamed.trans ⟨?_, fun hn => .inr (.inr hn)⟩)
    rintro (hn | hn | hn)
    · exact absurd hn ((readsOne_surveyRequired _).not_mem_names (by decide))
    · exact absurd hn ((readsOne_surveyScalar _).not_mem_names (by decide))
    · exact hn
  have hkey : ∀ key suffix : String, key ∈ looseKeys → "." ++ key = suffix →
      Value.field key (dropKeys (fun key => looseKeys.contains key &&
        named.contains (place ++ "." ++ key)) fields) =
          if named.contains (place ++ suffix) then .null else Value.field key fields := by
    rintro key _ hloose rfl
    rw [field_dropKeys, List.contains_iff_mem.2 hloose, String.append_assoc, Bool.true_and]
  unfold surveyNamed
  rw [hkey "required" ".required" (by decide) rfl,
    hkey "description" ".description" (by decide) rfl,
    hkey "default_value" ".default_value" (by decide) rfl,
    (readsOne_surveyRequired _).read_unless (fun _ => rfl) hwr hrequired,
    (readsOne_surveyScalar _).read_unless (fun _ => rfl) hwd hdescription,
    (readsOne_surveyScalar _).read_unless (fun _ => rfl) hwv hdefault]
  rfl

end

/-- An argument is named, or its name is, and it gives nothing; or it is a mapping whose
    name is read without findings. -/
theorem surveyArgument_cases {place : String} {v : Value} (hw : (surveyArgument place v).Writable) :
    (place ∈ (surveyArgument place v).names ∨ place ++ ".name" ∈ (surveyArgument place v).names) ∧
        (surveyArgument place v).value = none ∨
      ∃ fields name, v = .mapping fields ∧ name.isEmpty = false ∧
        ∀ field, surveyScalar field (Value.field "name" fields) = pure (some name) := by
  cases v with
  | mapping fields =>
    cases hempty : ((surveyScalar (place ++ ".name") (Value.field "name" fields)).value.getD
      ⟨[]⟩).isEmpty with
    | true =>
      obtain ⟨hmem, hvalue⟩ := surveyArgument_nameless hempty
      exact .inl ⟨.inr hmem, hvalue⟩
    | false =>
      simp only [surveyArgument, Survey.writable_bind] at hw
      rcases (readsOne_surveyScalar _).named_or_clean hw.1 with ⟨-, hnone⟩ | ⟨-, o, hclean⟩
      · rw [hnone] at hempty
        cases hempty
      · rw [hclean] at hempty
        cases o with
        | none => cases hempty
        | some name => exact .inr ⟨fields, name, rfl, hempty, hclean⟩
  | _ => exact .inl ⟨.inl (List.mem_singleton.2 rfl), rfl⟩

theorem keeps_keptArgument : Keeps named surveyArgument (keptArgument named) := by
  intro place v hw hnamed
  rcases surveyArgument_cases hw with ⟨hmem | hmem, hvalue⟩ | ⟨fields, name, rfl, hempty, hname⟩
  · have hin : place ∈ named := (hnamed _ (below_refl _)).2 hmem
    exact .inl ⟨by simp [keptArgument, hin], hvalue⟩
  · have hin : place ++ ".name" ∈ named := (hnamed _ (below_suffix place "name")).2 hmem
    exact .inl ⟨by simp [keptArgument, hin], hvalue⟩
  · rw [surveyArgument_named (hname _) hempty] at hw hnamed ⊢
    refine .inr ⟨_, _, keptArgument_eq_some hnamed _, rfl, fun place' => ?_⟩
    have hkept : surveyScalar (place' ++ ".name") (Value.field "name"
        (dropKeys (fun key => looseKeys.contains key && named.contains (place ++ "." ++ key))
          fields)) = pure (some name) := by
      rw [field_dropKeys]
      exact hname _
    rw [prunedArgument, surveyArgument_named hkept hempty]
    exact surveyNamed_dropKeys hw hnamed place'

/-! ### The pruned document -/

/-- The names of what is found in a field. -/
def fieldNames (key : String) (v : Value) : List String :=
  if key = "arguments" then (surveyList surveyArgument key v).names
  else if key = "tags" ∨ key = "shells" then (surveyList surveyItem key v).names
  else (surveyScalar key v).names

theorem names_survey (fields : List (String × Value)) :
    (survey fields).names =
      readFields.flatMap fun key => fieldNames key (Value.field key fields) := by
  simp [survey, surveyTextList_eq, surveyArguments_eq, readFields, fieldNames]

theorem below_of_mem_fieldNames {key n : String} {v : Value} (h : n ∈ fieldNames key v) :
    Below key n := by
  unfold fieldNames at h
  split at h
  · exact namesBelow_surveyArgument.list key v n h
  · split at h
    · exact namesBelow_surveyItem.list key v n h
    · exact namesBelow_surveyScalar key v n h

/-- **What is found at or below a field is found in it.** -/
theorem agreeBelow_field {key : String} (hkey : key ∈ readFields) (fields : List (String × Value)) :
    AgreeBelow key (survey fields).names (fieldNames key (Value.field key fields)) := by
  have hplain : ∀ key ∈ readFields, parts key = [key.toList] := by decide
  intro n hn
  rw [names_survey, List.mem_flatMap]
  constructor
  · rintro ⟨key', hkey', h⟩
    have hparts := parts_eq_of_below (below_of_mem_fieldNames h) hn
      (by rw [hplain key hkey, hplain key' hkey']; rfl)
    rw [hplain key hkey, hplain key' hkey'] at hparts
    rw [String.toList_inj.1 (List.cons.inj hparts).1] at h
    exact h
  · intro h
    exact ⟨key, hkey, h⟩

section

variable {fields : List (String × Value)} {key : String}

theorem field_prune_of_mem (named : List String) (hkey : key ∈ readFields) :
    Value.field key (prune named fields) =
      if named.contains key then .null else prunedField named key (Value.field key fields) := by
  rw [field_prune, List.contains_iff_mem.2 hkey, Bool.true_and]

/-- A field that is neither one of the lists is a scalar. -/
theorem surveyScalar_prune (hkey : key ∈ readFields)
    (hscalar : key ≠ "arguments" ∧ ¬ (key = "tags" ∨ key = "shells"))
    (hw : (surveyScalar key (Value.field key fields)).Writable) :
    surveyScalar key (Value.field key (prune (survey fields).names fields)) =
      pure (surveyScalar key (Value.field key fields)).value := by
  have hagree := agreeBelow_field hkey fields
  rw [fieldNames, if_neg hscalar.1, if_neg hscalar.2] at hagree
  rw [field_prune_of_mem _ hkey, prunedField, if_neg hscalar.1, if_neg hscalar.2]
  exact (readsOne_surveyScalar _).read_unless (fun _ => rfl) hw (hagree key (below_refl key)) key

theorem surveyTextList_prune (hkey : key ∈ readFields) (harguments : key ≠ "arguments")
    (hlist : key = "tags" ∨ key = "shells")
    (hw : (surveyList surveyItem key (Value.field key fields)).Writable) :
    surveyList surveyItem key (Value.field key (prune (survey fields).names fields)) =
      pure (surveyList surveyItem key (Value.field key fields)).value := by
  have hagree := agreeBelow_field hkey fields
  rw [fieldNames, if_neg harguments, if_pos hlist] at hagree
  rw [field_prune_of_mem _ hkey, prunedField, if_neg harguments, if_pos hlist]
  exact surveyList_unless namesBelow_surveyItem keeps_keptText hw hagree

theorem surveyArguments_prune
    (hw : (surveyList surveyArgument "arguments" (Value.field "arguments" fields)).Writable) :
    surveyList surveyArgument "arguments"
        (Value.field "arguments" (prune (survey fields).names fields)) =
      pure (surveyList surveyArgument "arguments" (Value.field "arguments" fields)).value := by
  have hkey : "arguments" ∈ readFields := by decide
  have hagree := agreeBelow_field hkey fields
  rw [fieldNames, if_pos rfl] at hagree
  rw [field_prune_of_mem _ hkey, prunedField, if_pos rfl]
  exact surveyList_unless namesBelow_surveyArgument keeps_keptArgument hw hagree

/-- **In the pruned document nothing is found**, and it declares what the whole declares. -/
theorem survey_prune (hw : (survey fields).Writable) :
    survey (prune (survey fields).names fields) = pure (survey fields).value := by
  have hparts := hw
  simp only [survey, surveyTextList_eq, surveyArguments_eq, Survey.writable_bind,
    Survey.writable_pure, and_true] at hparts
  obtain ⟨hname, hcommand, hdescription, hsource, hauthor, hauthorUrl, htags, hshells,
    harguments⟩ := hparts
  generalize hpruned : prune (survey fields).names fields = pruned
  have hread := @surveyScalar_prune fields
  have hlist := @surveyTextList_prune fields
  have harguments' := surveyArguments_prune harguments
  rw [hpruned] at hread hlist harguments'
  simp only [survey, surveyTextList_eq, surveyArguments_eq, hread (by decide) (by decide) hname,
    hread (by decide) (by decide) hcommand, hread (by decide) (by decide) hdescription,
    hread (by decide) (by decide) hsource, hread (by decide) (by decide) hauthor,
    hread (by decide) (by decide) hauthorUrl, hlist (by decide) (by decide) (.inl rfl) htags,
    hlist (by decide) (by decide) (.inr rfl) hshells, harguments']
  rfl

end

/-! ### The order of items -/

theorem keepItems_sublist (keep : String → Value → Option Value) (field : String) (i : Nat)
    (items : List Value) :
    List.SublistForall₂ (fun left v => ∃ place, keep place v = some left)
      (keepItems keep field i items) items := by
  induction items generalizing i with
  | nil => exact .nil
  | cons v rest ih =>
    rw [keepItems]
    cases h : keep (itemField field i) v with
    | none => exact .cons_right (ih _)
    | some left => exact .cons ⟨_, h⟩ (ih _)

/-- The list has one entry for each item of a field of which something is kept, in the order
    of the items. -/
def InOrder {α : Type} (R : Value → α → Prop) (keep : String → Value → Option Value)
    (key : String) (v : Value) (as : List α) : Prop :=
  ∃ items, v = .list items ∧
    List.SublistForall₂ (fun left v => ∃ place, keep place v = some left)
      (keepItems keep key 0 items) items ∧
    List.Forall₂ R (keepItems keep key 0 items) as

/-- The lists of a workflow follow those of a document, but for what is named. -/
structure KeepsOrder (named : List String) (fields : List (String × Value)) (raw : RawWorkflow) :
    Prop where
  tags : ∀ ts ∈ raw.tags, InOrder IsText (keptText named) "tags" (Value.field "tags" fields) ts
  shells : ∀ ts ∈ raw.shells,
    InOrder IsText (keptText named) "shells" (Value.field "shells" fields) ts
  arguments : ∀ as ∈ raw.arguments,
    InOrder IsArgument (keptArgument named) "arguments" (Value.field "arguments" fields) as

theorem inOrder_of_mayDeclare {α : Type} {R : Value → α → Prop} {named : List String}
    {keep : String → Value → Option Value} {key : String} {fields : List (String × Value)}
    {o : Option (List α)} (hkey : key ∈ readFields)
    (hpruned : ∀ v, prunedField named key v = keepList keep key v)
    (h : MayDeclare (IsListOf R) (Value.field key (prune named fields)) o) :
    ∀ as ∈ o, InOrder R keep key (Value.field key fields) as := by
  rintro as rfl
  obtain ⟨left, hleft, hall⟩ := h
  rw [field_prune_of_mem named hkey, hpruned] at hleft
  split at hleft
  · cases hleft
  · cases hv : Value.field key fields with
    | list items =>
      rw [hv] at hleft
      cases hleft
      exact ⟨items, rfl, keepItems_sublist .., hall⟩
    | _ =>
      rw [hv] at hleft
      cases hleft

theorem keepsOrder_of_declares {named : List String} {fields : List (String × Value)}
    {raw : RawWorkflow} (h : Declares (prune named fields) raw) : KeepsOrder named fields raw where
  tags := inOrder_of_mayDeclare (by decide) (fun _ => rfl) h.tags
  shells := inOrder_of_mayDeclare (by decide) (fun _ => rfl) h.shells
  arguments := inOrder_of_mayDeclare (by decide) (fun _ => rfl) h.arguments

/-! ### Dropping and refusing -/

section

variable {unique : Bool} {file : String} {fields : List (String × Value)} {raw : RawWorkflow}

/-- Dropping reads a document only if nothing but wrong shapes is found in it. -/
theorem exists_dropped_of_afterLoad
    (h : (afterLoad ⟨.drop, unique⟩ file (.mapping fields)).outcome = .ok raw) :
    raw = (survey fields).value ∧
      (if unique then repeatedArgument? raw else none) = none ∧
      ∃ dropped : List Dropped, (survey fields).findings = dropped.map Dropped.finding := by
  rw [outcome_afterLoad] at h
  change declared ⟨.drop, unique⟩ file fields = .ok raw at h
  unfold declared at h
  split at h
  · cases h
  · rename_i hnone
    split at h
    · cases h
    · rename_i hunique
      cases h
      exact ⟨rfl, hunique, exists_dropped_of_drop hnone⟩

theorem names_of_findings {s : Survey RawWorkflow} {dropped : List Dropped}
    (h : s.findings = dropped.map Dropped.finding) :
    s.Writable ∧ s.names = dropped.map (·.field) := by
  constructor
  · rw [Survey.Writable, h]
    intro hmem
    obtain ⟨d, -, hd⟩ := List.mem_map.1 hmem
    cases hd
  · rw [Survey.names, h, List.filterMap_map]
    exact congrFun List.filterMap_eq_map' dropped

/-- The check of arguments with different names changes nothing. -/
theorem checked_eq_pure {options : Options}
    (h : (if options.uniqueArguments then repeatedArgument? raw else none) = none) :
    checked options file raw = pure raw := by
  unfold checked checkArguments
  cases hunique : options.uniqueArguments with
  | false => rfl
  | true =>
    rw [hunique, if_pos rfl] at h
    rw [h]
    rfl

theorem afterLoad_eq_play {options : Options}
    (h : (if options.uniqueArguments then repeatedArgument? (survey fields).value else none) =
      none) :
    afterLoad options file (.mapping fields) = (survey fields).play ⟨file, options.policy⟩ := by
  change extract _ fields >>= checked options file = _
  rw [extract_eq_play, Survey.play, bind_assoc]
  simp only [pure_bind, checked_eq_pure h]

/-- **Dropping reads what refusing reads of the pruned document.**  The records of dropping
    name places; refusing reads the document without what they name, rejects nothing, and
    ends with the same workflow, which is the one that the pruned document declares. -/
theorem refuse_prune (h : (afterLoad ⟨.drop, unique⟩ file (.mapping fields)).outcome = .ok raw) :
    ∃ dropped : List Dropped,
      (afterLoad ⟨.drop, unique⟩ file (.mapping fields)).events =
        dropped.map (Dropped.event file) ∧
      (afterLoad ⟨.refuse, unique⟩ file
        (.mapping (prune (dropped.map (·.field)) fields))).outcome = .ok raw ∧
      (afterLoad ⟨.refuse, unique⟩ file
        (.mapping (prune (dropped.map (·.field)) fields))).events = [] ∧
      Declares (prune (dropped.map (·.field)) fields) raw ∧
      KeepsOrder (dropped.map (·.field)) fields raw := by
  obtain ⟨rfl, hunique, dropped, hdropped⟩ := exists_dropped_of_afterLoad h
  obtain ⟨hw, hnames⟩ := names_of_findings hdropped
  have hpruned := survey_prune hw
  rw [hnames] at hpruned
  have hrefused : afterLoad ⟨.refuse, unique⟩ file
      (.mapping (prune (dropped.map (·.field)) fields)) = pure (survey fields).value := by
    rw [afterLoad_eq_play (by rw [hpruned]; exact hunique), hpruned, Survey.play_pure]
  have hdeclares := survey_eq_pure_iff.1 hpruned
  refine ⟨dropped, ?_, by rw [hrefused]; rfl, by rw [hrefused]; rfl, hdeclares,
    keepsOrder_of_declares hdeclares⟩
  rw [afterLoad_eq_play hunique]
  exact events_play_drop hdropped

end

/-! ### A document with many wrong shapes -/

/-- A document with a field, items of a list, a list, arguments and keys of arguments that
    are of the wrong shape, among others that are not. -/
def manyWrong : List (String × Value) :=
  [("name", .list [.int 1]), ("command", .text "ls"),
    ("tags", .list [.text "a", .null, .int 7, .list [], .text "b"]), ("shells", .int 5),
    ("tags.0", .set),
    ("arguments", .list
      [.mapping [("name", .text "x"), ("required", .int 1), ("description", .bool true)],
        .text "y", .mapping [("required", .bool true)], .mapping [("name", .list [])],
        .mapping [("name", .text "z"), ("required", .bool false), ("default_value", .set)]])]

/-- What it declares without them. -/
def restDeclared : RawWorkflow where
  name := none
  command := some "ls"
  description := none
  tags := some ["a", "7", "b"]
  arguments := some
    [⟨"x", some "true", none, none⟩, ⟨"z", none, none, some false⟩]
  sourceUrl := none
  author := none
  authorUrl := none
  shells := none

/-- The places that are named, one of them twice. -/
def wrongPlaces : List String :=
  ["name", "tags.1", "tags.3", "shells", "arguments.0.required", "arguments.1",
    "arguments.2.name", "arguments.3.name", "arguments.3.name", "arguments.4.default_value"]

/-- The document without them. -/
def manyLeft : List (String × Value) :=
  [("command", .text "ls"), ("tags", .list [.text "a", .int 7, .text "b"]), ("tags.0", .set),
    ("arguments", .list
      [.mapping [("name", .text "x"), ("description", .bool true)],
        .mapping [("name", .text "z"), ("required", .bool false)]])]

/-- The place that a record names. -/
def recordedPlace (e : Log.Event) : Option Log.Field := e.fields.lookup "field"

theorem map_field_of_recordedPlace {dropped : List Dropped} {file : String} {places : List String}
    (h : (dropped.map (Dropped.event file)).map recordedPlace =
      places.map fun place => some (.text place)) : dropped.map (·.field) = places := by
  have hinjective : Function.Injective fun place : String => some (Log.Field.text place) := by
    intro s t hst
    exact CodeText.ofString_inj (Log.Field.text.inj (Option.some.inj hst))
  refine List.map_injective_iff.2 hinjective ?_
  rw [← h, List.map_map, List.map_map]
  rfl

/-- Fields, items, arguments and keys are named; an entry whose key only looks like a place
    stays. -/
theorem refuse_prune_manyWrong :
    (afterLoad ⟨.drop, true⟩ "m.yaml" (.mapping manyWrong)).outcome = .ok restDeclared ∧
      prune wrongPlaces manyWrong = manyLeft ∧
      (afterLoad ⟨.refuse, true⟩ "m.yaml" (.mapping manyLeft)).outcome = .ok restDeclared ∧
      (afterLoad ⟨.refuse, true⟩ "m.yaml" (.mapping manyLeft)).events = [] ∧
      Declares manyLeft restDeclared ∧ KeepsOrder wrongPlaces manyWrong restDeclared := by
  have hread : (afterLoad ⟨.drop, true⟩ "m.yaml" (.mapping manyWrong)).outcome =
      .ok restDeclared := by decide +kernel
  have hplaces : (afterLoad ⟨.drop, true⟩ "m.yaml" (.mapping manyWrong)).events.map recordedPlace =
      wrongPlaces.map fun place => some (.text place) := by decide +kernel
  have hpruned : prune wrongPlaces manyWrong = manyLeft := by rfl
  obtain ⟨dropped, hevents, hresult⟩ := refuse_prune hread
  rw [hevents] at hplaces
  rw [map_field_of_recordedPlace hplaces, hpruned] at hresult
  exact ⟨hread, hpruned, hresult⟩

end WorkflowCatalog.Manifest
