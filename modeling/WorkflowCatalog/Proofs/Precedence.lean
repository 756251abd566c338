/-
  WorkflowCatalog/Proofs/Precedence.lean
  ======================================
  **How far the values of a caller go before the environment.**  Two environments that
  differ only in variables of settings that the caller gives should lead to the same
  outcome.

  What is put together from the variables and the caller is the same for both: a setting
  is looked up from the end, where the caller's values are, and a variable gives nothing but
  settings (`settings_congr`).  But a variable for a truth value is read before it is put
  together with anything.  So the outcomes agree exactly if the first variable that cannot
  be read is the same, with the same text, or there is none in either.

  Main statement: `sameOutcome_iff`.
-/
import Mathlib.Data.List.Basic
import WorkflowCatalog.Proofs.Journal
import WorkflowCatalog.Proofs.SchemaMeaning
import WorkflowCatalog.Config.Environment

namespace WorkflowCatalog

open Validation
open Text (CodeText strip upperString)
open Traced

namespace Json

variable {key k : String} {value : Json} {ms : List (String × Json)}

/-! ### Assignments -/

theorem lookup_cons (key k : String) (value : Json) (ms : List (String × Json)) :
    lookup key ((k, value) :: ms) = if k = key then some value else lookup key ms := by
  unfold lookup
  by_cases h : k = key <;> simp [h]

theorem lookup_append (key : String) (ms ns : List (String × Json)) :
    lookup key (ms ++ ns) = (lookup key ms).or (lookup key ns) := by
  unfold lookup
  cases h : ms.find? (·.1 == key) <;> simp [List.find?_append, h]

theorem lookup_filter {p : String → Bool} (h : p key = true) :
    lookup key (ms.filter fun m => p m.1) = lookup key ms := by
  induction ms with
  | nil => rfl
  | cons m rest ih =>
    obtain ⟨k, x⟩ := m
    by_cases hk : k = key
    · subst hk
      simp [h, lookup_cons]
    · cases hp : p k <;> simp [hp, lookup_cons, hk, ih]

theorem insert_cons (key k : String) (value x : Json) (ms : List (String × Json)) :
    insert key value ((k, x) :: ms) =
      if k = key then (k, value) :: ms else (k, x) :: insert key value ms := rfl

theorem lookup_insert (key k : String) (value : Json) (ms : List (String × Json)) :
    lookup key (insert k value ms) = if k = key then some value else lookup key ms := by
  induction ms with
  | nil => simp [insert, lookup_cons]
  | cons m rest ih =>
    obtain ⟨k', x⟩ := m
    rw [insert_cons]
    by_cases hk : k' = k
    · subst hk
      by_cases hkey : k' = key <;> simp [lookup_cons, hkey]
    · simp only [if_neg hk, lookup_cons, ih]
      by_cases hkey : k' = key
      · subst hkey
        simp [Ne.symm hk]
      · simp [hkey]

/-- Of several assignments to a key the last one counts. -/
theorem lookup_ofAssignments (key : String) (ms : List (String × Json)) :
    lookup key (ofAssignments ms) = lookup key ms.reverse := by
  have hfold : ∀ front, lookup key (ms.foldl (fun ms m => insert m.1 m.2 ms) front) =
      (lookup key ms.reverse).or (lookup key front) := by
    induction ms with
    | nil => simp [lookup]
    | cons m rest ih =>
      intro front
      obtain ⟨k, x⟩ := m
      rw [List.foldl_cons, ih, lookup_insert, List.reverse_cons, lookup_append, lookup_cons,
        Option.or_assoc]
      by_cases hk : k = key <;> simp [hk, lookup]
  unfold ofAssignments
  rw [hfold]
  simp [lookup]

theorem filter_insert (p : String → Bool) (key : String) (value : Json)
    (ms : List (String × Json)) :
    (insert key value ms).filter (fun m => p m.1) =
      if p key = true then insert key value (ms.filter fun m => p m.1)
      else ms.filter fun m => p m.1 := by
  induction ms with
  | nil => cases h : p key <;> simp [insert, h]
  | cons m rest ih =>
    obtain ⟨k, x⟩ := m
    rw [insert_cons, List.filter_cons]
    by_cases hk : k = key
    · subst hk
      cases h : p k <;> simp [h, insert_cons]
    · cases h : p key <;> cases h' : p k <;> simp [h, h', insert_cons, hk, ih]

/-- What assignments leave under some keys are the assignments to these keys. -/
theorem filter_ofAssignments (p : String → Bool) (ms : List (String × Json)) :
    (ofAssignments ms).filter (fun m => p m.1) = ofAssignments (ms.filter fun m => p m.1) := by
  have hfold : ∀ front,
      (ms.foldl (fun ms m => insert m.1 m.2 ms) front).filter (fun m => p m.1) =
        (ms.filter fun m => p m.1).foldl (fun ms m => insert m.1 m.2 ms)
          (front.filter fun m => p m.1) := by
    induction ms with
    | nil => intro front; rfl
    | cons m rest ih =>
      intro front
      rw [List.foldl_cons, ih, filter_insert]
      cases h : p m.1 <;> simp [h]
  exact hfold []

end Json

namespace Config

open Json

variable {overrides : Members} {env env' : Environment}

/-! ### What variables give -/

/-- What the environment says about a setting; a blank text says nothing. -/
def said? (env : Environment) (v : Variable) : Option String :=
  (env.value? v.name).filter fun raw => strip raw ≠ ""

/-- The value that a variable gives to its setting, if its text can be read. -/
def Variable.value? (v : Variable) (raw : String) : Option Json :=
  if v.isTruth then (truth? raw).map .bool else some (.str (strip raw))

/-- The members that variables give. -/
def given (env : Environment) (vs : List Variable) : Members :=
  vs.filterMap fun v => ((said? env v).bind v.value?).map (v.setting, ·)

/-- The first variable with a text that cannot be read, and the text. -/
def unreadable? (env : Environment) (vs : List Variable) : Option (String × String) :=
  vs.findSome? fun v => ((said? env v).filter fun raw => (v.value? raw).isNone).map (v.name, ·)

/-- The error of a text that is not a truth value. -/
def notTruth (name raw : String) : Error :=
  .configuration ("Expected a boolean, got '" ++ raw ++ "'") (some name) none

theorem read_eq (v : Variable) (raw : String) :
    v.read raw =
      match v.value? raw with
      | some value => pure value
      | none => Run.raise (notTruth v.name raw) := by
  unfold Variable.read Variable.value?
  cases v.isTruth
  · rfl
  · cases truth? raw <;> rfl

theorem appends_read (v : Variable) (raw : String) : (v.read raw).Appends := by
  rw [read_eq]
  cases v.value? raw with
  | none => exact Run.appends_raise _
  | some value => exact appends_pure value

theorem readVariables_cons (env : Environment) (v : Variable) (rest : List Variable) :
    readVariables env (v :: rest) =
      match said? env v with
      | none => readVariables env rest
      | some raw => do
        let value ← v.read raw
        return (v.setting, value) :: (← readVariables env rest) := by
  rw [readVariables]
  unfold said?
  cases env.value? v.name with
  | none => rfl
  | some raw => by_cases h : strip raw = "" <;> simp [Option.filter, h]

theorem given_cons (env : Environment) (v : Variable) (rest : List Variable) :
    given env (v :: rest) =
      (((said? env v).bind v.value?).map (v.setting, ·)).toList ++ given env rest := by
  unfold given
  rw [List.filterMap_cons]
  cases (said? env v).bind v.value? <;> rfl

theorem unreadable?_cons (env : Environment) (v : Variable) (rest : List Variable) :
    unreadable? env (v :: rest) =
      (((said? env v).filter fun raw => (v.value? raw).isNone).map (v.name, ·)).or
        (unreadable? env rest) := by
  unfold unreadable?
  rw [List.findSome?_cons]
  cases ((said? env v).filter fun raw => (v.value? raw).isNone) <;> rfl

theorem appends_readVariables (env : Environment) (vs : List Variable) :
    (readVariables env vs).Appends := by
  induction vs with
  | nil => exact appends_pure []
  | cons v rest ih =>
    rw [readVariables_cons]
    cases said? env v with
    | none => exact ih
    | some raw =>
      exact appends_bind (appends_read v raw) fun _ => appends_bind ih fun _ => appends_pure _

/-- **What reading the variables comes to**: the first text that cannot be read ends it. -/
theorem outcome_readVariables (env : Environment) (vs : List Variable) :
    (readVariables env vs).outcome =
      match unreadable? env vs with
      | none => .ok (given env vs)
      | some (name, raw) => .error (.error (notTruth name raw)) := by
  induction vs with
  | nil => rfl
  | cons v rest ih =>
    rw [readVariables_cons, unreadable?_cons, given_cons]
    cases said? env v with
    | none => simpa using ih
    | some raw =>
      dsimp only
      rw [outcome_bind fun _ => appends_bind (appends_readVariables env rest)
        fun _ => appends_pure _, read_eq]
      cases hvalue : v.value? raw with
      | none =>
        rw [Run.outcome_raise]
        simp [Option.filter, hvalue, Except.bind]
      | some value =>
        change (readVariables env rest >>= _).outcome = _
        rw [outcome_bind fun _ => appends_pure _, ih]
        cases unreadable? env rest with
        | none => simp [Option.filter, hvalue, Except.bind]; rfl
        | some r => simp [Option.filter, hvalue, Except.bind]

/-- What the settings that have been put together come to. -/
def settled (c : Checked Config) : Except Failure Config :=
  match c with
  | .ok c => .ok c
  | .bad problems => .error (.error (invalid problems))

theorem outcome_ofEnvironment (env : Environment) (overrides : Members) :
    (ofEnvironment env overrides).outcome =
      match unreadable? env knownVariables with
      | none => settled (ofJson (.obj (ofAssignments (given env knownVariables ++ overrides))))
      | some (name, raw) => .error (.error (notTruth name raw)) := by
  have hrest : ∀ ms : Members, (match ofJson (.obj (ofAssignments (ms ++ overrides))) with
      | .ok c => pure c
      | .bad problems => Run.raise (invalid problems) : Run Config).Appends := by
    intro ms
    split
    · exact appends_pure _
    · exact Run.appends_raise _
  refine (outcome_bind hrest).trans ?_
  rw [outcome_readVariables]
  cases unreadable? env knownVariables with
  | some r => rfl
  | none =>
    dsimp only [Except.bind, settled]
    split
    · rfl
    · exact Run.outcome_raise _

/-! ### Two environments -/

/-- The environments differ only in variables of settings that the caller gives. -/
def DifferInOverridden (overrides : Members) (env env' : Environment) : Prop :=
  ∀ name, env.value? name ≠ env'.value? name →
    ∃ setting ∈ settingNames, setting ∈ overrides.map (·.1) ∧
      name = variableStart ++ upperString setting

/-- The same settings, or a refusal with the same setting and message. -/
inductive SameOutcome : Except Failure Config → Except Failure Config → Prop
  | settings (c : Config) : SameOutcome (.ok c) (.ok c)
  | refusal {reason reason' : String} {setting : Option String} {detail detail' : Option Log.Detail}
      (h : (Error.configuration reason setting detail).message =
        (Error.configuration reason' setting detail').message) :
      SameOutcome (.error (.error (.configuration reason setting detail)))
        (.error (.error (.configuration reason' setting detail')))

/-- A variable belongs to one setting. -/
theorem setting_of_name : ∀ v ∈ knownVariables, ∀ setting ∈ settingNames,
    v.name = variableStart ++ upperString setting → v.setting = setting := by
  decide +kernel

theorem setting_mem : ∀ v ∈ knownVariables, v.setting ∈ settingNames := by
  decide +kernel

/-- Where the caller says nothing, the variables of both environments say the same. -/
theorem said?_eq (h : DifferInOverridden overrides env env') {v : Variable}
    (hv : v ∈ knownVariables) (hfree : v.setting ∉ overrides.map (·.1)) :
    said? env v = said? env' v := by
  have hvalue : env.value? v.name = env'.value? v.name := by
    by_contra hdiffer
    obtain ⟨setting, hsetting, hgiven, hname⟩ := h v.name hdiffer
    rw [setting_of_name v hv setting hsetting hname] at hfree
    exact hfree hgiven
  unfold said?
  rw [hvalue]

theorem filter_given_eq (h : DifferInOverridden overrides env env') :
    (given env knownVariables).filter (fun m => decide (m.1 ∉ overrides.map (·.1))) =
      (given env' knownVariables).filter fun m => decide (m.1 ∉ overrides.map (·.1)) := by
  unfold given
  rw [List.filter_filterMap, List.filter_filterMap]
  apply List.filterMap_congr
  intro v hv
  by_cases hfree : v.setting ∈ overrides.map (·.1)
  · cases (said? env v).bind v.value? <;> cases (said? env' v).bind v.value? <;>
      simp [Option.filter, hfree]
  · rw [said?_eq h hv hfree]

theorem lookup_merged (h : DifferInOverridden overrides env env') (name : String) :
    lookup name (ofAssignments (given env knownVariables ++ overrides)) =
      lookup name (ofAssignments (given env' knownVariables ++ overrides)) := by
  simp only [lookup_ofAssignments, List.reverse_append, lookup_append]
  by_cases hname : name ∈ overrides.map (·.1)
  · -- the caller's value comes first
    obtain ⟨value, hvalue⟩ : ∃ value, lookup name overrides.reverse = some value := by
      rw [← Option.ne_none_iff_exists', ne_eq, lookup_eq_none_iff]
      simpa using hname
    simp [hvalue]
  · have hfilter : ∀ env, lookup name (given env knownVariables).reverse =
        lookup name ((given env knownVariables).filter
          fun m => decide (m.1 ∉ overrides.map (·.1))).reverse := by
      intro env
      rw [← List.filter_reverse]
      exact (lookup_filter (p := fun name => decide (name ∉ overrides.map (·.1)))
        (decide_eq_true hname)).symm
    rw [hfilter env, hfilter env', filter_given_eq h]

/-- Variables give nothing but settings. -/
theorem filter_given_unknown (env : Environment) :
    (given env knownVariables).filter (fun m => !settingNames.contains m.1) = [] := by
  rw [List.filter_eq_nil_iff]
  intro m hm
  obtain ⟨v, hv, hvalue⟩ := List.mem_filterMap.1 hm
  obtain ⟨value, -, rfl⟩ := Option.map_eq_some_iff.1 hvalue
  simp [setting_mem v hv]

/-- Settings are read from what their names are looked up to be, and from the other names. -/
theorem ofJson_congr {ms ns : Members}
    (hsettings : ∀ name ∈ settingNames, lookup name ms = lookup name ns)
    (hothers : ms.filter (fun m => !settingNames.contains m.1) =
      ns.filter fun m => !settingNames.contains m.1) :
    ofJson (.obj ms) = ofJson (.obj ns) := by
  unfold ofJson object
  dsimp only
  rw [hothers]
  simp only [settingNames, List.forall_mem_cons] at hsettings
  simp only [fieldOr, hsettings]

/-- **What is put together from variables and the caller** does not depend on variables of
    settings that the caller gives. -/
theorem settings_congr (h : DifferInOverridden overrides env env') :
    ofJson (.obj (ofAssignments (given env knownVariables ++ overrides))) =
      ofJson (.obj (ofAssignments (given env' knownVariables ++ overrides))) := by
  apply ofJson_congr
  · intro name _
    exact lookup_merged h name
  · simp only [filter_ofAssignments fun name => !settingNames.contains name, List.filter_append,
      filter_given_unknown]

/-! ### Outcomes that are the same -/

theorem sameOutcome_settled (c : Checked Config) : SameOutcome (settled c) (settled c) := by
  cases c with
  | ok c => exact .settings c
  | bad problems => exact .refusal rfl

theorem SameOutcome.symm {r r' : Except Failure Config} (h : SameOutcome r r') :
    SameOutcome r' r := by
  cases h with
  | settings c => exact .settings c
  | refusal h => exact .refusal h.symm

theorem SameOutcome.message {e e' : Error}
    (h : SameOutcome (.error (.error e)) (.error (.error e'))) : e.message = e'.message := by
  cases h with
  | refusal h => exact h

theorem SameOutcome.setting {reason reason' : String} {setting setting' : Option String}
    {detail detail' : Option Log.Detail}
    (h : SameOutcome (.error (.error (.configuration reason setting detail)))
      (.error (.error (.configuration reason' setting' detail')))) : setting = setting' := by
  cases h with
  | refusal _ => rfl

/-- What a message says of a setting, behind the reason. -/
def settingText : Option String → String
  | none => ""
  | some s => if s = "" then "" else " (setting '" ++ s ++ "')"

theorem message_configuration (reason : String) (setting : Option String)
    (detail : Option Log.Detail) :
    (Error.configuration reason setting detail).message =
      CodeText.ofString (reason ++ settingText setting) := by
  cases setting with
  | none => simp [Error.message, settingText]
  | some s =>
    by_cases h : s = ""
    · simp [Error.message, settingText, h]
    · simp [Error.message, settingText, h, String.append_assoc]

theorem not_sameOutcome_notTruth {c : Checked Config} {name raw : String} :
    ¬ SameOutcome (settled c) (.error (.error (notTruth name raw))) := by
  intro h
  cases c with
  | ok c => cases h
  | bad problems =>
    have hmessage := h.message
    unfold invalid notTruth at hmessage
    rw [message_configuration, message_configuration] at hmessage
    have htext := congrArg String.toList (CodeText.ofString_inj hmessage)
    simp at htext

theorem notTruth_inj {name name' raw raw' : String}
    (h : SameOutcome (.error (.error (notTruth name raw))) (.error (.error (notTruth name' raw')))) :
    (name, raw) = (name', raw') := by
  have hmessage := h.message
  unfold notTruth at h hmessage
  obtain rfl : name = name' := Option.some.inj h.setting
  rw [message_configuration, message_configuration] at hmessage
  have htext := congrArg String.toList (CodeText.ofString_inj hmessage)
  simp only [String.toList_append, List.append_cancel_right_eq, List.append_cancel_left_eq] at htext
  exact congrArg (Prod.mk name) (String.toList_inj.1 htext)

/-- **Two environments that differ only in what the caller gives** lead to the same outcome
    exactly if the first variable that cannot be read is the same in both, with the same text,
    or every variable can be read. -/
theorem sameOutcome_iff (overrides : Members) (env env' : Environment)
    (h : DifferInOverridden overrides env env') :
    SameOutcome (ofEnvironment env overrides).outcome (ofEnvironment env' overrides).outcome ↔
      unreadable? env knownVariables = unreadable? env' knownVariables := by
  rw [outcome_ofEnvironment, outcome_ofEnvironment, settings_congr h]
  constructor
  · intro hsame
    cases hleft : unreadable? env knownVariables with
    | none =>
      cases hright : unreadable? env' knownVariables with
      | none => rfl
      | some r =>
        rw [hleft, hright] at hsame
        exact absurd hsame not_sameOutcome_notTruth
    | some l =>
      cases hright : unreadable? env' knownVariables with
      | none =>
        rw [hleft, hright] at hsame
        exact absurd hsame.symm not_sameOutcome_notTruth
      | some r =>
        rw [hleft, hright] at hsame
        exact congrArg some (notTruth_inj hsame)
  · intro hsame
    rw [hsame]
    cases unreadable? env' knownVariables with
    | none => exact sameOutcome_settled _
    | some r => exact .refusal rfl

theorem differInOverridden_single {setting : String} (h : setting ∈ settingNames) (raw : String)
    (value : Json) :
    DifferInOverridden [(setting, value)] [(variableStart ++ upperString setting, raw)] [] := by
  intro name hdiffer
  refine ⟨setting, h, by simp, ?_⟩
  by_contra hname
  exact hdiffer (by simp [Environment.value?, Ne.symm hname])

/-- A number that cannot be read does no harm where the caller gives another one. -/
theorem sameOutcome_manyWorkers :
    DifferInOverridden [("max_workers", .int 8)] [("WORKFLOW_CORE_MAX_WORKERS", "lots")] [] ∧
      SameOutcome
        (ofEnvironment [("WORKFLOW_CORE_MAX_WORKERS", "lots")] [("max_workers", .int 8)]).outcome
        (ofEnvironment [] [("max_workers", .int 8)]).outcome := by
  have hname : variableStart ++ upperString "max_workers" = "WORKFLOW_CORE_MAX_WORKERS" := by
    decide +kernel
  have hmem : "max_workers" ∈ settingNames := by decide
  have hdiffer := differInOverridden_single hmem "lots" (.int 8)
  rw [hname] at hdiffer
  exact ⟨hdiffer, (sameOutcome_iff _ _ _ hdiffer).2 (by decide +kernel)⟩

/-- **A truth value that cannot be read does**: it ends the run, whatever the caller gives. -/
theorem not_sameOutcome_maybe :
    DifferInOverridden [("strict_fields", .bool true)] [("WORKFLOW_CORE_STRICT_FIELDS", "maybe")]
        [] ∧
      ¬ SameOutcome
        (ofEnvironment [("WORKFLOW_CORE_STRICT_FIELDS", "maybe")]
          [("strict_fields", .bool true)]).outcome
        (ofEnvironment [] [("strict_fields", .bool true)]).outcome := by
  have hname : variableStart ++ upperString "strict_fields" = "WORKFLOW_CORE_STRICT_FIELDS" := by
    decide +kernel
  have hmem : "strict_fields" ∈ settingNames := by decide
  have hdiffer := differInOverridden_single hmem "maybe" (.bool true)
  rw [hname] at hdiffer
  have hmaybe : unreadable? [("WORKFLOW_CORE_STRICT_FIELDS", "maybe")] knownVariables =
      some ("WORKFLOW_CORE_STRICT_FIELDS", "maybe") := by decide +kernel
  have hnone : unreadable? [] knownVariables = none := by decide +kernel
  refine ⟨hdiffer, fun hsame => ?_⟩
  rw [outcome_ofEnvironment, outcome_ofEnvironment, hmaybe, hnone] at hsame
  exact not_sameOutcome_notTruth hsame.symm

end Config

end WorkflowCatalog
