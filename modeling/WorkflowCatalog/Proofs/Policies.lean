/-
  WorkflowCatalog/Proofs/Policies.lean
  ====================================
  **Dropping and refusing part at the first field of the wrong shape.**  Both policies
  meet the same findings in the same order (`extract_eq_play`), so a text can be read
  under both and the runs compared finding by finding:

    * dropping records one event for each finding and goes on (`events_play_drop`);
    * refusing records nothing and ends with the first finding
      (`events_play_refuse`, `outcome_parse_refuse`).

  Main statement: where dropping reads a text, its journal tells how refusing ends; where
  refusing reads a text, or dropping cannot parse it, both end alike
  (`policies_correspond`).
-/
import Mathlib.Data.List.Basic
import WorkflowCatalog.Proofs.Outcome

namespace WorkflowCatalog.Manifest

open Text (CodeText)
open Yaml (Value)

/-! ### The journals of the two policies -/

/-- A field that is dropped, and why. -/
structure Dropped where
  field : String
  reason : String
  deriving DecidableEq, Repr

/-- The finding that a field is dropped for. -/
def Dropped.finding (d : Dropped) : Finding := .misshapen d.field d.reason

/-- The event that records a dropped field. -/
def Dropped.event (file : String) (d : Dropped) : Log.Event := droppedEvent file d.field d.reason

/-- What refuses a field that is dropped otherwise. -/
def Dropped.error (file : String) (d : Dropped) : ParseError :=
  ⟨.fieldType d.reason d.field, file, none, none, none⟩

section

variable {α : Type} {file : String}

/-- Dropping ends well only if nothing but fields of the wrong shape is found. -/
theorem exists_dropped_of_drop {findings : List Finding}
    (h : findings.findSome? (Finding.failure? ⟨file, .drop⟩) = none) :
    ∃ dropped : List Dropped, findings = dropped.map Dropped.finding := by
  induction findings with
  | nil => exact ⟨[], rfl⟩
  | cons finding rest ih =>
    cases finding with
    | misshapen field reason =>
      obtain ⟨dropped, rfl⟩ := ih h
      exact ⟨⟨field, reason⟩ :: dropped, rfl⟩
    | unwritable => cases h

/-- Refusing ends well only if nothing is found. -/
theorem eq_nil_of_refuse {findings : List Finding}
    (h : findings.findSome? (Finding.failure? ⟨file, .refuse⟩) = none) : findings = [] := by
  cases findings with
  | nil => rfl
  | cons finding rest => cases finding <;> cases h

theorem events_forM_meet_drop (dropped : List Dropped) :
    ((dropped.map Dropped.finding).forM (Finding.meet ⟨file, .drop⟩)).events =
      dropped.map (Dropped.event file) := by
  induction dropped with
  | nil => rfl
  | cons d rest ih =>
    change (d.finding.meet ⟨file, .drop⟩ >>= fun _ =>
      (rest.map Dropped.finding).forM (Finding.meet ⟨file, .drop⟩)).events = _
    rw [Traced.events_bind fun _ => Survey.appends_forM_meet _ _, Finding.outcome_meet]
    change [d.event file] ++
      ((rest.map Dropped.finding).forM (Finding.meet ⟨file, .drop⟩)).events = _
    rw [ih]
    rfl

theorem events_forM_meet_refuse (findings : List Finding) :
    (findings.forM (Finding.meet ⟨file, .refuse⟩)).events = [] := by
  cases findings with
  | nil => rfl
  | cons finding rest =>
    change (finding.meet ⟨file, .refuse⟩ >>= fun _ =>
      rest.forM (Finding.meet ⟨file, .refuse⟩)).events = _
    rw [Traced.events_bind fun _ => Survey.appends_forM_meet _ _, Finding.outcome_meet]
    cases finding with
    | misshapen field reason =>
      have hraise : (Finding.meet ⟨file, .refuse⟩ (.misshapen field reason)).events = [] :=
        Run.events_raise _
      rw [hraise]
      rfl
    | unwritable => rfl

theorem events_play (src : Source) (s : Survey α) :
    (s.play src).events = (s.findings.forM (Finding.meet src)).events := by
  unfold Survey.play
  rw [Traced.events_bind fun _ => Traced.appends_pure _]
  cases (s.findings.forM (Finding.meet src)).outcome <;> exact List.append_nil _

/-- **Dropping records every field that is dropped, in order.** -/
theorem events_play_drop {s : Survey α} {dropped : List Dropped}
    (h : s.findings = dropped.map Dropped.finding) :
    (s.play ⟨file, .drop⟩).events = dropped.map (Dropped.event file) := by
  rw [events_play, h, events_forM_meet_drop]

/-- **Refusing records nothing.** -/
theorem events_play_refuse (s : Survey α) : (s.play ⟨file, .refuse⟩).events = [] := by
  rw [events_play, events_forM_meet_refuse]

end

/-! ### Reading a text under a policy -/

/-- Reading under a policy, with nothing said about arguments that share a name. -/
def under (policy : Policy) : Options := ⟨policy, false⟩

variable {policy : Policy} {file text : String} {fields : List (String × Value)} {raw : RawWorkflow}

/-- A text is read only if it is a mapping whose findings end in no failure. -/
theorem exists_fields_of_parse (h : (parse (under policy) file text).outcome = .ok raw) :
    ∃ fields, Yaml.load text = .ok (.mapping fields) ∧ raw = (survey fields).value ∧
      (survey fields).findings.findSome? (Finding.failure? ⟨file, policy⟩) = none := by
  rw [outcome_parse] at h
  cases hload : Yaml.load text with
  | error fault =>
    rw [hload] at h
    cases h
  | ok v =>
    rw [hload] at h
    cases v with
    | mapping fields =>
      refine ⟨fields, rfl, ?_⟩
      change declared (under policy) file fields = .ok raw at h
      unfold declared at h
      split at h
      · cases h
      · rename_i hnone
        exact ⟨(Except.ok.inj h).symm, hnone⟩
    | _ => cases h

theorem outcome_parse_mapping (hload : Yaml.load text = .ok (.mapping fields)) :
    (parse (under policy) file text).outcome =
      match (survey fields).findings.findSome? (Finding.failure? ⟨file, policy⟩) with
      | some f => .error f
      | none => .ok (survey fields).value := by
  rw [outcome_parse, hload]
  rfl

theorem events_parse_mapping (hload : Yaml.load text = .ok (.mapping fields)) :
    (parse (under policy) file text).events = ((survey fields).play ⟨file, policy⟩).events := by
  have hloaded : loadValue file text = pure (.mapping fields) := by
    unfold loadValue
    rw [hload]
  have hchecked : ∀ raw, checked (under policy) file raw = pure raw := fun _ => rfl
  rw [parse_eq, hloaded, pure_bind, ← extract_eq_play]
  change (extract ⟨file, policy⟩ fields >>= checked (under policy) file).events = _
  rw [funext hchecked, bind_pure]

/-- Refusing ends with the first field that dropping drops. -/
theorem outcome_parse_refuse {d : Dropped} {rest : List Dropped}
    (hload : Yaml.load text = .ok (.mapping fields))
    (h : (survey fields).findings = (d :: rest).map Dropped.finding) :
    (parse (under .refuse) file text).outcome = .error (.error (.parse (d.error file))) := by
  rw [outcome_parse_mapping hload, h]
  rfl

/-- A parse error that dropping ends in is one of the document, not of its fields. -/
theorem outcome_parse_of_drop_parse {e : ParseError}
    (h : (parse (under .drop) file text).outcome = .error (.error (.parse e))) :
    (parse (under policy) file text).outcome = .error (.error (.parse e)) := by
  rw [outcome_parse] at h ⊢
  cases hload : Yaml.load text with
  | error fault =>
    rw [hload] at h
    exact h
  | ok v =>
    rw [hload] at h
    cases v with
    | mapping fields =>
      change declared (under .drop) file fields = _ at h
      unfold declared at h
      split at h
      · rename_i f hf
        obtain ⟨finding, -, hfinding⟩ := List.exists_of_findSome?_eq_some hf
        cases finding with
        | misshapen field reason => cases hfinding
        | unwritable =>
          cases hfinding
          cases h
      · cases h
    | _ => exact h

/-! ### The correspondence -/

/-- **Dropping and refusing correspond.**  If dropping reads a text, its journal holds the
    fields it has dropped and nothing else; refusing reads the same if there is none, and
    ends with the first of them otherwise, without a record.  If refusing reads a text,
    dropping reads the same and records nothing.  If dropping ends in a parse error,
    refusing ends in the same. -/
theorem policies_correspond (file text : String) :
    (∀ raw, (parse (under .drop) file text).outcome = .ok raw →
      ∃ dropped : List Dropped,
        (parse (under .drop) file text).events = dropped.map (Dropped.event file) ∧
        (parse (under .refuse) file text).events = [] ∧
        (dropped = [] → (parse (under .refuse) file text).outcome = .ok raw) ∧
        ∀ d rest, dropped = d :: rest → ∃ e : ParseError,
          (parse (under .refuse) file text).outcome = .error (.error (.parse e)) ∧
            e.cause = .fieldType d.reason d.field ∧ e.file = file ∧
            e.reason = .ofString (d.reason ++ ": field '" ++ d.field ++ "'")) ∧
    (∀ raw, (parse (under .refuse) file text).outcome = .ok raw →
      (parse (under .drop) file text).outcome = .ok raw ∧
        (parse (under .drop) file text).events = [] ∧
        (parse (under .refuse) file text).events = []) ∧
    ∀ e, (parse (under .drop) file text).outcome = .error (.error (.parse e)) →
      (parse (under .refuse) file text).outcome = .error (.error (.parse e)) := by
  refine ⟨?_, ?_, fun e => outcome_parse_of_drop_parse⟩
  · intro raw h
    obtain ⟨fields, hload, rfl, hnone⟩ := exists_fields_of_parse h
    obtain ⟨dropped, hdropped⟩ := exists_dropped_of_drop hnone
    refine ⟨dropped, ?_, ?_, ?_, ?_⟩
    · rw [events_parse_mapping hload, events_play_drop hdropped]
    · rw [events_parse_mapping hload, events_play_refuse]
    · rintro rfl
      rw [outcome_parse_mapping hload, hdropped]
      rfl
    · rintro d rest rfl
      exact ⟨d.error file, outcome_parse_refuse hload hdropped, rfl, rfl, rfl⟩
  · intro raw h
    obtain ⟨fields, hload, rfl, hnone⟩ := exists_fields_of_parse h
    have hnil : (survey fields).findings = ([] : List Dropped).map Dropped.finding :=
      eq_nil_of_refuse hnone
    refine ⟨?_, ?_, ?_⟩
    · rw [outcome_parse_mapping hload, hnil]
      rfl
    · rw [events_parse_mapping hload, events_play_drop hnil]
      rfl
    · rw [events_parse_mapping hload, events_play_refuse]

/-- A manifest that declares nothing. -/
def nothingDeclared : RawWorkflow := ⟨none, none, none, none, none, none, none, none, none⟩

/-- A text with two fields of the wrong shape: the first that is dropped is refused. -/
theorem policies_correspond_twoFields :
    (parse (under .drop) "m.yaml" "name: [1]\nshells: 5\n").outcome = .ok nothingDeclared ∧
      ∃ dropped : List Dropped,
        (parse (under .drop) "m.yaml" "name: [1]\nshells: 5\n").events =
          dropped.map (Dropped.event "m.yaml") ∧
        (parse (under .refuse) "m.yaml" "name: [1]\nshells: 5\n").events = [] ∧
        ∀ d rest, dropped = d :: rest → ∃ e : ParseError,
          (parse (under .refuse) "m.yaml" "name: [1]\nshells: 5\n").outcome =
            .error (.error (.parse e)) ∧
            e.cause = .fieldType d.reason d.field ∧ e.file = "m.yaml" ∧
            e.reason = .ofString (d.reason ++ ": field '" ++ d.field ++ "'") := by
  have h : (parse (under .drop) "m.yaml" "name: [1]\nshells: 5\n").outcome =
      .ok nothingDeclared := by decide +kernel
  obtain ⟨dropped, hevents, hnone, -, hfirst⟩ :=
    (policies_correspond "m.yaml" "name: [1]\nshells: 5\n").1 _ h
  exact ⟨h, dropped, hevents, hnone, hfirst⟩

end WorkflowCatalog.Manifest
