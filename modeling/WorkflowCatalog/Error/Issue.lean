/-
  WorkflowCatalog/Error/Issue.lean
  ================================
  **Issues: what is shown of the failure of a manifest.**  An issue cannot be without a
  reason, the reason is a string, and line and column count from one.  Main statement:
  an error has an issue exactly if it keeps these rules (`Issue.ofError_eq_ok`).
-/
import WorkflowCatalog.Error.Parse
import WorkflowCatalog.Validation.Scalar

namespace WorkflowCatalog

open Text (CodeText)
open Validation

/-- A problem of a manifest as it is shown to a user. -/
structure Issue where
  path : Path
  message : String
  line : Option Int
  column : Option Int
  deriving DecidableEq, Repr

namespace Issue

def countFromOne (name : String) : Option Int → Checked (Option Int)
  | none => .ok none
  | some n => if n < 1 then .bad [⟨.belowLeast, [.field name]⟩] else .ok (some n)

/-- A reason is a string that is not empty. -/
def checkReason (reason : CodeText) : Checked String :=
  match reason.toString? with
  | none => .bad [⟨.notUnicode, [.field "message"]⟩]
  | some s => if s = "" then .bad [⟨.textTooShort, [.field "message"]⟩] else .ok s

/-- An issue whose parts are checked. -/
def check (path : Path) (reason : CodeText) (line column : Option Int) : Checked Issue :=
  Issue.mk path
    <$> checkReason reason
    <*> countFromOne "line" line
    <*> countFromOne "column" column

def ofError (e : ParseError) : Except Mismatch Issue :=
  (check e.path e.reason e.line e.column).result "ManifestIssue"

theorem countFromOne_eq_ok {name : String} {o o' : Option Int} :
    countFromOne name o = .ok o' ↔ (∀ n ∈ o, 1 ≤ n) ∧ o = o' := by
  cases o with
  | none => simp [countFromOne]
  | some n =>
    by_cases h : n < 1
    · simp [countFromOne, h, Int.not_le.2 h]
    · simp [countFromOne, h, Int.not_lt.1 h]

theorem checkReason_eq_ok {reason : CodeText} {s : String} :
    checkReason reason = .ok s ↔ reason.toString? = some s ∧ s ≠ "" := by
  unfold checkReason
  cases h : reason.toString? with
  | none => simp
  | some t =>
    by_cases ht : t = ""
    · simp [ht]
    · simp only [ht, if_false, Checked.ok.injEq, Option.some.injEq]
      exact ⟨fun e => ⟨e, e ▸ ht⟩, fun e => e.1⟩

/-- An error has an issue exactly if its reason is a string that is not empty and its line
    and column, where it has them, count from one; the issue says what the error says. -/
theorem ofError_eq_ok {e : ParseError} {i : Issue} :
    ofError e = .ok i ↔
      e.reason.toString? = some i.message ∧ i.message ≠ "" ∧
        (∀ n ∈ e.line, 1 ≤ n) ∧ (∀ n ∈ e.column, 1 ≤ n) ∧
        i.path = e.path ∧ i.line = e.line ∧ i.column = e.column := by
  have hresult (c : Checked Issue) : c.result "ManifestIssue" = .ok i ↔ c = .ok i := by
    cases c <;> simp [Checked.result]
  rw [ofError, hresult]
  simp only [check, Seq.seq, Functor.map, Checked.seq_eq_ok, Checked.map_eq_ok,
    countFromOne_eq_ok, checkReason_eq_ok]
  constructor
  · rintro ⟨_, _, ⟨_, _, ⟨s, ⟨hs, hne⟩, rfl⟩, ⟨hl, rfl⟩, rfl⟩, ⟨hc, rfl⟩, rfl⟩
    exact ⟨hs, hne, hl, hc, rfl, rfl, rfl⟩
  · rintro ⟨hs, hne, hl, hc, hp, hline, hcolumn⟩
    refine ⟨_, _, ⟨_, _, ⟨_, ⟨hs, hne⟩, rfl⟩, ⟨hl, rfl⟩, rfl⟩, ⟨hc, rfl⟩, ?_⟩
    rw [← hp, ← hline, ← hcolumn]

def toJson (i : Issue) : Json :=
  .obj [("path", .str i.path.text), ("message", .str i.message), ("line", .ofInt? i.line),
    ("column", .ofInt? i.column)]

def pathOfJson : Json → Checked Path
  | .string t =>
    match t.toString? with
    | some s => .ok (.ofString s)
    | none => .problem .notPath
  | _ => .problem .notPath

def ofJson (v : Json) : Checked Issue :=
  object ["path", "message", "line", "column"] v fun ms =>
    (fun path (message : SomeText) line column =>
        Issue.mk path message.1 (line.map (·.1)) (column.map (·.1)))
      <$> field ms "path" pathOfJson
      <*> field ms "message" someText
      <*> fieldOr ms "line" none (nullable (intFrom 1))
      <*> fieldOr ms "column" none (nullable (intFrom 1))

/-- The text of an issue: the path, the line if there is one, the column if there is a
    line, and the reason. -/
def text (i : Issue) : String :=
  let place := match i.line, i.column with
    | some l, some c => ":" ++ toString l ++ ":" ++ toString c
    | some l, none => ":" ++ toString l
    | none, _ => ""
  i.path.text ++ place ++ ": " ++ i.message

end Issue

end WorkflowCatalog
