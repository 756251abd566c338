/-
  WorkflowCatalog/Proofs/Journal.lean
  ===================================
  **A computation only adds to its journal.**  What a `Traced` computation ends in and
  what it records may not depend on what was recorded before (`Traced.Appends`).
  The computations of the library are put together from steps that keep this law, so
  their outcome can be computed part by part (`outcome_bind`), and a list of
  computations that are tried one after the other gives the outcome of each.
-/
import WorkflowCatalog.Failure

namespace WorkflowCatalog

/-! ### Results in sequence -/

section

variable {ε δ α β : Type}

theorem bind_eq_ok {x : Except ε α} {f : α → Except ε β} {b : β} :
    x.bind f = .ok b ↔ ∃ a, x = .ok a ∧ f a = .ok b := by
  cases x <;> simp [Except.bind]

theorem bind_eq_error {x : Except ε α} {f : α → Except ε β} {e : ε} :
    x.bind f = .error e ↔ x = .error e ∨ ∃ a, x = .ok a ∧ f a = .error e := by
  cases x <;> simp [Except.bind]

theorem mapError_eq_ok {x : Except ε α} {f : ε → δ} {a : α} :
    x.mapError f = .ok a ↔ x = .ok a := by
  cases x with
  | error e => exact ⟨nofun, nofun⟩
  | ok b =>
    change Except.ok b = .ok a ↔ _
    simp

theorem mapError_eq_error {x : Except ε α} {f : ε → δ} {d : δ} :
    x.mapError f = .error d ↔ ∃ e, x = .error e ∧ f e = d := by
  cases x with
  | error e =>
    change Except.error (f e) = .error d ↔ _
    simp
  | ok b =>
    change Except.ok b = .error d ↔ _
    simp

end

/-! ### Steps in sequence -/

section

variable {σ ε α β : Type}

/-- Running two steps runs the second, if there is one, from where the first has led. -/
theorem run_bind (x : ExceptT ε (StateM σ) α) (f : α → ExceptT ε (StateM σ) β) (s : σ) :
    (x >>= f).run.run s =
      match x.run.run s with
      | (.ok a, s') => (f a).run.run s'
      | (.error e, s') => (.error e, s') := by
  change ((x >>= f : ExceptT ε (StateM σ) β) : σ → _) s = _
  unfold ExceptT.run StateT.run
  simp only [bind, ExceptT.bind, ExceptT.mk, StateT.bind, ExceptT.bindCont]
  rcases x s with ⟨_ | _, _⟩ <;> rfl

/-- What catches an error goes on from where the error has left things. -/
theorem run_tryCatch (x : ExceptT ε (StateM σ) α) (f : ε → ExceptT ε (StateM σ) α) (s : σ) :
    (tryCatch x f).run.run s =
      match x.run.run s with
      | (.ok a, s') => (.ok a, s')
      | (.error e, s') => (f e).run.run s' := by
  change ((tryCatch x f : ExceptT ε (StateM σ) α) : σ → _) s = _
  unfold ExceptT.run StateT.run
  simp only [tryCatch, tryCatchThe, MonadExceptOf.tryCatch, ExceptT.tryCatch, ExceptT.mk, bind,
    StateT.bind]
  rcases x s with ⟨_ | _, _⟩ <;> rfl

end

namespace Traced

variable {ε δ α β : Type}

/-! ### Outcome and events -/

/-- What a computation ends in. -/
def outcome (t : Traced ε α) : Except ε α := t.runFresh.1

/-- What a computation records. -/
def events (t : Traced ε α) : List Log.Event := t.runFresh.2

/-- The outcome does not depend on the journal, and the journal is only added to. -/
def Appends (t : Traced ε α) : Prop :=
  ∀ journal, t.run.run journal = (t.outcome, journal ++ t.events)

/-! ### Single steps -/

theorem outcome_throw (e : ε) : (throw e : Traced ε α).outcome = .error e := rfl

theorem outcome_log (e : Log.Event) : (log e : Traced ε Unit).outcome = .ok () := rfl

theorem events_pure (a : α) : (pure a : Traced ε α).events = [] := rfl

theorem events_throw (e : ε) : (throw e : Traced ε α).events = [] := rfl

theorem appends_pure (a : α) : (pure a : Traced ε α).Appends := by
  intro journal
  rw [events_pure, List.append_nil]
  rfl

theorem appends_throw (e : ε) : (throw e : Traced ε α).Appends := by
  intro journal
  rw [events_throw, List.append_nil]
  rfl

theorem appends_log (e : Log.Event) : (log e : Traced ε Unit).Appends := fun _ => rfl

/-! ### Sequences -/

theorem outcome_bind {t : Traced ε α} {f : α → Traced ε β} (hf : ∀ a, (f a).Appends) :
    (t >>= f).outcome = t.outcome.bind fun a => (f a).outcome := by
  unfold outcome runFresh
  rw [run_bind]
  rcases t.run.run [] with ⟨_ | a, journal⟩
  · rfl
  · dsimp only
    rw [hf a journal]
    rfl

theorem events_bind {t : Traced ε α} {f : α → Traced ε β} (hf : ∀ a, (f a).Appends) :
    (t >>= f).events =
      t.events ++
        match t.outcome with
        | .ok a => (f a).events
        | .error _ => [] := by
  unfold outcome events runFresh
  rw [run_bind]
  rcases t.run.run [] with ⟨_ | a, journal⟩
  · exact (List.append_nil _).symm
  · dsimp only
    rw [hf a journal]
    rfl

theorem appends_bind {t : Traced ε α} {f : α → Traced ε β} (ht : t.Appends)
    (hf : ∀ a, (f a).Appends) : (t >>= f).Appends := by
  intro journal
  rw [run_bind, ht journal, outcome_bind hf, events_bind hf]
  cases ho : t.outcome with
  | error e => simp [Except.bind]
  | ok a =>
    dsimp only [Except.bind]
    rw [hf a, List.append_assoc]

theorem appends_foldlM {f : β → α → Traced ε β} (hf : ∀ b a, (f b a).Appends) (as : List α)
    (b : β) : (as.foldlM f b).Appends := by
  induction as generalizing b with
  | nil => exact appends_pure b
  | cons a as ih =>
    rw [List.foldlM_cons]
    exact appends_bind (hf b a) ih

/-- The outcome of a fold is the fold of the outcomes. -/
theorem outcome_foldlM {f : β → α → Traced ε β} (hf : ∀ b a, (f b a).Appends) (as : List α)
    (b : β) : (as.foldlM f b).outcome = as.foldlM (fun b a => (f b a).outcome) b := by
  induction as generalizing b with
  | nil => rfl
  | cons a as ih =>
    rw [List.foldlM_cons, List.foldlM_cons, outcome_bind (appends_foldlM hf as)]
    simp only [ih]
    rfl

theorem outcome_attempt (t : Traced ε α) :
    (attempt t : Traced δ (Except ε α)).outcome = .ok t.outcome := rfl

theorem appends_attempt {t : Traced ε α} (ht : t.Appends) :
    (attempt t : Traced δ (Except ε α)).Appends := by
  intro journal
  change ((Except.ok (t.run.run journal).1, (t.run.run journal).2) : Except δ _ × _) = _
  rw [ht journal]
  rfl

end Traced

/-! ### Runs -/

namespace Run

open Traced

variable {α : Type}

theorem appends_record (e : Error) : (e.record : Run Unit).Appends := by
  unfold Error.record
  split
  · exact appends_log _
  · exact appends_pure ()

theorem outcome_record (e : Error) : (e.record : Run Unit).outcome = .ok () := by
  unfold Error.record
  split <;> rfl

theorem appends_raise (e : Error) : (raise e : Run α).Appends :=
  appends_bind (appends_record e) fun _ => appends_throw _

theorem outcome_raise (e : Error) : (raise e : Run α).outcome = .error (.error e) := by
  unfold raise
  rw [outcome_bind fun _ => appends_throw _, outcome_record]
  rfl

theorem events_record (e : Error) : (e.record : Run Unit).events = e.event?.toList := by
  unfold Error.record
  cases e.event? <;> rfl

/-- An error records its detail, if it has any, and nothing else. -/
theorem events_raise (e : Error) : (raise e : Run α).events = e.event?.toList := by
  unfold raise
  rw [events_bind fun _ => appends_throw _, outcome_record, events_record]
  exact List.append_nil _

theorem appends_ofChecked (r : Except Validation.Mismatch α) : (ofChecked r).Appends := by
  cases r with
  | ok a => exact appends_pure a
  | error m => exact appends_throw _

theorem outcome_ofChecked (r : Except Validation.Mismatch α) :
    (ofChecked r).outcome = r.mapError .mismatch := by
  cases r <;> rfl

end Run

end WorkflowCatalog
