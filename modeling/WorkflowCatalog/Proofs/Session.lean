/-
  WorkflowCatalog/Proofs/Session.lean
  ===================================
  **How an operation ends.**  `EndsIn` tells the result of an operation and the file
  system that it leaves, whatever its journal holds.  The laws follow the way in which
  operations are put together.

  `Keeps` tells what is true of the file system after an operation if it was true before,
  however the operation ends.
-/
import WorkflowCatalog.Session
import WorkflowCatalog.Proofs.Journal

namespace WorkflowCatalog.Session

open FileSystem (Change Fault)

/-- An operation on a file system ends in a result and leaves another file system. -/
def EndsIn {α : Type} (x : Session α) (fs : FileSystem) (r : Except Failure α)
    (fs' : FileSystem) : Prop :=
  ∀ journal, ∃ journal', x.run.run ⟨fs, journal⟩ = (r, ⟨fs', journal'⟩)

variable {α β : Type} {fs fs' fs'' : FileSystem} {x : Session α} {f : α → Session β}

/-- An operation ends in one way. -/
theorem EndsIn.eq_of_run {r r' : Except Failure α} {journal journal' : List Log.Event}
    (h : EndsIn x fs r fs') (hrun : x.run.run ⟨fs, journal⟩ = (r', ⟨fs'', journal'⟩)) :
    r' = r ∧ fs'' = fs' := by
  obtain ⟨_, hrun'⟩ := h journal
  rw [hrun] at hrun'
  cases hrun'
  exact ⟨rfl, rfl⟩

/-! ### Sequences -/

theorem endsIn_pure (a : α) : EndsIn (pure a) fs (.ok a) fs := fun journal => ⟨journal, rfl⟩

theorem endsIn_throw (e : Failure) : EndsIn (throw e : Session α) fs (.error e) fs :=
  fun journal => ⟨journal, rfl⟩

theorem EndsIn.bind_ok {a : α} {r : Except Failure β} (hx : EndsIn x fs (.ok a) fs')
    (hf : EndsIn (f a) fs' r fs'') : EndsIn (x >>= f) fs r fs'' := by
  intro journal
  obtain ⟨journal', hrun⟩ := hx journal
  obtain ⟨journal'', hrest⟩ := hf journal'
  refine ⟨journal'', ?_⟩
  rw [run_bind, hrun]
  exact hrest

theorem EndsIn.bind_error {e : Failure} (hx : EndsIn x fs (.error e) fs') :
    EndsIn (x >>= f) fs (.error e) fs' := by
  intro journal
  obtain ⟨journal', hrun⟩ := hx journal
  refine ⟨journal', ?_⟩
  rw [run_bind, hrun]

/-- What is done in any case starts from where the first thing has led. -/
theorem EndsIn.finallyDo {r : Except Failure α} {afterwards : Session Unit}
    (hx : EndsIn x fs r fs') (hafter : EndsIn afterwards fs' (.ok ()) fs'') :
    EndsIn (finallyDo x afterwards) fs r fs'' := by
  intro journal
  obtain ⟨journal', hrun⟩ := hx journal
  obtain ⟨journal'', hrest⟩ := hafter journal'
  refine ⟨journal'', ?_⟩
  unfold Session.finallyDo
  unfold ExceptT.run StateT.run at hrun hrest ⊢
  dsimp only
  rw [hrun]
  dsimp only
  rw [hrest]

/-! ### Single operations -/

theorem endsIn_attempt {c : Change α} {r : Except Fault α} (h : c.run.run fs = (r, fs')) :
    EndsIn (attempt c) fs (.ok r) fs' := by
  intro journal
  refine ⟨journal, ?_⟩
  change ((Except.ok (c.run.run fs).1, ⟨(c.run.run fs).2, journal⟩) :
    Except Failure (Except Fault α) × World) = _
  rw [h]

theorem endsIn_change {c : Change α} {a : α} (h : c.run.run fs = (.ok a, fs')) :
    EndsIn (change c) fs (.ok a) fs' :=
  (endsIn_attempt h).bind_ok (endsIn_pure a)

theorem endsIn_change_error {c : Change α} {e : Fault} (h : c.run.run fs = (.error e, fs')) :
    EndsIn (change c) fs (.error (.fault e)) fs' :=
  (endsIn_attempt h).bind_ok (endsIn_throw (.fault e))

theorem endsIn_reading {r : FileSystem → Run α} (h : (r fs).Appends) :
    EndsIn (reading r) fs (r fs).outcome fs := by
  intro journal
  refine ⟨journal ++ (r fs).events, ?_⟩
  change ((((r fs).run.run journal).1, ⟨fs, ((r fs).run.run journal).2⟩) :
    Except Failure α × World) = _
  rw [h journal]

theorem endsIn_lift {r : Run α} (h : r.Appends) : EndsIn (lift r) fs r.outcome fs :=
  endsIn_reading (r := fun _ => r) h

theorem endsIn_raise (e : Error) : EndsIn (raise e : Session α) fs (.error (.error e)) fs := by
  have h : EndsIn (lift (Run.raise e : Run α)) fs (Run.raise e : Run α).outcome fs :=
    endsIn_lift (Run.appends_raise e)
  rw [Run.outcome_raise] at h
  exact h

section

variable {path : String} {text : Text.CodeText}

theorem endsIn_writeText {bytes : ByteArray} (htext : text.utf8? = some bytes)
    (h : (Change.write path bytes).run.run fs = (.ok (), fs')) :
    EndsIn (writeText path text) fs (.ok (.ok ())) fs' := by
  unfold writeText
  rw [htext]
  exact (endsIn_attempt h).bind_ok (endsIn_pure (Except.ok ()))

theorem endsIn_writeText_notEncodable (htext : text.utf8? = none)
    (h : (Change.write path .empty).run.run fs = (.ok (), fs')) :
    EndsIn (writeText path text) fs (.error .notEncodable) fs' := by
  unfold writeText
  rw [htext]
  exact (endsIn_attempt h).bind_ok (endsIn_throw .notEncodable)

theorem endsIn_writeText_fault {e : Fault}
    (h : (Change.write path (text.utf8?.getD .empty)).run.run fs = (.error e, fs')) :
    EndsIn (writeText path text) fs (.ok (.error e)) fs' :=
  (endsIn_attempt h).bind_ok (endsIn_pure (Except.error e))

end

/-! ### Runs that end well -/

section

variable {w w' : World} {a : α} {b : β}

theorem bind_run_ok : (x >>= f).run.run w = (.ok b, w') ↔
    ∃ a w₁, x.run.run w = (.ok a, w₁) ∧ (f a).run.run w₁ = (.ok b, w') := by
  rw [run_bind]
  rcases x.run.run w with ⟨e | a, w₁⟩
  · exact ⟨nofun, nofun⟩
  · constructor
    · intro h
      exact ⟨a, w₁, rfl, h⟩
    · rintro ⟨_, _, ⟨⟩, h⟩
      exact h

theorem raise_run_ne_ok (e : Error) : (raise e : Session α).run.run w ≠ (.ok a, w') := by
  have hend : EndsIn (raise e : Session α) w.fs (.error (.error e)) w.fs := endsIn_raise e
  obtain ⟨journal', hrun⟩ := hend w.journal
  change (raise e : Session α).run.run ⟨w.fs, w.journal⟩ ≠ _
  rw [hrun]
  nofun

theorem attempt_run (c : Change α) :
    (attempt c).run.run w = (.ok (c.run.run w.fs).1, { w with fs := (c.run.run w.fs).2 }) := rfl

theorem change_run_ok {c : Change α} (h : (change c).run.run w = (.ok a, w')) :
    c.run.run w.fs = (.ok a, w'.fs) := by
  obtain ⟨r, w₁, hattempt, hrest⟩ := bind_run_ok.1 h
  rw [attempt_run] at hattempt
  rcases hrun : c.run.run w.fs with ⟨e | a', fs'⟩ <;> rw [hrun] at hattempt <;> cases hattempt <;>
    cases hrest
  rfl

theorem reading_run_ok {r : FileSystem → Run α} (hr : (r w.fs).Appends)
    (h : (reading r).run.run w = (.ok a, w')) : (r w.fs).outcome = .ok a ∧ w'.fs = w.fs := by
  obtain ⟨journal', hrun⟩ := endsIn_reading hr w.journal
  change (reading r).run.run w = _ at hrun
  rw [h] at hrun
  obtain ⟨houtcome, rfl⟩ := Prod.mk.inj hrun
  exact ⟨houtcome.symm, rfl⟩

theorem finallyDo_run_ok {afterwards : Session Unit}
    (h : (finallyDo x afterwards).run.run w = (.ok a, w')) :
    ∃ w₁, x.run.run w = (.ok a, w₁) ∧ afterwards.run.run w₁ = (.ok (), w') := by
  unfold finallyDo at h
  unfold ExceptT.run StateT.run at h ⊢
  dsimp only at h
  rcases hx : x w with ⟨r, w₁⟩
  rw [hx] at h
  dsimp only at h
  rcases hafter : afterwards w₁ with ⟨e | _, w₂⟩ <;> rw [hafter] at h <;> cases h
  exact ⟨w₁, rfl, hafter⟩

theorem writeText_run_ok {path : String} {text : Text.CodeText} {r : Except Fault Unit}
    (h : (writeText path text).run.run w = (.ok r, w')) :
    (∃ f, r = .error f) ∨ ∃ bytes, text.utf8? = some bytes ∧
      (Change.write path bytes).run.run w.fs = (.ok (), w'.fs) ∧ r = .ok () := by
  obtain ⟨r', w₁, hattempt, hrest⟩ := bind_run_ok.1 h
  rw [attempt_run] at hattempt
  rcases hrun : (Change.write path (text.utf8?.getD .empty)).run.run w.fs with ⟨e | _, fs'⟩ <;>
    rw [hrun] at hattempt <;> cases hattempt
  · cases hrest
    exact .inl ⟨e, rfl⟩
  · rcases htext : text.utf8? with _ | bytes
    · rw [htext] at hrest
      cases hrest
    · rw [htext] at hrest hrun
      cases hrest
      exact .inr ⟨bytes, rfl, hrun, rfl⟩

end

/-! ### What is kept -/

/-- What is true of the file system stays true, however the operation ends. -/
def Keeps (P : FileSystem → Prop) (x : Session α) : Prop :=
  ∀ w : World, P w.fs → P (x.run.run w).2.fs

section

variable {P : FileSystem → Prop}

theorem Keeps.of_endsIn {r : Except Failure α} (h : Keeps P x) (hfs : P fs)
    (hend : EndsIn x fs r fs') : P fs' := by
  obtain ⟨journal', hrun⟩ := hend []
  have hkept := h ⟨fs, []⟩ hfs
  rwa [hrun] at hkept

theorem Keeps.of_run {w w' : World} {r : Except Failure α} (h : Keeps P x) (hw : P w.fs)
    (hrun : x.run.run w = (r, w')) : P w'.fs := by
  have hkept := h w hw
  rwa [hrun] at hkept

theorem keeps_reading (r : FileSystem → Run α) : Keeps P (reading r) := fun _ h => h

theorem keeps_raise (e : Error) : Keeps P (raise e : Session α) := keeps_reading _

theorem keeps_pure (a : α) : Keeps P (pure a : Session α) := fun _ h => h

theorem keeps_throw (f : Failure) : Keeps P (throw f : Session α) := fun _ h => h

/-- One operation after another, which may rely on how the first has ended. -/
theorem Keeps.bind (hx : Keeps P x)
    (hf : ∀ a, (∃ w w', x.run.run w = (.ok a, w')) → Keeps P (f a)) : Keeps P (x >>= f) := by
  intro w hw
  have hkept := hx w hw
  rw [run_bind]
  rcases hrun : x.run.run w with ⟨e | a, w'⟩
  · rw [hrun] at hkept
    exact hkept
  · rw [hrun] at hkept
    exact hf a ⟨w, w', hrun⟩ w' hkept

theorem keeps_attempt {c : Change α} (h : ∀ fs, P fs → P (c.run.run fs).2) :
    Keeps P (attempt c) := fun w hw => h w.fs hw

theorem keeps_change {c : Change α} (h : ∀ fs, P fs → P (c.run.run fs).2) :
    Keeps P (change c) := by
  refine (keeps_attempt h).bind fun r _ => ?_
  cases r with
  | ok a => exact keeps_pure a
  | error f => exact keeps_throw _

theorem keeps_writeText {path : String} {text : Text.CodeText}
    (h : ∀ bytes fs, P fs → P ((Change.write path bytes).run.run fs).2) :
    Keeps P (writeText path text) := by
  refine (keeps_attempt (h _)).bind fun r _ => ?_
  cases r with
  | ok u =>
    dsimp only
    split
    · exact keeps_pure _
    · exact keeps_throw _
  | error f => exact keeps_pure _

theorem keeps_forM {g : α → Session Unit} {as : List α} (h : ∀ a ∈ as, Keeps P (g a)) :
    Keeps P (as.forM g) := by
  induction as with
  | nil => exact keeps_pure ()
  | cons a as ih =>
    rw [List.forall_mem_cons] at h
    exact h.1.bind fun _ _ => ih h.2

theorem Keeps.finallyDo {afterwards : Session Unit} (hx : Keeps P x)
    (hafter : Keeps P afterwards) : Keeps P (finallyDo x afterwards) := by
  intro w hw
  have hkept := hafter (x.run.run w).2 (hx w hw)
  unfold Session.finallyDo
  unfold ExceptT.run StateT.run at hkept ⊢
  dsimp only
  rcases hfirst : x w with ⟨r, w₁⟩
  rw [hfirst] at hkept
  dsimp only at hkept ⊢
  rcases hafter : afterwards w₁ with ⟨e | _, w₂⟩ <;> rw [hafter] at hkept <;> exact hkept

end

end WorkflowCatalog.Session
