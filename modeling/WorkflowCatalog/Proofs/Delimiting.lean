/-
  WorkflowCatalog/Proofs/Delimiting.lean
  ======================================
  **A written value tells what it is and where it ends.**  A document may stand in the
  middle of another text.  Whatever comes behind it, it can be told apart from every
  other document and from what comes behind (`NumberFree.delimits`), so nothing that is
  written inside a string can pass for the end of it.

  The reason is the same at every level:

    * an escape is read back by its first characters (`readPoint?_escapePoint`) and never
      begins with a quote, so a string ends at the first quote that is met;
    * what a value begins with tells its kind (`head_pretty`);
    * between the items of a list stands a comma, and behind the last one a line end.

  Numbers are the exception: a digit behind a number would belong to it.  The values
  here are those without numbers (`NumberFree`).
-/
import WorkflowCatalog.Json.Reader
import WorkflowCatalog.Json.Writer

namespace WorkflowCatalog.Json

open Text (CodePoint CodeText ofChars)
open Decimal (natOfBase)

/-! ### Strings -/

/-- The code point that stands in front of a text inside a string, escapes resolved, and the
    text behind it. -/
def readPoint? : List CodePoint → Option (CodePoint × List CodePoint)
  | .char '\\' :: .char 'u' :: .char a :: .char b :: .char c :: .char d :: rest =>
    some (.char (Char.ofNat (natOfBase 16 [a, b, c, d])), rest)
  | .char '\\' :: .char c :: rest => (escapeLetter? c).map fun c => (.char c, rest)
  | p :: rest => some (p, rest)
  | [] => none

theorem natOfBase_hex4 : ∀ n < 0x20, natOfBase 16 (hex4 n) = n := by decide +kernel

/-- The ways in which a character stands in a string. -/
inductive StandsAs (c : Char) : List Char → Prop where
  | letter {l : Char} (h : escapeLetter? l = some c) : StandsAs c ['\\', l]
  | number (h : c.toNat < 0x20) : StandsAs c (unitEscape c.toNat)
  | itself (hquote : c ≠ '"') (hbackslash : c ≠ '\\') (hcontrol : ¬ c.toNat < 0x20) :
    StandsAs c [c]

theorem standsAs_escapeChar (c : Char) : StandsAs c (escapeChar c) := by
  unfold escapeChar
  -- seven characters have a letter
  split
  · subst c; exact .letter rfl
  split
  · subst c; exact .letter rfl
  split
  · subst c; exact .letter rfl
  split
  · subst c; exact .letter rfl
  split
  · subst c; exact .letter rfl
  split
  · subst c; exact .letter rfl
  split
  · subst c; exact .letter rfl
  split
  · exact .number ‹_›
  · exact .itself ‹_› ‹_› ‹_›

/-- What does not begin with a backslash is read as it stands. -/
theorem readPoint?_cons {p : CodePoint} (h : p ≠ .char '\\') (rest : List CodePoint) :
    readPoint? (p :: rest) = some (p, rest) := by
  unfold readPoint?
  split
  · rename_i heq
    exact absurd (List.cons.inj heq).1 h
  · rename_i heq
    exact absurd (List.cons.inj heq).1 h
  · rename_i heq
    cases heq
    rfl
  · rename_i heq
    cases heq

theorem readPoint?_letter {l c : Char} (h : escapeLetter? l = some c) (rest : List CodePoint) :
    readPoint? (.char '\\' :: .char l :: rest) = some (.char c, rest) := by
  unfold readPoint?
  split
  · rename_i heq
    cases heq
    cases h
  · rename_i heq
    cases heq
    rw [h]
    rfl
  · rename_i hother heq
    cases heq
    exact (hother l rest rfl rfl).elim
  · rename_i heq
    cases heq

/-- **An escape is read back**, whatever comes behind it. -/
theorem readPoint?_escapePoint (p : CodePoint) (rest : List CodePoint) :
    readPoint? (escapePoint p ++ rest) = some (p, rest) := by
  cases p with
  | half n =>
    have hbackslash : CodePoint.half n ≠ .char '\\' := nofun
    exact readPoint?_cons hbackslash rest
  | char c =>
    have hstands := standsAs_escapeChar c
    change readPoint? (ofChars (escapeChar c) ++ rest) = _
    generalize escapeChar c = w at hstands ⊢
    cases hstands with
    | letter hl => exact readPoint?_letter hl rest
    | number hcontrol =>
      change some (CodePoint.char (Char.ofNat (natOfBase 16 (hex4 c.toNat))), rest) = _
      rw [natOfBase_hex4 _ hcontrol, Char.ofNat_toNat]
    | itself _ hbackslash _ => exact readPoint?_cons (by simpa using hbackslash) rest

/-- No escape begins with a quote. -/
theorem head_escapePoint (p : CodePoint) (rest : List CodePoint) :
    (escapePoint p ++ rest).head? ≠ some (.char '"') := by
  intro h
  obtain ⟨tail, htail⟩ : ∃ tail, escapePoint p ++ rest = .char '"' :: tail :=
    List.head?_eq_some_iff.1 h
  have hread := readPoint?_escapePoint p rest
  rw [htail, readPoint?_cons (by decide)] at hread
  cases hread
  -- the point is a quote, and a quote is escaped
  cases htail

theorem escapes_append_inj {ps qs r s : List CodePoint}
    (h : ps.flatMap escapePoint ++ .char '"' :: r = qs.flatMap escapePoint ++ .char '"' :: s) :
    ps = qs ∧ r = s := by
  induction ps generalizing qs with
  | nil =>
    cases qs with
    | nil => exact ⟨rfl, (List.cons.inj h).2⟩
    | cons q qs =>
      rw [List.flatMap_cons, List.append_assoc] at h
      exact absurd (by rw [← h]; rfl) (head_escapePoint q _)
  | cons p ps ih =>
    rw [List.flatMap_cons, List.append_assoc] at h
    cases qs with
    | nil => exact absurd (by rw [h]; rfl) (head_escapePoint p _)
    | cons q qs =>
      rw [List.flatMap_cons, List.append_assoc] at h
      have hread := congrArg readPoint? h
      rw [readPoint?_escapePoint, readPoint?_escapePoint, Option.some.injEq, Prod.mk.injEq] at hread
      obtain ⟨rfl, hrest⟩ := hread
      obtain ⟨rfl, hr⟩ := ih hrest
      exact ⟨rfl, hr⟩

/-- **A string ends at its closing quote**, and what stands in it is what was written. -/
theorem quoted_append_inj {t u : CodeText} {r s : List CodePoint}
    (h : quoted t ++ r = quoted u ++ s) : t = u ∧ r = s := by
  have hinner : t.points.flatMap escapePoint ++ .char '"' :: r =
      u.points.flatMap escapePoint ++ .char '"' :: s := by
    simpa [quoted] using h
  obtain ⟨hpoints, hr⟩ := escapes_append_inj hinner
  obtain ⟨ps⟩ := t
  obtain ⟨qs⟩ := u
  cases hpoints
  exact ⟨rfl, hr⟩

/-! ### Values without numbers -/

inductive NumberFree : Json → Prop where
  | null : NumberFree .null
  | bool (b : Bool) : NumberFree (.bool b)
  | string (t : CodeText) : NumberFree (.string t)
  | arr {items : List Json} (h : ∀ v ∈ items, NumberFree v) : NumberFree (.arr items)
  | obj {members : List (String × Json)} (h : ∀ m ∈ members, NumberFree m.2) :
    NumberFree (.obj members)

/-- The first character of a value without numbers. -/
def firstChar : Json → Char
  | .null => 'n'
  | .bool true => 't'
  | .bool false => 'f'
  | .string _ => '"'
  | .arr _ => '['
  | .obj _ => '{'
  | _ => '0'

theorem head_pretty {level : Nat} {v : Json} (h : NumberFree v) (r : List CodePoint) :
    (pretty level v ++ r).head? = some (.char (firstChar v)) := by
  cases h with
  | null => rfl
  | bool b => cases b <;> rfl
  | string t => rfl
  | @arr items => cases items <;> rfl
  | @obj members => cases members <;> rfl

/-- What a value begins with is what an equal text begins with. -/
theorem firstChar_eq {level : Nat} {v w : Json} {r s : List CodePoint} (hv : NumberFree v)
    (hw : NumberFree w) (h : pretty level v ++ r = pretty level w ++ s) :
    firstChar v = firstChar w := by
  have hhead : (pretty level v ++ r).head? = some (.char (firstChar v)) := head_pretty hv r
  rw [h, head_pretty hw s] at hhead
  simpa using hhead.symm

/-- The written form of a value at a level tells the value and where it ends. -/
def Delimits (level : Nat) (v : Json) : Prop :=
  ∀ w r s, NumberFree w → pretty level v ++ r = pretty level w ++ s → v = w ∧ r = s

/-- The items behind the first end where no comma follows. -/
theorem prettyItems_append_inj {level : Nat} {xs ys : List Json} {r s : List CodePoint}
    (hxs : ∀ x ∈ xs, Delimits level x) (hys : ∀ y ∈ ys, NumberFree y)
    (hr : r.head? ≠ some (.char ',')) (hs : s.head? ≠ some (.char ','))
    (h : prettyItems level xs ++ r = prettyItems level ys ++ s) : xs = ys ∧ r = s := by
  induction xs generalizing ys with
  | nil =>
    cases ys with
    | nil => exact ⟨rfl, h⟩
    | cons y ys => exact absurd (by rw [show r = _ from h]; rfl) hr
  | cons x xs ih =>
    cases ys with
    | nil => exact absurd (by rw [show s = _ from h.symm]; rfl) hs
    | cons y ys =>
      rw [List.forall_mem_cons] at hxs hys
      simp only [prettyItems, List.append_assoc, List.cons_append, List.cons.injEq, true_and,
        List.append_cancel_left_eq] at h
      obtain ⟨rfl, hitems⟩ := hxs.1 y _ _ hys.1 h
      obtain ⟨rfl, hend⟩ := ih hxs.2 hys.2 hitems
      exact ⟨rfl, hend⟩

/-- The members behind the first end where no comma follows. -/
theorem prettyMembers_append_inj {level : Nat} {ms ns : List (String × Json)}
    {r s : List CodePoint} (hms : ∀ m ∈ ms, Delimits level m.2)
    (hns : ∀ n ∈ ns, NumberFree n.2) (hr : r.head? ≠ some (.char ','))
    (hs : s.head? ≠ some (.char ','))
    (h : prettyMembers level ms ++ r = prettyMembers level ns ++ s) : ms = ns ∧ r = s := by
  induction ms generalizing ns with
  | nil =>
    cases ns with
    | nil => exact ⟨rfl, h⟩
    | cons n ns => exact absurd (by rw [show r = _ from h]; rfl) hr
  | cons m ms ih =>
    cases ns with
    | nil => exact absurd (by rw [show s = _ from h.symm]; rfl) hs
    | cons n ns =>
      rw [List.forall_mem_cons] at hms hns
      obtain ⟨k, v⟩ := m
      obtain ⟨l, w⟩ := n
      simp only [prettyMembers, List.append_assoc, List.cons_append, List.cons.injEq, true_and,
        List.append_cancel_left_eq] at h
      obtain ⟨hkey, hvalue⟩ := quoted_append_inj h
      rw [List.append_cancel_left_eq] at hvalue
      obtain ⟨rfl, hmembers⟩ := hms.1 w _ _ hns.1 hvalue
      obtain ⟨rfl, hend⟩ := ih hms.2 hns.2 hmembers
      exact ⟨by rw [CodeText.ofString_inj hkey], hend⟩

theorem head_newLine (level : Nat) (r : List CodePoint) :
    (newLine level ++ r).head? ≠ some (.char ',') := by
  change some (CodePoint.char '\n') ≠ some (.char ',')
  decide

/-- A list ends at its closing bracket. -/
theorem delimits_arr {level : Nat} {items : List Json} (hitems : ∀ x ∈ items, NumberFree x)
    (h : ∀ x ∈ items, Delimits (level + 1) x) : Delimits level (.arr items) := by
  intro w r s hw heq
  have hfirst := firstChar_eq (.arr hitems) hw heq
  cases hw with
  | @arr others hothers =>
    cases items with
    | nil =>
      cases others with
      | nil => exact ⟨rfl, List.append_cancel_left heq⟩
      | cons y ys => simp [pretty, newLine, ofChars] at heq
    | cons x xs =>
      cases others with
      | nil => simp [pretty, newLine, ofChars] at heq
      | cons y ys =>
        rw [List.forall_mem_cons] at h hothers
        simp only [pretty, List.append_assoc, List.cons_append, List.cons.injEq, true_and,
          List.append_cancel_left_eq] at heq
        obtain ⟨rfl, htail⟩ := h.1 y _ _ hothers.1 heq
        -- behind the last item stands a line end, so no comma
        obtain ⟨rfl, hend⟩ :=
          prettyItems_append_inj h.2 hothers.2 (head_newLine _ _) (head_newLine _ _) htail
        exact ⟨rfl, (List.cons.inj (List.append_cancel_left hend)).2⟩
  | bool b => cases b <;> cases hfirst
  | null | string | obj => cases hfirst

/-- An object ends at its closing brace. -/
theorem delimits_obj {level : Nat} {members : List (String × Json)}
    (hmembers : ∀ m ∈ members, NumberFree m.2)
    (h : ∀ m ∈ members, Delimits (level + 1) m.2) : Delimits level (.obj members) := by
  intro w r s hw heq
  have hfirst := firstChar_eq (.obj hmembers) hw heq
  cases hw with
  | @obj others hothers =>
    cases members with
    | nil =>
      cases others with
      | nil => exact ⟨rfl, List.append_cancel_left heq⟩
      | cons n ns => simp [pretty, newLine, ofChars] at heq
    | cons m ms =>
      cases others with
      | nil => simp [pretty, newLine, ofChars] at heq
      | cons n ns =>
        rw [List.forall_mem_cons] at h hothers
        obtain ⟨k, v⟩ := m
        obtain ⟨l, w⟩ := n
        simp only [pretty, List.append_assoc, List.cons_append, List.cons.injEq, true_and,
          List.append_cancel_left_eq] at heq
        obtain ⟨hkey, hvalue⟩ := quoted_append_inj heq
        rw [List.append_cancel_left_eq] at hvalue
        obtain ⟨rfl, htail⟩ := h.1 w _ _ hothers.1 hvalue
        obtain ⟨rfl, hend⟩ :=
          prettyMembers_append_inj h.2 hothers.2 (head_newLine _ _) (head_newLine _ _) htail
        exact ⟨by rw [CodeText.ofString_inj hkey], (List.cons.inj (List.append_cancel_left hend)).2⟩
  | bool b => cases b <;> cases hfirst
  | null | string | arr => cases hfirst

/-- **The text of a value without numbers ends where the value does.** -/
theorem NumberFree.delimits {v : Json} (hv : NumberFree v) (level : Nat) : Delimits level v := by
  induction hv generalizing level with
  | null =>
    intro w r s hw heq
    have hfirst := firstChar_eq .null hw heq
    cases hw with
    | null => exact ⟨rfl, List.append_cancel_left heq⟩
    | bool b => cases b <;> cases hfirst
    | string | arr | obj => cases hfirst
  | bool b =>
    intro w r s hw heq
    have hfirst := firstChar_eq (.bool b) hw heq
    cases hw with
    | bool b' =>
      obtain rfl : b = b' := by
        cases b <;> cases b' <;> first | rfl | cases hfirst
      exact ⟨rfl, List.append_cancel_left heq⟩
    | null | string | arr | obj => cases b <;> cases hfirst
  | string t =>
    intro w r s hw heq
    have hfirst := firstChar_eq (.string t) hw heq
    cases hw with
    | string u =>
      obtain ⟨rfl, hend⟩ := quoted_append_inj heq
      exact ⟨rfl, hend⟩
    | bool b => cases b <;> cases hfirst
    | null | arr | obj => cases hfirst
  | arr hitems ih => exact delimits_arr hitems fun x hx => ih x hx (level + 1)
  | obj hmembers ih => exact delimits_obj hmembers fun m hm => ih m hm (level + 1)

end WorkflowCatalog.Json
