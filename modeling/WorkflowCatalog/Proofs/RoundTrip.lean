/-
  WorkflowCatalog/Proofs/RoundTrip.lean
  =====================================
  **A document is read back as the value it was written for.**  The document of a plain
  value is one text of the grammar with one line end behind it, and the reader gives the
  value again, its keys in their order (`document_reads`).

  A value is read at the front of a text, so the invariant speaks of what stands behind it
  (`IsReadBack`): numbers are the only values that do not tell where they end, and nothing
  that could belong to one stands there.  The fuel of a call is measured by the text that
  is read.  Of a container there is enough for its items, because each of them is parted
  from the next by characters of its own.
-/
import WorkflowCatalog.Proofs.JsonGrammar
import WorkflowCatalog.Proofs.SchemaMeaning
import Mathlib.Data.List.TakeWhile

namespace WorkflowCatalog.Json

open Text (CodePoint CodeText ofChars isAsciiDigit)
open Text.CodeText
open Decimal (natOfDigits natOfBase isDigitOf)

variable {fuel level : Nat} {rest : List Char}

/-! ### Strings -/

theorem readString?_letter {l c : Char} (h : escapeLetter? l = some c) :
    readString? (fuel + 1) ('\\' :: l :: rest) =
      (readString? fuel rest).map fun p => (c :: p.1, p.2) := by
  have hl : l ≠ 'u' := by
    rintro rfl
    cases h
  cases hread : readString? fuel rest <;> simp [readString?, h, hread]

theorem readUnit?_hex4 : ∀ n < 0x20, ∀ rest, readUnit? (hex4 n ++ rest) = some (n, rest) := by
  intro n hn rest
  have hdigits : ∀ n < 0x20, (hex4 n).all (isDigitOf 16) = true := by decide
  change (if (hex4 n).all (isDigitOf 16) then some (natOfBase 16 (hex4 n), rest) else none) = _
  rw [if_pos (hdigits n hn), natOfBase_hex4 n hn]

theorem readString?_number {n : Nat} (h : n < 0x20) :
    readString? (fuel + 1) (unitEscape n ++ rest) =
      (readString? fuel rest).map fun p => (Char.ofNat n :: p.1, p.2) := by
  change readString? (fuel + 1) ('\\' :: 'u' :: (hex4 n ++ rest)) = _
  have hhalf : ¬ (0xd800 ≤ n ∧ n < 0xdc00) := by omega
  cases hread : readString? fuel rest <;>
    simp [readString?, readUnit?_hex4 n h, hhalf, hread]

theorem readString?_plain {c : Char} (hquote : c ≠ '"') (hbackslash : c ≠ '\\')
    (hcontrol : ¬ c.toNat < 0x20) :
    readString? (fuel + 1) (c :: rest) =
      (readString? fuel rest).map fun p => (c :: p.1, p.2) := by
  cases hread : readString? fuel rest <;> simp [readString?, hbackslash, hcontrol, hread]

/-- **What stands for a character is read as this character.** -/
theorem StandsAs.isRead {c : Char} {w : List Char} (h : StandsAs c w) :
    readString? (fuel + 1) (w ++ rest) = (readString? fuel rest).map fun p => (c :: p.1, p.2) := by
  cases h with
  | letter hl => exact readString?_letter hl
  | number hcontrol => rw [readString?_number hcontrol, Char.ofNat_toNat]
  | itself hquote hbackslash hcontrol => exact readString?_plain hquote hbackslash hcontrol

theorem StandsAs.ne_nil {c : Char} {w : List Char} (h : StandsAs c w) : w ≠ [] := by
  cases h <;> exact List.cons_ne_nil _ _

/-- A string ends at its closing quote. -/
theorem readString?_escapes (cs : List Char) (h : (cs.flatMap escapeChar).length < fuel) :
    readString? fuel (cs.flatMap escapeChar ++ '"' :: rest) = some (cs, rest) := by
  obtain ⟨fuel, rfl⟩ := Nat.exists_eq_add_one_of_ne_zero (Nat.ne_of_gt (Nat.zero_lt_of_lt h))
  induction cs generalizing fuel with
  | nil => rfl
  | cons c cs ih =>
    have hstands := standsAs_escapeChar c
    have hpos : 0 < (escapeChar c).length := List.length_pos_iff.2 hstands.ne_nil
    rw [List.flatMap_cons, List.length_append] at h
    obtain ⟨fuel, rfl⟩ : ∃ f, fuel = f + 1 := Nat.exists_eq_add_one_of_ne_zero (by omega)
    rw [List.flatMap_cons, List.append_assoc, hstands.isRead, ih fuel (by omega)]
    rfl

theorem writtenString_append (s : String) (cs : List Char) :
    writtenString s ++ cs = '"' :: (s.toList.flatMap escapeChar ++ '"' :: cs) := by
  rw [writtenString, List.cons_append, List.append_assoc, List.singleton_append]

/-- The fuel that is given for a string is enough. -/
theorem readString?_written (s : String) (cs : List Char) :
    readString? ((s.toList.flatMap escapeChar ++ '"' :: cs).length + 1)
      (s.toList.flatMap escapeChar ++ '"' :: cs) = some (s.toList, cs) := by
  apply readString?_escapes
  rw [List.length_append]
  omega

/-! ### Numbers -/

theorem Grammar.IsWhole.digits_of {ds : List Char} (h : Grammar.IsWhole ds) :
    ∀ d ∈ ds, isAsciiDigit d = true := by
  cases h with
  | zero => exact List.forall_mem_singleton.2 rfl
  | digits hc _ hcs => exact List.forall_mem_cons.2 ⟨hc, hcs⟩

theorem Grammar.IsWhole.not_needless {ds : List Char} (h : Grammar.IsWhole ds) :
    (ds.isEmpty || (ds.head? == some '0' && 1 < ds.length)) = false := by
  cases h with
  | zero => decide
  | digits _ hne _ => simp [hne]

/-- Digits without a needless zero are read as a number, with the sign in front of them. -/
theorem readNumber?_whole {ds : List Char} (h : Grammar.IsWhole ds) :
    readNumber? ds = some (.int (natOfDigits ds)) ∧
      readNumber? ('-' :: ds) = some (.int (-natOfDigits ds)) := by
  have htake : ds.takeWhile isAsciiDigit = ds := List.takeWhile_eq_self_iff.2 h.digits_of
  have hminus : ∀ r, ds ≠ '-' :: r := by
    rintro r rfl
    exact absurd (h.digits_of '-' List.mem_cons_self) (by decide)
  constructor
  · simp [readNumber?, htake, h.not_needless]
  · simp [readNumber?, htake, h.not_needless]

/-- **An integer is read back.** -/
theorem readNumber?_intText (n : Int) : readNumber? (intText n) = some (.int n) := by
  obtain ⟨hpos, hneg⟩ := readNumber?_whole (isWhole_toDigits n.natAbs)
  have hvalue : natOfDigits (Nat.toDigits 10 n.natAbs) = n.natAbs := Nat.ofDigitChars_ten_toDigits
  unfold intText
  split
  · rw [hneg, hvalue]
    congr
    omega
  · rw [hpos, hvalue]
    congr
    omega

/-! ### Blanks -/

theorem skipSpace_cons {c : Char} (h : isSpace c = false) (cs : List Char) :
    skipSpace (c :: cs) = c :: cs := List.dropWhile_cons_of_neg (by rw [h]; decide)

theorem skipSpace_lineStart (level : Nat) (cs : List Char) :
    skipSpace (lineStart level ++ cs) = skipSpace cs := by
  refine List.dropWhile_append_of_pos fun c hc => ?_
  rcases List.mem_cons.1 hc with rfl | hc
  · rfl
  · rw [List.eq_of_mem_replicate hc]
    rfl

/-- Blanks in front of a value do not count. -/
theorem readValue?_congr {cs ds : List Char} (h : skipSpace cs = skipSpace ds) :
    readValue? fuel cs = readValue? fuel ds := by
  cases fuel with
  | zero => rfl
  | succ fuel => rw [readValue?, readValue?, h]

theorem readItems?_congr {cs ds : List Char} (h : skipSpace cs = skipSpace ds) :
    readItems? fuel cs = readItems? fuel ds := by
  cases fuel with
  | zero => rfl
  | succ fuel => rw [readItems?, readItems?, readValue?_congr h]

theorem readMembers?_congr {cs ds : List Char} (h : skipSpace cs = skipSpace ds) :
    readMembers? fuel cs = readMembers? fuel ds := by
  cases fuel with
  | zero => rfl
  | succ fuel => rw [readMembers?, readMembers?, h]

/-! ### Single steps of the reader -/

theorem readValue?_string (s : String) :
    readValue? (fuel + 1) (writtenString s ++ rest) = some (str s, rest) := by
  rw [writtenString_append, readValue?, skipSpace_cons rfl]
  simp only [readString?_written]
  simp

theorem readValue?_emptyArray :
    readValue? (fuel + 1) ('[' :: ']' :: rest) = some (.arr [], rest) := by
  rw [readValue?, skipSpace_cons rfl]
  simp [skipSpace_cons (c := ']') rfl]

theorem readValue?_array {c : Char} {cs : List Char} {items : List Json}
    (hspace : isSpace c = false) (hc : c ≠ ']')
    (h : readItems? fuel (c :: cs) = some (items, rest)) :
    readValue? (fuel + 1) ('[' :: (lineStart level ++ c :: cs)) = some (.arr items, rest) := by
  rw [readValue?, skipSpace_cons rfl]
  simp only [skipSpace_lineStart, skipSpace_cons hspace]
  split
  · rename_i heq
    exact absurd (List.cons.inj heq).1 hc
  · simp [h]

theorem readValue?_emptyObject :
    readValue? (fuel + 1) ('{' :: '}' :: rest) = some (.obj [], rest) := by
  rw [readValue?, skipSpace_cons rfl]
  simp [skipSpace_cons (c := '}') rfl]

theorem readValue?_object {k : String} {cs : List Char} {members : List (String × Json)}
    (h : readMembers? fuel (writtenString k ++ cs) = some (members, rest)) :
    readValue? (fuel + 1) ('{' :: (lineStart level ++ (writtenString k ++ cs))) =
      some (.obj (ofAssignments members), rest) := by
  rw [writtenString_append] at h ⊢
  rw [readValue?, skipSpace_cons rfl]
  simp [skipSpace_lineStart, skipSpace_cons (c := '"') rfl, h]

/-- A text that begins with no quote and no bracket is a word, or a number. -/
theorem readValue?_other {c : Char} {cs : List Char} (hspace : isSpace c = false)
    (hc : c ∉ ['"', '[', '{']) :
    readValue? (fuel + 1) (c :: cs) = (readWord? (c :: cs)).or
      ((readNumber? ((c :: cs).takeWhile isNumberChar)).map fun v =>
        (v, (c :: cs).dropWhile isNumberChar)) := by
  have hne : c ≠ '"' ∧ c ≠ '[' ∧ c ≠ '{' := by
    simpa only [List.mem_cons, List.not_mem_nil, or_false, not_or] using hc
  rw [readValue?, skipSpace_cons hspace]
  split
  · rename_i heq
    exact absurd (List.cons.inj heq).1 hne.1
  · rename_i heq
    exact absurd (List.cons.inj heq).1 hne.2.1
  · rename_i heq
    exact absurd (List.cons.inj heq).1 hne.2.2
  · cases readWord? (c :: cs) with
    | some r => rfl
    | none => cases readNumber? ((c :: cs).takeWhile isNumberChar) <;> rfl

theorem readItems?_last {cs : List Char} {v : Json}
    (h : readValue? fuel cs = some (v, lineStart level ++ ']' :: rest)) :
    readItems? (fuel + 1) cs = some ([v], rest) := by
  simp [readItems?, h, skipSpace_lineStart, skipSpace_cons (c := ']') rfl]

theorem readItems?_more {cs ds : List Char} {v : Json} {vs : List Json}
    (h : readValue? fuel cs = some (v, ',' :: ds)) (hmore : readItems? fuel ds = some (vs, rest)) :
    readItems? (fuel + 1) cs = some (v :: vs, rest) := by
  simp [readItems?, h, hmore, skipSpace_cons (c := ',') rfl]

section

variable {cs ds : List Char} {v : Json} (k : String)

theorem readMembers?_last (h : readValue? fuel cs = some (v, lineStart level ++ '}' :: rest)) :
    readMembers? (fuel + 1) (writtenString k ++ (':' :: ' ' :: cs)) = some ([(k, v)], rest) := by
  have hvalue : readValue? fuel (' ' :: cs) = readValue? fuel cs := readValue?_congr rfl
  rw [writtenString_append, readMembers?, skipSpace_cons rfl]
  simp only [readString?_written]
  simp [hvalue, h, skipSpace_lineStart, skipSpace_cons (c := ':') rfl,
    skipSpace_cons (c := '}') rfl]

theorem readMembers?_more {ms : List (String × Json)}
    (h : readValue? fuel cs = some (v, ',' :: ds))
    (hmore : readMembers? fuel ds = some (ms, rest)) :
    readMembers? (fuel + 1) (writtenString k ++ (':' :: ' ' :: cs)) =
      some ((k, v) :: ms, rest) := by
  have hvalue : readValue? fuel (' ' :: cs) = readValue? fuel cs := readValue?_congr rfl
  rw [writtenString_append, readMembers?, skipSpace_cons rfl]
  simp only [readString?_written]
  simp [hvalue, h, hmore, skipSpace_cons (c := ':') rfl, skipSpace_cons (c := ',') rfl]

end

/-! ### Words and numbers -/

theorem readValue?_null :
    readValue? (fuel + 1) ('n' :: 'u' :: 'l' :: 'l' :: rest) = some (.null, rest) :=
  readValue?_other rfl (by decide)

theorem readValue?_true :
    readValue? (fuel + 1) ('t' :: 'r' :: 'u' :: 'e' :: rest) = some (.bool true, rest) :=
  readValue?_other rfl (by decide)

theorem readValue?_false :
    readValue? (fuel + 1) ('f' :: 'a' :: 'l' :: 's' :: 'e' :: rest) = some (.bool false, rest) :=
  readValue?_other rfl (by decide)

/-- A text that begins with a digit is no word. -/
theorem readWord?_digit {c : Char} (hc : isAsciiDigit c = true) (cs : List Char) :
    readWord? (c :: cs) = none ∧ readWord? ('-' :: c :: cs) = none := by
  have hne : ∀ d, isAsciiDigit d = false → d ≠ c := by
    rintro d hd rfl
    rw [hc] at hd
    cases hd
  constructor
  · simp [readWord?, words, dropWord?, hne 'n' rfl, hne 't' rfl, hne 'f' rfl, hne 'N' rfl,
      hne 'I' rfl, hne '-' rfl]
  · simp [readWord?, words, dropWord?, hne 'I' rfl]

theorem isNumberChar_of_mem_intText {n : Int} {c : Char} (h : c ∈ intText n) :
    isNumberChar c = true := by
  have hdigit : ∀ d ∈ Nat.toDigits 10 n.natAbs, isNumberChar d = true := by
    intro d hd
    simp [isNumberChar, isAsciiDigit_of_mem_toDigits hd]
  unfold intText at h
  split at h
  · rcases List.mem_cons.1 h with rfl | h
    · rfl
    · exact hdigit c h
  · exact hdigit c h

/-- A number is no word, whatever stands behind it. -/
theorem readWord?_intText (n : Int) : readWord? (intText n ++ rest) = none := by
  obtain ⟨d, ds, hds⟩ := List.exists_cons_of_ne_nil (Nat.toDigits_ne_nil (n := n.natAbs) (b := 10))
  have hd : isAsciiDigit d = true := isAsciiDigit_of_mem_toDigits (hds ▸ List.mem_cons_self)
  unfold intText
  rw [hds]
  split
  · exact (readWord?_digit hd (ds ++ rest)).2
  · exact (readWord?_digit hd (ds ++ rest)).1

theorem isNumberChar_ne {c d : Char} (hc : isNumberChar c = true) (hd : isNumberChar d = false) :
    c ≠ d := by
  rintro rfl
  rw [hc] at hd
  cases hd

theorem isSpace_of_isNumberChar {c : Char} (hc : isNumberChar c = true) : isSpace c = false := by
  have hne : c ≠ ' ' ∧ c ≠ '\n' ∧ c ≠ '\r' ∧ c ≠ '\t' :=
    ⟨isNumberChar_ne hc rfl, isNumberChar_ne hc rfl, isNumberChar_ne hc rfl, isNumberChar_ne hc rfl⟩
  simp [isSpace, hne]

theorem intText_eq_cons (n : Int) : ∃ c cs, intText n = c :: cs ∧ isNumberChar c = true := by
  have hne : intText n ≠ [] := by
    unfold intText
    split
    · exact List.cons_ne_nil _ _
    · exact Nat.toDigits_ne_nil
  obtain ⟨c, cs, hcs⟩ := List.exists_cons_of_ne_nil hne
  exact ⟨c, cs, hcs, isNumberChar_of_mem_intText (hcs ▸ List.mem_cons_self)⟩

/-- What a number cannot go on with. -/
def EndsNumber (rest : List Char) : Prop := ∀ c ∈ rest.head?, isNumberChar c = false

theorem EndsNumber.takeWhile (h : EndsNumber rest) : rest.takeWhile isNumberChar = [] := by
  cases rest with
  | nil => rfl
  | cons c cs => exact List.takeWhile_cons_of_neg (by rw [h c rfl]; decide)

theorem EndsNumber.dropWhile (h : EndsNumber rest) : rest.dropWhile isNumberChar = rest := by
  cases rest with
  | nil => rfl
  | cons c cs => exact List.dropWhile_cons_of_neg (by rw [h c rfl]; decide)

theorem readValue?_int {n : Int} (hrest : EndsNumber rest) :
    readValue? (fuel + 1) (intText n ++ rest) = some (.int n, rest) := by
  have hnumber : ∀ c ∈ intText n, isNumberChar c = true := fun _ h => isNumberChar_of_mem_intText h
  have htake : (intText n ++ rest).takeWhile isNumberChar = intText n := by
    rw [List.takeWhile_append_of_pos hnumber, hrest.takeWhile, List.append_nil]
  have hdrop : (intText n ++ rest).dropWhile isNumberChar = rest := by
    rw [List.dropWhile_append_of_pos hnumber, hrest.dropWhile]
  have hword : readWord? (intText n ++ rest) = none := readWord?_intText n
  obtain ⟨c, cs, hcs, hc⟩ := intText_eq_cons n
  have hother : c ∉ ['"', '[', '{'] := by
    simp only [List.mem_cons, List.not_mem_nil, or_false, not_or]
    exact ⟨isNumberChar_ne hc rfl, isNumberChar_ne hc rfl, isNumberChar_ne hc rfl⟩
  have hread : readValue? (fuel + 1) (c :: (cs ++ rest)) = _ :=
    readValue?_other (isSpace_of_isNumberChar hc) hother
  rw [← List.cons_append, ← hcs, hword, htake, hdrop, readNumber?_intText] at hread
  exact hread

/-! ### Values -/

/-- A value is read back at a level, in front of everything that it can be told from. -/
def IsReadBack (level : Nat) (v : Json) : Prop :=
  ∀ fuel rest, (written level v).length ≤ fuel → EndsNumber rest →
    readValue? fuel (written level v ++ rest) = some (v, rest)

theorem endsNumber_lineStart : EndsNumber (lineStart level ++ rest) := by
  rintro c hc
  cases hc
  rfl

theorem endsNumber_writtenItems (level stop : Nat) (xs : List Json) :
    EndsNumber (writtenItems level xs ++ (lineStart stop ++ rest)) := by
  cases xs with
  | nil => exact endsNumber_lineStart
  | cons x xs =>
    rw [writtenItems_cons]
    rintro c hc
    cases hc
    rfl

theorem endsNumber_writtenMembers (level stop : Nat) (ms : List (String × Json)) :
    EndsNumber (writtenMembers level ms ++ (lineStart stop ++ rest)) := by
  cases ms with
  | nil => exact endsNumber_lineStart
  | cons m ms =>
    rw [writtenMembers_cons]
    rintro c hc
    cases hc
    rfl

/-- No value begins with a blank, or with the end of a list. -/
theorem written_eq_cons (level : Nat) {v : Json} (hv : IsPlain v) :
    ∃ c cs, written level v = c :: cs ∧ isSpace c = false ∧ c ≠ ']' := by
  cases hv with
  | null => exact ⟨'n', _, rfl, rfl, by decide⟩
  | bool b =>
    cases b with
    | false => exact ⟨'f', _, rfl, rfl, by decide⟩
    | true => exact ⟨'t', _, rfl, rfl, by decide⟩
  | int n =>
    obtain ⟨c, cs, hcs, hc⟩ := intText_eq_cons n
    exact ⟨c, cs, by rw [written_int, hcs], isSpace_of_isNumberChar hc, isNumberChar_ne hc rfl⟩
  | string s => exact ⟨'"', _, rfl, rfl, by decide⟩
  | @arr items =>
    cases items with
    | nil => exact ⟨'[', _, rfl, rfl, by decide⟩
    | cons x xs => exact ⟨'[', _, written_arr .., rfl, by decide⟩
  | @obj members =>
    cases members with
    | nil => exact ⟨'{', _, rfl, rfl, by decide⟩
    | cons m ms => exact ⟨'{', _, written_obj .., rfl, by decide⟩

/-- The items of an array are read up to its end. -/
theorem readItems?_written (fuel : Nat) {x : Json} {xs : List Json}
    (h : ∀ y ∈ x :: xs, IsReadBack level y)
    (hfuel : (written level x).length + (writtenItems level xs).length < fuel) (stop : Nat)
    (rest : List Char) :
    readItems? fuel (written level x ++
      (writtenItems level xs ++ (lineStart stop ++ ']' :: rest))) = some (x :: xs, rest) := by
  induction xs generalizing x fuel with
  | nil =>
    obtain ⟨fuel, rfl⟩ := Nat.exists_eq_add_one_of_ne_zero (Nat.ne_zero_of_lt hfuel)
    exact readItems?_last (h x List.mem_cons_self fuel _ (by omega) endsNumber_lineStart)
  | cons y ys ih =>
    obtain ⟨fuel, rfl⟩ := Nat.exists_eq_add_one_of_ne_zero (Nat.ne_zero_of_lt hfuel)
    rw [List.forall_mem_cons] at h
    have hx := h.1 fuel (writtenItems level (y :: ys) ++ (lineStart stop ++ ']' :: rest)) (by omega)
      (endsNumber_writtenItems level stop (y :: ys))
    simp only [writtenItems_cons, List.cons_append, List.append_assoc, List.length_cons,
      List.length_append] at hx hfuel ⊢
    refine readItems?_more hx ?_
    rw [readItems?_congr (skipSpace_lineStart level _)]
    exact ih _ h.2 (by omega)

/-- The members of an object are read up to its end. -/
theorem readMembers?_written (fuel : Nat) {k : String} {v : Json} {ms : List (String × Json)}
    (h : ∀ m ∈ (k, v) :: ms, IsReadBack level m.2)
    (hfuel : (written level v).length + (writtenMembers level ms).length < fuel) (stop : Nat)
    (rest : List Char) :
    readMembers? fuel (writtenString k ++ (':' :: ' ' ::
      (written level v ++ (writtenMembers level ms ++ (lineStart stop ++ '}' :: rest))))) =
      some ((k, v) :: ms, rest) := by
  induction ms generalizing k v fuel with
  | nil =>
    obtain ⟨fuel, rfl⟩ := Nat.exists_eq_add_one_of_ne_zero (Nat.ne_zero_of_lt hfuel)
    have hv : IsReadBack level v := h (k, v) List.mem_cons_self
    exact readMembers?_last k (hv fuel _ (by omega) endsNumber_lineStart)
  | cons m ms ih =>
    obtain ⟨fuel, rfl⟩ := Nat.exists_eq_add_one_of_ne_zero (Nat.ne_zero_of_lt hfuel)
    obtain ⟨l, w⟩ := m
    rw [List.forall_mem_cons] at h
    have hv : IsReadBack level v := h.1
    have hread := hv fuel (writtenMembers level ((l, w) :: ms) ++ (lineStart stop ++ '}' :: rest))
      (by omega) (endsNumber_writtenMembers level stop ((l, w) :: ms))
    simp only [writtenMembers_cons, List.cons_append, List.append_assoc, List.length_cons,
      List.length_append] at hread hfuel ⊢
    refine readMembers?_more k hread ?_
    rw [readMembers?_congr (skipSpace_lineStart level _)]
    exact ih _ h.2 (by omega)

/-- A value is never read without fuel, for something is written for it. -/
theorem IsReadBack.of_succ {v : Json} (hv : IsPlain v)
    (h : ∀ fuel rest, (written level v).length ≤ fuel + 1 → EndsNumber rest →
      readValue? (fuel + 1) (written level v ++ rest) = some (v, rest)) : IsReadBack level v := by
  intro fuel rest hfuel hrest
  obtain ⟨c, cs, hcs, -⟩ := written_eq_cons level hv
  have hpos : 0 < (written level v).length := by
    rw [hcs]
    exact Nat.succ_pos _
  obtain ⟨fuel, rfl⟩ := Nat.exists_eq_add_one_of_ne_zero (n := fuel) (by omega)
  exact h fuel rest hfuel hrest

theorem isReadBack_arr {items : List Json} (hitems : ∀ x ∈ items, IsPlain x)
    (h : ∀ x ∈ items, IsReadBack (level + 1) x) : IsReadBack level (.arr items) := by
  refine .of_succ (.arr hitems) fun fuel rest hfuel _ => ?_
  cases items with
  | nil => exact readValue?_emptyArray
  | cons x xs =>
    simp only [written_arr, List.cons_append, List.append_assoc, List.length_cons,
      List.length_append, List.nil_append] at hfuel ⊢
    have hread := readItems?_written fuel h (by omega) level rest
    obtain ⟨c, cs, hc, hspace, hstop⟩ := written_eq_cons (level + 1) (hitems x List.mem_cons_self)
    rw [hc, List.cons_append] at hread ⊢
    exact readValue?_array hspace hstop hread

theorem isReadBack_obj {members : List (String × Json)} (hkeys : (members.map (·.1)).Nodup)
    (hmembers : ∀ m ∈ members, IsPlain m.2) (h : ∀ m ∈ members, IsReadBack (level + 1) m.2) :
    IsReadBack level (.obj members) := by
  refine .of_succ (.obj hkeys hmembers) fun fuel rest hfuel _ => ?_
  cases members with
  | nil => exact readValue?_emptyObject
  | cons m ms =>
    obtain ⟨k, v⟩ := m
    simp only [written_obj, List.cons_append, List.append_assoc, List.length_cons,
      List.length_append, List.nil_append] at hfuel ⊢
    have hread := readMembers?_written fuel h (by omega) level rest
    rw [readValue?_object hread, ofAssignments_of_nodup hkeys]

/-- **A plain value is read back at every level.** -/
theorem isReadBack {v : Json} (hv : IsPlain v) (level : Nat) : IsReadBack level v := by
  induction hv generalizing level with
  | null => exact .of_succ .null fun _ _ _ _ => readValue?_null
  | bool b =>
    cases b with
    | false => exact .of_succ (.bool false) fun _ _ _ _ => readValue?_false
    | true => exact .of_succ (.bool true) fun _ _ _ _ => readValue?_true
  | int n =>
    refine .of_succ (.int n) fun fuel rest _ hrest => ?_
    rw [written_int]
    exact readValue?_int hrest
  | string s =>
    refine .of_succ (.string s) fun fuel rest _ _ => ?_
    rw [written_str]
    exact readValue?_string s
  | arr hitems ih => exact isReadBack_arr hitems fun x hx => ih x hx (level + 1)
  | obj hkeys hmembers ih => exact isReadBack_obj hkeys hmembers fun m hm => ih m hm (level + 1)

/-! ### Documents -/

/-- No value ends with a blank. -/
theorem getLast?_written (level : Nat) {v : Json} (hv : IsPlain v) :
    ∃ c, (written level v).getLast? = some c ∧ isSpace c = false := by
  cases hv with
  | null => exact ⟨'l', rfl, rfl⟩
  | bool b => cases b <;> exact ⟨'e', rfl, rfl⟩
  | int n =>
    obtain ⟨c, cs, hcs, -⟩ := intText_eq_cons n
    have hne : intText n ≠ [] := hcs ▸ List.cons_ne_nil c cs
    refine ⟨(intText n).getLast hne, ?_, ?_⟩
    · rw [written_int, List.getLast?_eq_some_getLast]
    · exact isSpace_of_isNumberChar (isNumberChar_of_mem_intText (List.getLast_mem hne))
  | string s =>
    refine ⟨'"', ?_, rfl⟩
    rw [written_str, writtenString, ← List.cons_append, List.getLast?_concat]
  | @arr items =>
    refine ⟨']', ?_, rfl⟩
    cases items with
    | nil => rfl
    | cons x xs =>
      rw [written_arr]
      simp [List.getLast?_cons, List.getLast?_append]
  | @obj members =>
    refine ⟨'}', ?_, rfl⟩
    cases members with
    | nil => rfl
    | cons m ms =>
      rw [written_obj]
      simp [List.getLast?_cons, List.getLast?_append]

/-- The document of a plain value is its written form with a line end. -/
theorem document_eq {v : Json} (hv : IsPlain v) :
    document v = ofString (String.ofList (written 0 v) ++ "\n") := by
  have htext : v.text = ofString (String.ofList (written 0 v)) := by
    rw [ofString, String.toList_ofList, ← pretty_eq_ofChars hv]
    rfl
  rw [document, htext]
  simp only [ofString, ofChars, String.toList_append, List.map_append]
  rfl

/-- **Documents are read back.**  The document of a plain value is one text of the grammar
    and one line end, and what is read from it is the value. -/
theorem document_reads {v : Json} (hv : IsPlain v) :
    ∃ s : String, document v = ofString (s ++ "\n") ∧ Grammar.IsText s.toList ∧
      s.toList.getLast? ≠ some '\n' ∧ parse? (s ++ "\n") = some v := by
  refine ⟨String.ofList (written 0 v), document_eq hv, ?_, ?_, ?_⟩
  · rw [String.toList_ofList]
    exact ⟨[], written 0 v, [], nofun, isValue_written hv 0, nofun, by simp⟩
  · obtain ⟨c, hlast, hspace⟩ := getLast?_written 0 hv
    rw [String.toList_ofList, hlast]
    rintro ⟨⟩
    cases hspace
  · have hends : EndsNumber ['\n'] := by
      rintro c ⟨⟩
      rfl
    have hread := isReadBack hv 0 (2 * (written 0 v ++ ['\n']).length + 2) ['\n']
      (by rw [List.length_append]; omega) hends
    have htext : (String.ofList (written 0 v) ++ "\n").toList = written 0 v ++ ['\n'] := by
      rw [String.toList_append, String.toList_ofList]
      rfl
    simp only [parse?, htext, hread]
    rfl

/-- A record with what must be escaped in a string, containers with and without items, and
    keys that are not in alphabetical order. -/
def mixedRecord : Json := .obj [
  ("title", str "a \"quoted\" part,\\ a line\nend, \x01 and \x7f, ü and 𝄞"),
  ("counts", .arr [.int 0, .int (-120), .arr [], .obj []]),
  ("flags", .obj [("second", .bool true), ("first", .bool false), ("", .null)])]

theorem isPlain_mixedRecord : IsPlain mixedRecord := by
  have hcounts : ∀ v ∈ [Json.int 0, .int (-120), .arr [], .obj []], IsPlain v := by
    simp only [List.forall_mem_cons]
    exact ⟨.int 0, .int (-120), .arr nofun, .obj List.nodup_nil nofun, nofun⟩
  have hflags : ∀ m ∈ [("second", Json.bool true), ("first", .bool false), ("", .null)],
      IsPlain m.2 := by
    simp only [List.forall_mem_cons]
    exact ⟨.bool true, .bool false, .null, nofun⟩
  refine .obj (by decide) ?_
  simp only [List.forall_mem_cons]
  exact ⟨.string _, .arr hcounts, .obj (by decide) hflags, nofun⟩

theorem document_reads_mixedRecord : IsPlain mixedRecord ∧
    ∃ s : String, document mixedRecord = ofString (s ++ "\n") ∧ Grammar.IsText s.toList ∧
      s.toList.getLast? ≠ some '\n' ∧ parse? (s ++ "\n") = some mixedRecord :=
  ⟨isPlain_mixedRecord, document_reads isPlain_mixedRecord⟩

end WorkflowCatalog.Json
