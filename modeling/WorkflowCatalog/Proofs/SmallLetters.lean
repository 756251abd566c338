/-
  WorkflowCatalog/Proofs/SmallLetters.lean
  ========================================
  **Lower case is reached in one step.**  A character is small if the tables lead it
  nowhere (`IsSmall`), and what they lead to is small: no run leads into another one or
  into itself.  Most runs are too far from each other for that; the characters of the
  others are compared one by one (`Case.Run.staysClear`).

  So the lower case of a text holds small characters only, besides halves of pairs
  (`isSmall_of_mem_lower`), and a text of small characters, in particular every part of such
  a text, is its own lower case (`lower_of_isSmall`, `lower_lower`).  A dot or a slash stands
  in a lower case only if the text has it (`mem_of_mem_lower`).
-/
import WorkflowCatalog.Proofs.Lowering

namespace WorkflowCatalog.Text

open Case (lowerRuns lowerExpansions)

variable {c d : Char} {cs : List Char} {r r' : Case.Run}

/-! ### Runs -/

/-- The characters of a run, by number. -/
def Case.Run.codes (r : Case.Run) : List Nat :=
  (List.range ((r.last - r.first) / r.step + 1)).map fun k => r.first + r.step * k

theorem Case.Run.bounds {n : Nat} (h : r.holds n = true) : r.first ≤ n ∧ n ≤ r.last := by
  unfold Run.holds at h
  rw [Bool.and_eq_true, Bool.and_eq_true, decide_eq_true_eq, decide_eq_true_eq] at h
  exact h.1

theorem Case.Run.mem_codes {n : Nat} (h : r.holds n = true) : n ∈ r.codes := by
  obtain ⟨hfirst, hlast⟩ := Run.bounds h
  unfold Run.holds at h
  rw [Bool.and_eq_true, beq_iff_eq] at h
  refine List.mem_map.2 ⟨(n - r.first) / r.step, List.mem_range.2 ?_, ?_⟩
  · exact Nat.lt_succ_of_le (Nat.div_le_div_right (Nat.sub_le_sub_right hlast _))
  · rw [Nat.mul_div_cancel' (Nat.dvd_of_mod_eq_zero h.2), Nat.add_sub_cancel' hfirst]

/-- The number that a run leads to from a number. -/
def Case.Run.target (r : Case.Run) (n : Nat) : Nat := (n + r.shift).toNat

theorem Case.Run.target_mono {n m : Nat} (h : n ≤ m) : r.target n ≤ r.target m := by
  unfold Run.target
  omega

/-- The first run does not lead into the second. -/
def Case.Run.staysClear (r r' : Case.Run) : Bool :=
  Nat.blt (r.target r.last) r'.first || Nat.blt r'.last (r.target r.first) ||
    r.codes.all fun n => !r'.holds (r.target n)

theorem Case.Run.holds_of_staysClear {n : Nat} (h : r.staysClear r' = true)
    (hn : r.holds n = true) : r'.holds (r.target n) = false := by
  obtain ⟨hfirst, hlast⟩ := Run.bounds hn
  have hlow : r.target r.first ≤ r.target n := Run.target_mono hfirst
  have hhigh : r.target n ≤ r.target r.last := Run.target_mono hlast
  rw [Bool.eq_false_iff]
  intro hheld
  obtain ⟨hfirst', hlast'⟩ := Run.bounds hheld
  unfold Run.staysClear at h
  rw [Bool.or_eq_true, Bool.or_eq_true, Nat.blt_eq, Nat.blt_eq, List.all_eq_true] at h
  rcases h with (h | h) | h
  · omega
  · omega
  · have hclear := h n (Run.mem_codes hn)
    rw [hheld] at hclear
    cases hclear

/-! ### Small characters -/

/-- The characters that have another lower case, in runs. -/
def changing : List Case.Run :=
  lowerRuns ++ lowerExpansions.map fun e => { first := e.1, last := e.1, step := 1, shift := 0 }

/-- The characters with these numbers have no other lower case. -/
def IsSmallCode (n : Nat) : Prop := ∀ r ∈ changing, r.holds n = false

instance (n : Nat) : Decidable (IsSmallCode n) := inferInstanceAs (Decidable (∀ r ∈ changing, _))

def IsSmall (c : Char) : Prop := IsSmallCode c.toNat

instance (c : Char) : Decidable (IsSmall c) := inferInstanceAs (Decidable (IsSmallCode _))

/-- **The runs lead into none of them.** -/
theorem staysClear_lowerRuns :
    (lowerRuns.all fun r => changing.all fun r' => r.staysClear r') = true := by
  decide +kernel

/-- The runs lead past the marks of ASCII, and to numbers of characters. -/
theorem target_lowerRuns : ∀ r ∈ lowerRuns, 0x61 ≤ r.target r.first ∧
    (r.target r.last < 0xd800 ∨ 0xdfff < r.target r.first ∧ r.target r.last < 0x110000) := by
  decide +kernel

theorem target_lowerExpansions : ∀ e ∈ lowerExpansions, ∀ n ∈ e.2,
    n.isValidChar ∧ 0x61 ≤ n ∧ IsSmallCode n := by
  decide +kernel

/-- One run is about ASCII, that of the capital letters. -/
theorem ascii_of_mem_lowerRuns : ∀ r ∈ lowerRuns,
    (r.first = 0x41 ∧ r.last = 0x5a ∧ r.shift = 32) ∨ 0x80 ≤ r.first := by
  decide +kernel

theorem exists_capitals : ∃ r ∈ lowerRuns, r.first = 0x41 ∧ r.last = 0x5a ∧ r.step = 1 := by
  decide +kernel

/-! ### The lower case of one character -/

theorem isAsciiUpper_iff : isAsciiUpper c = true ↔ 0x41 ≤ c.toNat ∧ c.toNat ≤ 0x5a := by
  unfold isAsciiUpper
  rw [Bool.and_eq_true, decide_eq_true_eq, decide_eq_true_eq]
  exact Iff.rfl

/-- The tables know the ASCII letters too. -/
theorem lowerChar_eq_mapChar (c : Char) : lowerChar c = mapChar lowerRuns lowerExpansions c := by
  unfold lowerChar
  split
  · rename_i hascii
    unfold mapChar
    cases hfind : lowerRuns.find? (·.holds c.toNat) with
    | some r =>
      have hheld : r.holds c.toNat = true := by simpa using List.find?_some hfind
      obtain ⟨hfirst, hlast⟩ := Case.Run.bounds hheld
      obtain ⟨hfrom, hto, hshift⟩ :=
        (ascii_of_mem_lowerRuns r (List.mem_of_find?_eq_some hfind)).resolve_right (by omega)
      rw [if_pos (isAsciiUpper_iff.2 ⟨by omega, by omega⟩)]
      dsimp only
      rw [hshift]
      rfl
    | none =>
      have hupper : ¬ isAsciiUpper c = true := by
        intro hupper
        obtain ⟨hfirst, hlast⟩ := isAsciiUpper_iff.1 hupper
        obtain ⟨r, hr, hfrom, hto, hstep⟩ := exists_capitals
        have hnone := List.find?_eq_none.1 hfind r hr
        simp [Case.Run.holds, hfrom, hto, hstep, hfirst, hlast, Nat.mod_one] at hnone
      have hexpansion : lowerExpansions.find? (·.1 == c.toNat) = none := by
        rw [List.find?_eq_none]
        intro e he
        have hbehind : ∀ e ∈ lowerExpansions, 0x80 ≤ e.1 := by decide
        have hfar := hbehind e he
        rw [beq_iff_eq]
        omega
      rw [if_neg hupper, hexpansion]
  · rfl

/-- A character is small, or a run or an expansion leads away from it. -/
theorem lowerChar_cases (c : Char) :
    (IsSmall c ∧ lowerChar c = [c]) ∨
      (∃ r ∈ lowerRuns, r.holds c.toNat = true ∧
        lowerChar c = [Char.ofNat (r.target c.toNat)]) ∨
      ∃ e ∈ lowerExpansions, lowerChar c = e.2.map Char.ofNat := by
  rw [lowerChar_eq_mapChar]
  unfold mapChar
  cases hrun : lowerRuns.find? (·.holds c.toNat) with
  | some r =>
    have hheld : r.holds c.toNat = true := by simpa using List.find?_some hrun
    exact .inr (.inl ⟨r, List.mem_of_find?_eq_some hrun, hheld, rfl⟩)
  | none =>
    cases hexpansion : lowerExpansions.find? (·.1 == c.toNat) with
    | some e => exact .inr (.inr ⟨e, List.mem_of_find?_eq_some hexpansion, rfl⟩)
    | none =>
      refine .inl ⟨fun r hr => Bool.eq_false_iff.2 fun hheld => ?_, rfl⟩
      rcases List.mem_append.1 hr with hr | hr
      · exact List.find?_eq_none.1 hrun r hr hheld
      · obtain ⟨e, he, rfl⟩ := List.mem_map.1 hr
        obtain ⟨hfirst, hlast⟩ := Case.Run.bounds hheld
        exact List.find?_eq_none.1 hexpansion e he
          (beq_iff_eq.2 (Nat.le_antisymm hfirst hlast))

theorem lowerChar_of_isSmall (h : IsSmall c) : lowerChar c = [c] := by
  rw [lowerChar_eq_mapChar]
  unfold mapChar
  have hrun : lowerRuns.find? (·.holds c.toNat) = none := by
    rw [List.find?_eq_none]
    intro r hr
    rw [h r (List.mem_append_left _ hr)]
    exact Bool.false_ne_true
  have hexpansion : lowerExpansions.find? (·.1 == c.toNat) = none := by
    rw [List.find?_eq_none]
    intro e he heq
    have hclear := h _ (List.mem_append_right _ (List.mem_map_of_mem he))
    simp [Case.Run.holds, beq_iff_eq.1 heq] at hclear
  rw [hrun, hexpansion]

/-- The number of a character is the number it was made of. -/
theorem toNat_ofNat_of_isValidChar {n : Nat} (h : n.isValidChar) : (Char.ofNat n).toNat = n := by
  unfold Char.ofNat
  rw [dif_pos h]
  rfl

theorem toNat_target (hr : r ∈ lowerRuns) (h : r.holds c.toNat = true) :
    (Char.ofNat (r.target c.toNat)).toNat = r.target c.toNat ∧ 0x61 ≤ r.target c.toNat := by
  obtain ⟨hfirst, hlast⟩ := Case.Run.bounds h
  have hlow : r.target r.first ≤ r.target c.toNat := Case.Run.target_mono hfirst
  have hhigh : r.target c.toNat ≤ r.target r.last := Case.Run.target_mono hlast
  obtain ⟨hpast, hvalid⟩ := target_lowerRuns r hr
  refine ⟨toNat_ofNat_of_isValidChar ?_, Nat.le_trans hpast hlow⟩
  unfold Nat.isValidChar
  omega

/-- **What a character has for a lower case is small.** -/
theorem isSmall_of_mem_lowerChar (h : d ∈ lowerChar c) : IsSmall d := by
  rcases lowerChar_cases c with ⟨hsmall, heq⟩ | ⟨r, hr, hheld, heq⟩ | ⟨e, he, heq⟩
  · rw [heq, List.mem_singleton] at h
    rwa [h]
  · rw [heq, List.mem_singleton] at h
    subst h
    intro r' hr'
    rw [(toNat_target hr hheld).1]
    have hclear := List.all_eq_true.1 (List.all_eq_true.1 staysClear_lowerRuns r hr) r' hr'
    exact Case.Run.holds_of_staysClear hclear hheld
  · rw [heq] at h
    obtain ⟨n, hn, rfl⟩ := List.mem_map.1 h
    obtain ⟨hvalid, -, hsmall⟩ := target_lowerExpansions e he n hn
    unfold IsSmall
    rwa [toNat_ofNat_of_isValidChar hvalid]

/-- Marks of ASCII are the lower case of nothing else. -/
theorem eq_of_mem_lowerChar (hd : d.toNat < 0x61) (h : d ∈ lowerChar c) : d = c := by
  rcases lowerChar_cases c with ⟨-, heq⟩ | ⟨r, hr, hheld, heq⟩ | ⟨e, he, heq⟩
  · rwa [heq, List.mem_singleton] at h
  · rw [heq, List.mem_singleton] at h
    subst h
    obtain ⟨htarget, hpast⟩ := toNat_target hr hheld
    omega
  · rw [heq] at h
    obtain ⟨n, hn, rfl⟩ := List.mem_map.1 h
    obtain ⟨hvalid, hpast, -⟩ := target_lowerExpansions e he n hn
    rw [toNat_ofNat_of_isValidChar hvalid] at hd
    omega

/-! ### The lower case of texts -/

theorem ne_sigma_of_isSmall (h : IsSmall c) : c ≠ 'Σ' := by
  rintro rfl
  exact absurd h (by decide +kernel)

/-- What stands in a lower case is the lower case of a character, or a final sigma. -/
theorem of_mem_lowerAmid {before behind : Bool} {ps : List CodePoint} {d : Char}
    (h : .char d ∈ lowerAmid before behind ps) :
    d = 'ς' ∨ ∃ c, .char c ∈ ps ∧ d ∈ lowerChar c := by
  induction ps generalizing before with
  | nil => cases h
  | cons p ps ih =>
    have hrest {b : Bool} (h : .char d ∈ lowerAmid b behind ps) :
        d = 'ς' ∨ ∃ c, .char c ∈ p :: ps ∧ d ∈ lowerChar c := by
      refine (ih h).imp_right ?_
      rintro ⟨c, hc, hd⟩
      exact ⟨c, List.mem_cons_of_mem _ hc, hd⟩
    cases p with
    | half n =>
      rw [lowerAmid] at h
      rcases List.mem_cons.1 h with h | h
      · cases h
      · exact hrest h
    | char c =>
      rw [lowerAmid, List.mem_append] at h
      rcases h with h | h
      · obtain ⟨d', hd, heq⟩ := List.mem_map.1 h
        cases heq
        by_cases hsigma : c = 'Σ'
        · have hsmall : lowerChar 'Σ' = ['σ'] := by decide +kernel
          rw [lowerBetween, if_pos hsigma] at hd
          split at hd
          · exact .inl (List.mem_singleton.1 hd)
          · exact .inr ⟨c, List.mem_cons_self, by rwa [hsigma, hsmall]⟩
        · rw [lowerBetween, if_neg hsigma] at hd
          exact .inr ⟨c, List.mem_cons_self, hd⟩
      · exact hrest h

theorem lowerAmid_of_isSmall {before behind : Bool} {ps : List CodePoint}
    (h : ∀ c, .char c ∈ ps → IsSmall c) : lowerAmid before behind ps = ps := by
  induction ps generalizing before with
  | nil => rfl
  | cons p ps ih =>
    have hrest {b : Bool} : lowerAmid b behind ps = ps :=
      ih fun c hc => h c (List.mem_cons_of_mem _ hc)
    cases p with
    | half n => rw [lowerAmid, hrest]
    | char c =>
      have hsmall := h c List.mem_cons_self
      rw [lowerAmid, lowerBetween, if_neg (ne_sigma_of_isSmall hsmall),
        lowerChar_of_isSmall hsmall, hrest]
      rfl

namespace CodeText

variable {t : CodeText}

/-- **The lower case of a text holds small characters only.** -/
theorem isSmall_of_mem_lower {c : Char} (h : .char c ∈ t.lower.points) : IsSmall c := by
  rw [lower, lowerPoints_eq] at h
  rcases of_mem_lowerAmid h with rfl | ⟨c', -, h⟩
  · decide +kernel
  · exact isSmall_of_mem_lowerChar h

/-- A mark of ASCII stands in the lower case of a text only if it stands in the text. -/
theorem mem_of_mem_lower {c : Char} (hc : c.toNat < 0x61) (h : .char c ∈ t.lower.points) :
    .char c ∈ t.points := by
  rw [lower, lowerPoints_eq] at h
  rcases of_mem_lowerAmid h with rfl | ⟨c', hc', h⟩
  · exact absurd hc (by decide)
  · rwa [eq_of_mem_lowerChar hc h]

/-- **A text of small characters is its own lower case.** -/
theorem lower_of_isSmall (h : ∀ c, .char c ∈ t.points → IsSmall c) : t.lower = t :=
  congrArg CodeText.mk ((lowerPoints_eq t.points).trans (lowerAmid_of_isSmall h))

theorem lower_lower (t : CodeText) : t.lower.lower = t.lower :=
  lower_of_isSmall fun _ => isSmall_of_mem_lower

end CodeText

end WorkflowCatalog.Text
