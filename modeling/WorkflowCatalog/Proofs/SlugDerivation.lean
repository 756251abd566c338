/-
  WorkflowCatalog/Proofs/SlugDerivation.lean
  ==========================================
  **What the slug of a file name is**, told without words and hyphenation.  A slug keeps
  the letters and digits of the stem, in order and in small letters, and the rest of the
  stem decides only between which two of them a hyphen stands (`BeginsWord`).  A stem
  without letters and digits gives the fallback.

  Everything follows from one equation: in front of the spelled rest of a stem, a letter
  puts itself and perhaps a hyphen (`spelled_cons`).  Main statements: the slug of every
  file name is as told (`comesFrom_ofFilename`), and no other text is (`comesFrom_iff`).
-/
import Mathlib.Data.List.Basic
import WorkflowCatalog.Slug

namespace WorkflowCatalog.Slug

open Text

/-! ### The pattern of slugs -/

/-- A word of small letters and digits. -/
def IsWord (w : List Char) : Prop := w ≠ [] ∧ ∀ c ∈ w, isWordChar c = true

/-- Words, each behind a hyphen. -/
def hyphened (ws : List (List Char)) : List Char := ws.flatMap ('-' :: ·)

/-- A word, and then any number of words, each behind a hyphen. -/
def MatchesPattern (s : List Char) : Prop :=
  ∃ first rest, IsWord first ∧ (∀ w ∈ rest, IsWord w) ∧ s = first ++ hyphened rest

/-! ### What a slug has to do with its stem -/

/-- The letters and digits of a text, in small letters. -/
def lowered (cs : List Char) : List Char := (cs.filter isAsciiAlnum).map lowerLetter

def withoutHyphens (s : List Char) : List Char := s.filter (· != '-')

/-- A word ends at the letter or digit `c`, and the next one begins at `d`: other characters
    stand in between, or the two are neighbours and `d` is a capital, either behind a small
    letter or a digit or as the last capital in front of a small letter. -/
def BeginsWord (c : Char) (gap : List Char) (d : Char) (after : List Char) : Prop :=
  gap ≠ [] ∨
    ((isAsciiLower c = true ∨ isAsciiDigit c = true) ∧ isAsciiUpper d = true) ∨
    (isAsciiUpper c = true ∧ isAsciiUpper d = true ∧ ∃ e ∈ after.head?, isAsciiLower e = true)

/-- Between what has become of two consecutive letters or digits of the stem, `c` and `d`, the
    slug has a hyphen exactly if a word begins, and nothing else.  Which letters of the slug
    they have become is told by the letters in front of them and behind them. -/
def HyphenAt (slug before : List Char) (c : Char) (gap : List Char) (d : Char)
    (after : List Char) : Prop :=
  ∃ front between back,
    slug = front ++ lowerLetter c :: (between ++ lowerLetter d :: back) ∧
    withoutHyphens front = lowered before ∧ withoutHyphens back = lowered after ∧
    (between = [] ∨ between = ['-']) ∧ (between = ['-'] ↔ BeginsWord c gap d after)

/-- The slug comes from the stem of a file name. -/
structure ComesFrom (stem slug : List Char) : Prop where
  pattern : MatchesPattern slug
  unknown : (∀ c ∈ stem, isAsciiAlnum c = false) → slug = "unknown".toList
  letters : (∃ c ∈ stem, isAsciiAlnum c = true) → withoutHyphens slug = lowered stem
  hyphens : ∀ before c gap d after, stem = before ++ c :: (gap ++ d :: after) →
    isAsciiAlnum c = true → isAsciiAlnum d = true → (∀ x ∈ gap, isAsciiAlnum x = false) →
      HyphenAt slug before c gap d after

/-! ### The form of a slug -/

section

variable {s : List Char}

theorem wellFormedFrom_false_iff : wellFormedFrom false s = true ↔
    ∃ first rest, (∀ c ∈ first, isWordChar c = true) ∧ (∀ w ∈ rest, IsWord w) ∧
      s = first ++ hyphened rest := by
  constructor
  · -- behind a hyphen a word has to begin, whose first character is met next
    suffices h : ∀ b, wellFormedFrom b s = true → ∃ first rest,
        (∀ c ∈ first, isWordChar c = true) ∧ (∀ w ∈ rest, IsWord w) ∧
          s = first ++ hyphened rest ∧ (b = true → first ≠ []) by
      intro hs
      obtain ⟨first, rest, hfirst, hrest, heq, -⟩ := h false hs
      exact ⟨first, rest, hfirst, hrest, heq⟩
    induction s with
    | nil =>
      intro b hb
      exact ⟨[], [], by simp, by simp, rfl, by simpa [wellFormedFrom] using hb⟩
    | cons c cs ih =>
      intro b hb
      by_cases hc : isWordChar c = true
      · simp only [wellFormedFrom, hc, if_true] at hb
        obtain ⟨first, rest, hfirst, hrest, rfl, -⟩ := ih false hb
        refine ⟨c :: first, rest, ?_, hrest, rfl, by simp⟩
        simpa [hc] using hfirst
      · simp only [wellFormedFrom, hc] at hb
        obtain ⟨⟨hstart, rfl⟩, hcs⟩ := by simpa using hb
        obtain ⟨first, rest, hfirst, hrest, rfl, hne⟩ := ih true hcs
        refine ⟨[], first :: rest, by simp, ?_, rfl, by simp [hstart]⟩
        simpa using ⟨⟨hne rfl, hfirst⟩, hrest⟩
  · rintro ⟨first, rest, hfirst, hrest, rfl⟩
    have hend : wellFormedFrom false (hyphened rest) = true := by
      clear hfirst
      induction rest with
      | nil => rfl
      | cons w ws ih =>
        rw [List.forall_mem_cons] at hrest
        have hhyphen : isWordChar '-' = false := by decide
        simpa [hyphened, wellFormedFrom, hhyphen, wellFormedFrom_append hrest.1.2 hrest.1.1]
          using ih hrest.2
    by_cases hne : first = []
    · simpa [hne] using hend
    · rw [wellFormedFrom_append hfirst hne, hend]

/-- **A text is well formed exactly if the pattern matches it.** -/
theorem wellFormedFrom_true_iff : wellFormedFrom true s = true ↔ MatchesPattern s := by
  constructor
  · intro hs
    cases s with
    | nil => cases hs
    | cons c cs =>
      by_cases hc : isWordChar c = true
      · simp only [wellFormedFrom, hc, if_true] at hs
        obtain ⟨first, rest, hfirst, hrest, rfl⟩ := wellFormedFrom_false_iff.1 hs
        exact ⟨c :: first, rest, ⟨by simp, by simpa [hc] using hfirst⟩, hrest, rfl⟩
      · simp [wellFormedFrom, hc] at hs
  · rintro ⟨first, rest, hfirst, hrest, rfl⟩
    rw [wellFormedFrom_append hfirst.2 hfirst.1]
    exact wellFormedFrom_false_iff.2 ⟨[], rest, by simp, hrest, rfl⟩

end

/-! ### Words -/

section

variable {c d : Char} {cs gap after w : List Char} {ws : List (List Char)}

@[simp] theorem lowered_cons_alnum (hc : isAsciiAlnum c = true) :
    lowered (c :: cs) = lowerLetter c :: lowered cs := by
  simp [lowered, hc]

@[simp] theorem lowered_cons_other (hc : isAsciiAlnum c = false) :
    lowered (c :: cs) = lowered cs := by
  simp [lowered, hc]

@[simp] theorem lowered_append (cs ds : List Char) :
    lowered (cs ++ ds) = lowered cs ++ lowered ds := by
  simp [lowered]

@[simp] theorem withoutHyphens_append (s t : List Char) :
    withoutHyphens (s ++ t) = withoutHyphens s ++ withoutHyphens t := by
  simp [withoutHyphens]

theorem ne_hyphen_of_isWordChar (hc : isWordChar c = true) : c ≠ '-' := by
  rintro rfl
  revert hc
  decide

@[simp] theorem withoutHyphens_lowerLetter (hc : isAsciiAlnum c = true) (s : List Char) :
    withoutHyphens (lowerLetter c :: s) = lowerLetter c :: withoutHyphens s := by
  have hne := ne_hyphen_of_isWordChar (isWordChar_lowerLetter hc)
  simp [withoutHyphens, hne]

theorem lowered_eq_nil (h : ∀ c ∈ cs, isAsciiAlnum c = false) : lowered cs = [] := by
  simpa [lowered] using h

/-- The text that the words of a stem are spelled as. -/
def spelled (cs : List Char) : List Char := hyphenate (words cs)

theorem words_other (hc : isAsciiAlnum c = false) : words (c :: cs) = words cs := by
  rw [words.eq_def]
  simp [hc]

theorem words_gap (hgap : ∀ x ∈ gap, isAsciiAlnum x = false) :
    words (gap ++ cs) = words cs := by
  induction gap with
  | nil => rfl
  | cons x gap ih =>
    rw [List.forall_mem_cons] at hgap
    rw [List.cons_append, words_other hgap.1, ih hgap.2]

theorem words_eq_nil (h : ∀ c ∈ cs, isAsciiAlnum c = false) : words cs = [] := by
  have hnil : words (cs ++ []) = words [] := words_gap h
  simpa [words] using hnil

theorem exists_words_cons (hc : isAsciiAlnum c = true) (cs : List Char) :
    ∃ w ws, words (c :: cs) = w :: ws := by
  unfold words
  rw [if_pos hc]
  split
  · exact ⟨_, _, rfl⟩
  · split
    · split <;> exact ⟨_, _, rfl⟩
    · exact ⟨_, _, rfl⟩

/-- Either no letter or digit is left, or one comes next. -/
theorem exists_next (cs : List Char) :
    (∀ c ∈ cs, isAsciiAlnum c = false) ∨ ∃ gap d after, cs = gap ++ d :: after ∧
      (∀ x ∈ gap, isAsciiAlnum x = false) ∧ isAsciiAlnum d = true := by
  induction cs with
  | nil => exact .inl (by simp)
  | cons c cs ih =>
    by_cases hc : isAsciiAlnum c = true
    · exact .inr ⟨[], c, cs, rfl, by simp, hc⟩
    rw [Bool.not_eq_true] at hc
    rcases ih with hnone | ⟨gap, d, after, rfl, hgap, hd⟩
    · exact .inl (List.forall_mem_cons.2 ⟨hc, hnone⟩)
    · exact .inr ⟨c :: gap, d, after, rfl, List.forall_mem_cons.2 ⟨hc, hgap⟩, hd⟩

theorem hyphenate_cons_cons : hyphenate ((c :: w) :: ws) = lowerLetter c :: hyphenate (w :: ws) := by
  cases ws <;> rfl

theorem hyphenate_cons_nil (hne : ws ≠ []) :
    hyphenate ([c] :: ws) = lowerLetter c :: '-' :: hyphenate ws := by
  cases ws with
  | nil => exact absurd rfl hne
  | cons v vs => rfl

theorem isBoundary_iff : isBoundary c d after.head? = true ↔ BeginsWord c [] d after := by
  unfold isBoundary BeginsWord
  cases after <;> simp <;> tauto

/-- The last letter or digit of a stem. -/
theorem spelled_last (hc : isAsciiAlnum c = true) (h : ∀ x ∈ cs, isAsciiAlnum x = false) :
    spelled (c :: cs) = [lowerLetter c] := by
  have hwords : words (c :: cs) = [[c]] := by
    cases cs with
    | nil => simp [words, hc]
    | cons d rest =>
      have hnil := words_eq_nil h
      rw [List.forall_mem_cons] at h
      rw [words, if_pos hc]
      simp [h.1, hnil]
  rw [spelled, hwords]
  rfl

open Classical in
/-- **A letter or digit puts itself in front of what follows, and a hyphen if a word begins
    there.** -/
theorem spelled_cons (hc : isAsciiAlnum c = true) (hd : isAsciiAlnum d = true)
    (hgap : ∀ x ∈ gap, isAsciiAlnum x = false) :
    spelled (c :: (gap ++ d :: after)) =
      lowerLetter c :: ((if BeginsWord c gap d after then ['-'] else []) ++
        spelled (d :: after)) := by
  obtain ⟨w, ws, hwords⟩ := exists_words_cons hd after
  unfold spelled
  cases gap with
  | nil =>
    by_cases hboundary : isBoundary c d after.head? = true
    · rw [if_pos (isBoundary_iff.1 hboundary), List.nil_append, words, if_pos hc]
      simp only [hd, hboundary, Bool.not_true, Bool.and_false, Bool.false_eq_true, if_false]
      rw [hwords, hyphenate_cons_nil (by simp)]
      rfl
    · rw [if_neg (mt isBoundary_iff.2 hboundary), List.nil_append, words, if_pos hc]
      simp only [hd, hboundary, Bool.not_false, Bool.and_true, if_true]
      rw [hwords]
      exact hyphenate_cons_cons
  | cons x rest =>
    have hbegins : BeginsWord c (x :: rest) d after := .inl (by simp)
    rw [if_pos hbegins, List.cons_append, words, if_pos hc, ← List.cons_append, words_gap hgap,
      hwords]
    rw [List.forall_mem_cons] at hgap
    simp only [hgap.1, Bool.false_and, Bool.false_eq_true, if_false]
    rw [hyphenate_cons_nil (by simp)]
    rfl

theorem spelled_other (hc : isAsciiAlnum c = false) : spelled (c :: cs) = spelled cs :=
  congrArg hyphenate (words_other hc)

/-- **The spelled text has the letters and digits of the stem.** -/
theorem withoutHyphens_spelled (cs : List Char) : withoutHyphens (spelled cs) = lowered cs := by
  induction cs with
  | nil => rfl
  | cons c cs ih =>
    by_cases hc : isAsciiAlnum c = true
    · rw [lowered_cons_alnum hc]
      rcases exists_next cs with hnone | ⟨gap, d, after, rfl, hgap, hd⟩
      · rw [spelled_last hc hnone, withoutHyphens_lowerLetter hc, lowered_eq_nil hnone]
        rfl
      · have hskip : spelled (gap ++ d :: after) = spelled (d :: after) :=
          congrArg hyphenate (words_gap hgap)
        rw [spelled_cons hc hd hgap, withoutHyphens_lowerLetter hc, withoutHyphens_append, ← hskip,
          ih]
        split <;> rfl
    · rw [Bool.not_eq_true] at hc
      rw [spelled_other hc, lowered_cons_other hc, ih]

/-- **Where hyphens stand in the spelled text.**  The induction is on what stands in front of the
    two letters: more in front changes the front of the text only. -/
theorem hyphenAt_spelled (before : List Char) (hc : isAsciiAlnum c = true)
    (hd : isAsciiAlnum d = true) (hgap : ∀ x ∈ gap, isAsciiAlnum x = false) :
    HyphenAt (spelled (before ++ c :: (gap ++ d :: after))) before c gap d after := by
  classical
  induction before with
  | nil =>
    obtain ⟨back, hback⟩ : ∃ back, spelled (d :: after) = lowerLetter d :: back := by
      rcases exists_next after with hnone | ⟨gap', e, after', rfl, hgap', he⟩
      · exact ⟨[], spelled_last hd hnone⟩
      · exact ⟨_, spelled_cons hd he hgap'⟩
    have hletters := withoutHyphens_spelled (d :: after)
    rw [hback, withoutHyphens_lowerLetter hd, lowered_cons_alnum hd, List.cons.injEq] at hletters
    refine ⟨[], if BeginsWord c gap d after then ['-'] else [], back, ?_, rfl, hletters.2, ?_, ?_⟩
    · rw [List.nil_append, List.nil_append, spelled_cons hc hd hgap, hback]
    · split <;> simp
    · split <;> simp [*]
  | cons x before ih =>
    obtain ⟨front, between, back, heq, hfront, hback, hbetween⟩ := ih
    by_cases hx : isAsciiAlnum x = true
    · obtain ⟨joint, hjoint, hspelled⟩ : ∃ joint, withoutHyphens joint = [] ∧
          spelled (x :: (before ++ c :: (gap ++ d :: after))) =
            lowerLetter x :: (joint ++ spelled (before ++ c :: (gap ++ d :: after))) := by
        rcases exists_next (before ++ c :: (gap ++ d :: after)) with hnone |
          ⟨gap', e, after', hsplit, hgap', he⟩
        · have hno := hnone c (by simp)
          rw [hc] at hno
          cases hno
        · refine ⟨if BeginsWord x gap' e after' then ['-'] else [], ?_, ?_⟩
          · split <;> rfl
          · rw [hsplit, spelled_cons hx he hgap', spelled, spelled, words_gap hgap']
      refine ⟨lowerLetter x :: (joint ++ front), between, back, ?_, ?_, hback, hbetween⟩
      · rw [List.cons_append, hspelled, heq]
        simp
      · rw [withoutHyphens_lowerLetter hx, withoutHyphens_append, hjoint, hfront,
          lowered_cons_alnum hx, List.nil_append]
    · rw [Bool.not_eq_true] at hx
      refine ⟨front, between, back, ?_, ?_, hback, hbetween⟩
      · rw [List.cons_append, spelled_other hx, heq]
      · rw [hfront, lowered_cons_other hx]

theorem ofStem_eq (h : ∃ c ∈ cs, isAsciiAlnum c = true) : ofStem cs = spelled cs := by
  rcases exists_next cs with hnone | ⟨gap, d, after, rfl, hgap, hd⟩
  · obtain ⟨c, hmem, hc⟩ := h
    rw [hnone c hmem] at hc
    cases hc
  · obtain ⟨w, ws, hwords⟩ := exists_words_cons hd after
    unfold ofStem spelled
    rw [words_gap hgap, hwords]

end

/-! ### The slug of a file name -/

theorem comesFrom_ofStem (stem : List Char) : ComesFrom stem (ofStem stem) where
  pattern := by
    have hform := wellFormed_ofStem stem
    unfold wellFormed at hform
    rwa [String.toList_ofList, wellFormedFrom_true_iff] at hform
  unknown := by
    intro h
    unfold ofStem
    rw [words_eq_nil h]
    rfl
  letters := by
    intro h
    rw [ofStem_eq h, withoutHyphens_spelled]
  hyphens := by
    rintro before c gap d after rfl hc hd hgap
    rw [ofStem_eq ⟨c, by simp, hc⟩]
    exact hyphenAt_spelled before hc hd hgap

/-- Texts with as many letters in front of a letter are split in the same way there. -/
theorem split_unique {s front front' back back' : List Char} {x x' : Char}
    (h : s = front ++ x :: back) (h' : s = front' ++ x' :: back') (hx : x ≠ '-') (hx' : x' ≠ '-')
    (hfront : withoutHyphens front = withoutHyphens front') : front = front' := by
  induction front generalizing s front' with
  | nil =>
    cases front' with
    | nil => rfl
    | cons y front' =>
      rw [h, List.nil_append, List.cons_append, List.cons.injEq] at h'
      obtain rfl := h'.1
      simp [withoutHyphens, hx] at hfront
  | cons y front ih =>
    cases front' with
    | nil =>
      rw [h, List.nil_append, List.cons_append, List.cons.injEq] at h'
      obtain rfl := h'.1
      simp [withoutHyphens, hx'] at hfront
    | cons y' front' =>
      rw [h, List.cons_append, List.cons_append, List.cons.injEq] at h'
      obtain ⟨rfl, h'⟩ := h'
      have hrest : withoutHyphens front = withoutHyphens front' := by
        by_cases hy : y = '-' <;> simpa [withoutHyphens, hy] using hfront
      rw [ih rfl h' hrest]

theorem wellFormedFrom_concat_hyphen (b : Bool) (s : List Char) :
    wellFormedFrom b (s ++ ['-']) = false := by
  induction s generalizing b with
  | nil => cases b <;> rfl
  | cons c s ih => simp [wellFormedFrom, ih]

/-- A slug does not end in hyphens. -/
theorem MatchesPattern.eq_nil_of_end {front back : List Char} (h : MatchesPattern (front ++ back))
    (hback : ∀ x ∈ back, x = '-') : back = [] := by
  rcases List.eq_nil_or_concat back with rfl | ⟨rest, x, rfl⟩
  · rfl
  · obtain rfl := hback x (by simp)
    have hform := wellFormedFrom_true_iff.2 h
    rw [List.concat_eq_append, ← List.append_assoc, wellFormedFrom_concat_hyphen] at hform
    cases hform

/-- From a letter or digit on, a slug is spelled like the rest of its stem: the step is from one
    letter or digit to the next. -/
theorem ComesFrom.eq_spelled {stem slug before cs front back : List Char} {c : Char}
    (h : ComesFrom stem slug) (hstem : stem = before ++ c :: cs) (hc : isAsciiAlnum c = true)
    (hslug : slug = front ++ lowerLetter c :: back)
    (hfront : withoutHyphens front = lowered before) :
    lowerLetter c :: back = spelled (c :: cs) := by
  have hletter : ∀ {x}, isAsciiAlnum x = true → lowerLetter x ≠ '-' :=
    fun hx => ne_hyphen_of_isWordChar (isWordChar_lowerLetter hx)
  induction hlength : cs.length using Nat.strongRecOn generalizing before cs c front back with
  | ind n ih =>
  rcases exists_next cs with hnone | ⟨gap, d, after, rfl, hgap, hd⟩
  · -- behind the last letter or digit only hyphens could follow
    have hletters := h.letters ⟨c, by simp [hstem], hc⟩
    rw [hslug, hstem, withoutHyphens_append, lowered_append, hfront, withoutHyphens_lowerLetter hc,
      lowered_cons_alnum hc, lowered_eq_nil hnone] at hletters
    have hnil : withoutHyphens back = [] := by simpa using hletters
    have hback : ∀ x ∈ back, x = '-' := by simpa [withoutHyphens] using hnil
    have hpattern := h.pattern
    rw [hslug, List.append_cons] at hpattern
    rw [spelled_last hc hnone, hpattern.eq_nil_of_end hback]
  · classical
    obtain ⟨front', between, back', heq, hfront', -, hcases, hbetween⟩ :=
      h.hyphens before c gap d after hstem hc hd hgap
    obtain rfl := split_unique hslug heq (hletter hc) (hletter hc) (hfront.trans hfront'.symm)
    have hnext : lowerLetter d :: back' = spelled (d :: after) := by
      refine @ih after.length ?_ (before ++ c :: gap) after (front ++ lowerLetter c :: between) back'
        d ?_ hd ?_ ?_ rfl
      · rw [← hlength, List.length_append, List.length_cons]
        omega
      · simp [hstem]
      · simp [heq]
      · have hnone : withoutHyphens between = [] := by
          rcases hcases with rfl | rfl <;> rfl
        rw [withoutHyphens_append, lowered_append, hfront, withoutHyphens_lowerLetter hc, hnone,
          lowered_cons_alnum hc, lowered_eq_nil hgap]
    have hjoint : between = if BeginsWord c gap d after then ['-'] else [] := by
      split
      · exact hbetween.2 ‹_›
      · exact hcases.resolve_right (mt hbetween.1 ‹_›)
    rw [hslug] at heq
    rw [List.append_cancel_left heq, spelled_cons hc hd hgap, ← hnext, ← hjoint]

/-- **Only one text comes from a stem.** -/
theorem comesFrom_iff {stem slug : List Char} : ComesFrom stem slug ↔ slug = ofStem stem := by
  constructor
  · intro h
    rcases exists_next stem with hnone | ⟨gap, c, cs, rfl, hgap, hc⟩
    · rw [h.unknown hnone, (comesFrom_ofStem stem).unknown hnone]
    · have hsome : ∃ x ∈ gap ++ c :: cs, isAsciiAlnum x = true := ⟨c, by simp, hc⟩
      have hletters := h.letters hsome
      rw [lowered_append, lowered_eq_nil hgap, List.nil_append, lowered_cons_alnum hc] at hletters
      obtain ⟨first, rest, ⟨hne, hfirst⟩, -, hslug⟩ := h.pattern
      obtain ⟨x, first, rfl⟩ := List.exists_cons_of_ne_nil hne
      rw [hslug, List.cons_append] at hletters
      have hx := ne_hyphen_of_isWordChar (hfirst x List.mem_cons_self)
      obtain rfl : x = lowerLetter c := by
        simpa [withoutHyphens, hx] using congrArg List.head? hletters
      have hfront : withoutHyphens [] = lowered gap := (lowered_eq_nil hgap).symm
      have hrest : lowerLetter c :: (first ++ hyphened rest) = spelled (c :: cs) :=
        h.eq_spelled rfl hc hslug hfront
      rw [hslug, List.cons_append, hrest, ofStem_eq hsome, spelled, spelled, words_gap hgap]
  · rintro rfl
    exact comesFrom_ofStem stem

/-- **The slug of a file name comes from its stem.** -/
theorem comesFrom_ofFilename (filename : String) :
    ComesFrom (Path.ofString filename).stem.toList (ofFilename filename).text.toList := by
  change ComesFrom _ (String.ofList (ofStem _)).toList
  rw [String.toList_ofList]
  exact comesFrom_ofStem _

example : ofStem "k8s HTTPServerLogs_v2".toList = "k8s-http-server-logs-v2".toList := by
  decide +kernel

end WorkflowCatalog.Slug
