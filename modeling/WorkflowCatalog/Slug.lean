/-
  WorkflowCatalog/Slug.lean
  =========================
  **Slugs: the identifiers of workflows.**  A slug is a sequence of words of ASCII
  small letters and digits, with single hyphens between them.  `Slug.ofFilename`
  derives one from the name of a manifest: the last suffix is dropped, every run of
  other characters separates words, and so does a change of letter case inside a
  run (`gitStatus`, `HTTPServer`).  A name without a letter or digit gives the word
  `unknown`.

  The type carries the proof that its text is well formed, so a slug that exists
  needs no further check.
-/
import WorkflowCatalog.Path.Basic
import WorkflowCatalog.Text.Digit

namespace WorkflowCatalog

open Text

namespace Slug

/-! ### Form -/

def isWordChar (c : Char) : Bool := isAsciiLower c || isAsciiDigit c

/-- Does the text begin with a word and go on with single hyphens and words?
    `atStart` tells whether a word still has to begin. -/
def wellFormedFrom (atStart : Bool) : List Char → Bool
  | [] => !atStart
  | c :: cs =>
    if isWordChar c then wellFormedFrom false cs
    else !atStart && c == '-' && wellFormedFrom true cs

def wellFormed (s : String) : Bool := wellFormedFrom true s.toList

end Slug

/-- A well-formed identifier of a workflow. -/
structure Slug where
  text : String
  text_ok : Slug.wellFormed text = true
  deriving DecidableEq, Repr

namespace Slug

/-- The slug with a text, if the text is one. -/
def ofString? (s : String) : Option Slug :=
  if h : wellFormed s = true then some ⟨s, h⟩ else none

/-! ### Words of a file name -/

/-- Does a new word begin between two neighbouring letters or digits?  `next` is
    the character after them: a capital that begins a word after an acronym is told
    by the small letter that follows it. -/
def isBoundary (c d : Char) (next : Option Char) : Bool :=
  isAsciiUpper d &&
    (isAsciiLower c || isAsciiDigit c || (isAsciiUpper c && next.any isAsciiLower))

def words : List Char → List (List Char)
  | [] => []
  | c :: cs =>
    if isAsciiAlnum c then
      match cs with
      | [] => [[c]]
      | d :: rest =>
        if isAsciiAlnum d && !isBoundary c d rest.head? then
          match words cs with
          | w :: ws => (c :: w) :: ws
          | [] => [[c]]
        else [c] :: words cs
    else words cs

def lowerLetter (c : Char) : Char := if isAsciiUpper c then Char.ofNat (c.toNat + 32) else c

def hyphenate : List (List Char) → List Char
  | [] => []
  | [w] => w.map lowerLetter
  | w :: ws => w.map lowerLetter ++ '-' :: hyphenate ws

/-- The slug of a file name without letters and digits. -/
def fallback : List Char := ['u', 'n', 'k', 'n', 'o', 'w', 'n']

def ofStem (stem : List Char) : List Char :=
  match words stem with
  | [] => fallback
  | ws => hyphenate ws

/-! ### The derived text is a slug -/

/-- Every word is not empty and holds ASCII letters and digits only. -/
theorem words_ok (cs : List Char) : ∀ w ∈ words cs, w ≠ [] ∧ ∀ c ∈ w, isAsciiAlnum c = true := by
  induction cs with
  | nil => simp [words]
  | cons c cs ih =>
    unfold words
    split
    · rename_i hc
      split
      · simp [hc]
      · rename_i d rest
        split
        · split
          · rename_i w ws hw
            rw [hw] at ih
            intro v hv
            rcases List.mem_cons.1 hv with rfl | hv
            · exact ⟨by simp, by
                intro x hx
                rcases List.mem_cons.1 hx with rfl | hx
                · exact hc
                · exact (ih w (by simp)).2 x hx⟩
            · exact ih v (List.mem_cons_of_mem _ hv)
          · simp [hc]
        · intro v hv
          rcases List.mem_cons.1 hv with rfl | hv
          · simp [hc]
          · exact ih v hv
    · exact ih

theorem isWordChar_lowerLetter {c : Char} (h : isAsciiAlnum c = true) :
    isWordChar (lowerLetter c) = true := by
  unfold lowerLetter
  split
  · rename_i hu
    simp only [isAsciiUpper, Bool.and_eq_true, decide_eq_true_eq, Char.le_def,
      UInt32.le_iff_toNat_le] at hu
    have h1 : 65 ≤ c.toNat := hu.1
    have h2 : c.toNat ≤ 90 := hu.2
    have key : ∀ n, n ≤ 90 → 65 ≤ n → isWordChar (Char.ofNat (n + 32)) = true := by decide
    exact key _ h2 h1
  · rename_i hu
    simp only [isAsciiAlnum, Bool.or_eq_true] at h
    simp only [isWordChar, Bool.or_eq_true]
    rcases h with (h | h) | h
    · exact .inr h
    · exact .inl h
    · exact absurd h hu

theorem wellFormedFrom_append {w : List Char} (hw : ∀ c ∈ w, isWordChar c = true)
    (hne : w ≠ []) (b : Bool) (rest : List Char) :
    wellFormedFrom b (w ++ rest) = wellFormedFrom false rest := by
  induction w generalizing b with
  | nil => exact absurd rfl hne
  | cons c w ih =>
    simp only [List.cons_append, wellFormedFrom, hw c (by simp), if_true]
    cases w with
    | nil => rfl
    | cons d w => exact ih (fun x hx => hw x (List.mem_cons_of_mem _ hx)) (by simp) false

theorem wellFormedFrom_hyphenate {ws : List (List Char)} (hne : ws ≠ [])
    (h : ∀ w ∈ ws, w ≠ [] ∧ ∀ c ∈ w, isAsciiAlnum c = true) :
    wellFormedFrom true (hyphenate ws) = true := by
  have step : ∀ w ∈ ws, w.map lowerLetter ≠ [] ∧
      ∀ c ∈ w.map lowerLetter, isWordChar c = true := by
    intro w hw
    refine ⟨by simpa using (h w hw).1, ?_⟩
    intro c hc
    obtain ⟨d, hd, rfl⟩ := List.mem_map.1 hc
    exact isWordChar_lowerLetter ((h w hw).2 d hd)
  clear h
  induction ws with
  | nil => exact absurd rfl hne
  | cons w ws ih =>
    have hw := step w (by simp)
    cases ws with
    | nil =>
      have := wellFormedFrom_append hw.2 hw.1 true []
      simpa [hyphenate, wellFormedFrom] using this
    | cons v vs =>
      have hrest := ih (by simp) fun x hx => step x (List.mem_cons_of_mem _ hx)
      rw [hyphenate, wellFormedFrom_append hw.2 hw.1]
      · have hd : isWordChar '-' = false := by decide
        simp [wellFormedFrom, hd, hrest]
      · simp

theorem wellFormed_ofStem (stem : List Char) :
    wellFormed (String.ofList (ofStem stem)) = true := by
  unfold wellFormed ofStem
  rw [String.toList_ofList]
  split
  · decide
  · rename_i hne
    exact wellFormedFrom_hyphenate (by simpa using hne) (words_ok stem)

def ofFilename (filename : String) : Slug :=
  ⟨String.ofList (ofStem (Path.ofString filename).stem.toList), wellFormed_ofStem _⟩

end Slug

end WorkflowCatalog
