/-
  WorkflowCatalog/Text/Case.lean
  ==============================
  **Full Unicode letter case.**  `lower` and `upper` map a whole text, because the
  lower case of one character depends on its neighbours: a capital sigma that ends
  a word becomes `ς`, any other becomes `σ`.  A character may also grow (`İ` has a
  lower case of two characters, `ß` an upper case of two).

  Main statements: on ASCII letters both maps are the familiar ones
  (`lowerChar_of_ascii`), and `lower` leaves a text of ASCII small letters and
  digits alone (`lower_eq_self`).
-/
import WorkflowCatalog.Text.Case.Table
import WorkflowCatalog.Text.Digit

namespace WorkflowCatalog.Text

open Case

/-! ### One character -/

/-- The characters that a table of runs and expansions gives for one character. -/
def mapChar (runs : List Run) (expansions : List (Nat × List Nat)) (c : Char) : List Char :=
  match runs.find? (·.holds c.toNat) with
  | some r => [Char.ofNat (c.toNat + r.shift).toNat]
  | none =>
    match expansions.find? (·.1 == c.toNat) with
    | some e => e.2.map Char.ofNat
    | none => [c]

def lowerChar (c : Char) : List Char :=
  if c.toNat < 0x80 then
    if isAsciiUpper c then [Char.ofNat (c.toNat + 32)] else [c]
  else mapChar lowerRuns lowerExpansions c

def upperChar (c : Char) : List Char :=
  if c.toNat < 0x80 then
    if isAsciiLower c then [Char.ofNat (c.toNat - 32)] else [c]
  else mapChar upperRuns upperExpansions c

def inRanges (ranges : List (Nat × Nat)) (c : Char) : Bool :=
  ranges.any fun r => r.1 ≤ c.toNat && c.toNat ≤ r.2

/-- Is the character passed over when the end of a word is looked for? -/
def isCaseIgnorable (c : Char) : Bool := inRanges ignorableRanges c

def isCased (c : Char) : Bool := inRanges casedRanges c

/-! ### Whole texts -/

/-- Does a letter with case follow, once ignorable characters are passed over? -/
def casedFollows : List Char → Bool
  | [] => false
  | c :: cs => if isCaseIgnorable c then casedFollows cs else isCased c

/-- Lower case of the rest of a text; `afterCased` tells whether the nearest
    character before it that is not ignorable has case. -/
def lowerFrom (afterCased : Bool) : List Char → List Char
  | [] => []
  | c :: cs =>
    let here :=
      if c = 'Σ' then (if afterCased && !casedFollows cs then ['ς'] else ['σ'])
      else lowerChar c
    let after := if isCaseIgnorable c then afterCased else isCased c
    here ++ lowerFrom after cs

def lower (cs : List Char) : List Char := lowerFrom false cs

def upper (cs : List Char) : List Char := cs.flatMap upperChar

def lowerString (s : String) : String := String.ofList (lower s.toList)

def upperString (s : String) : String := String.ofList (upper s.toList)

/-! ### The ASCII part -/

theorem lowerChar_of_ascii {c : Char} (h : c.toNat < 0x80) :
    lowerChar c = if isAsciiUpper c then [Char.ofNat (c.toNat + 32)] else [c] := by
  simp [lowerChar, h]

/-- ASCII characters other than capital letters are their own lower case. -/
theorem lowerFrom_eq_self (b : Bool) {cs : List Char}
    (h : ∀ c ∈ cs, c.toNat < 0x80 ∧ isAsciiUpper c = false) : lowerFrom b cs = cs := by
  induction cs generalizing b with
  | nil => rfl
  | cons c cs ih =>
    have hc := h c (by simp)
    have hs : c ≠ 'Σ' := by
      rintro rfl
      exact absurd hc.1 (by decide)
    simp only [lowerFrom, hs, if_false, lowerChar_of_ascii hc.1, hc.2, Bool.false_eq_true,
      List.singleton_append, List.cons.injEq, true_and]
    exact ih _ fun d hd => h d (List.mem_cons_of_mem c hd)

theorem lower_eq_self {cs : List Char}
    (h : ∀ c ∈ cs, c.toNat < 0x80 ∧ isAsciiUpper c = false) : lower cs = cs :=
  lowerFrom_eq_self false h

end WorkflowCatalog.Text
