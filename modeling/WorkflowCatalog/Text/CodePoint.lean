/-
  WorkflowCatalog/Text/CodePoint.lean
  ===================================
  **Texts of code points.**  An escape by number can put one half of a surrogate pair
  into a text.  A half is no character and has no UTF-8 form, and two halves that
  stand side by side are still two code points.

  `CodeText.toString?` is the string of a text without halves.  Texts are ordered by
  the numbers of their code points.  Main statement: the string of the text of a
  string is the string (`CodeText.toString?_ofString`).
-/
import WorkflowCatalog.Text.Blank
import WorkflowCatalog.Text.Case
import WorkflowCatalog.Text.Infix

namespace WorkflowCatalog.Text

/-! ### Code points -/

/-- A character, or one half of a surrogate pair. -/
inductive CodePoint where
  | char (c : Char)
  /-- The half with the number U+D800 and an offset. -/
  | half (offset : Fin 0x800)
  deriving DecidableEq, Repr

namespace CodePoint

def number : CodePoint → Nat
  | .char c => c.toNat
  | .half n => 0xd800 + n

/-- The code point with a number, if there is one. -/
def ofNumber? (n : Nat) : Option CodePoint :=
  if h : 0xd800 ≤ n ∧ n < 0xe000 then some (.half ⟨n - 0xd800, by omega⟩)
  else if n < 0x110000 then some (.char (Char.ofNat n))
  else none

/-- The character that a code point is, if it is one. -/
def char? : CodePoint → Option Char
  | .char c => some c
  | .half _ => none

/-- A code point as a character.  The character U+0000 stands for a half: like a half
    it has no case and is neither a digit nor a blank. -/
def standIn : CodePoint → Char
  | .char c => c
  | .half _ => '\x00'

end CodePoint

/-! ### Lists of code points -/

def ofChars (cs : List Char) : List CodePoint := cs.map .char

/-- The lower case of code points behind a run of characters, which is given backwards. -/
def lowerBehind (run : List Char) : List CodePoint → List CodePoint
  | [] => ofChars (lower run.reverse)
  | .char c :: ps => lowerBehind (c :: run) ps
  | .half n :: ps => ofChars (lower run.reverse) ++ .half n :: lowerBehind [] ps

/-- The lower case of code points.  A half has no case and parts the text around it. -/
def lowerPoints (ps : List CodePoint) : List CodePoint := lowerBehind [] ps

/-! ### Texts -/

structure CodeText where
  points : List CodePoint
  deriving DecidableEq, Repr

namespace CodeText

def ofString (s : String) : CodeText := ⟨ofChars s.toList⟩

instance : Coe String CodeText := ⟨ofString⟩

def append (t u : CodeText) : CodeText := ⟨t.points ++ u.points⟩

instance : Append CodeText := ⟨append⟩

def isEmpty (t : CodeText) : Bool := t.points.isEmpty

/-- The characters of a text without halves. -/
def chars? (t : CodeText) : Option (List Char) := t.points.mapM CodePoint.char?

/-- The string of a text without halves. -/
def toString? (t : CodeText) : Option String := t.chars?.map String.ofList

/-- The bytes of a text without halves in UTF-8. -/
def utf8? (t : CodeText) : Option ByteArray := t.toString?.map String.toUTF8

/-- The numbers of the code points, by which texts are ordered. -/
def numbers (t : CodeText) : List Nat := t.points.map CodePoint.number

def lower (t : CodeText) : CodeText := ⟨lowerPoints t.points⟩

/-- A text without the blanks at its ends. -/
def strip (t : CodeText) : CodeText := ⟨trimBoth (fun p => isBlank p.standIn) t.points⟩

/-- Does the first text occur in the second? -/
def occursIn (needle t : CodeText) : Bool := isInfix needle.points t.points

def join (separator : CodeText) (ts : List CodeText) : CodeText :=
  ⟨(ts.map points).intersperse separator.points |>.flatten⟩

theorem chars?_ofChars (cs : List Char) : chars? ⟨ofChars cs⟩ = some cs := by
  induction cs with
  | nil => rfl
  | cons c cs ih =>
    simp only [chars?, ofChars, List.map_cons, List.mapM_cons] at ih ⊢
    rw [ih]
    rfl

theorem toString?_ofString (s : String) : (ofString s).toString? = some s := by
  simp [toString?, ofString, chars?_ofChars]

/-- Strings with the same text are the same. -/
theorem ofString_inj {s t : String} (h : ofString s = ofString t) : s = t := by
  have htext : some s = some t := by rw [← toString?_ofString s, ← toString?_ofString t, h]
  exact Option.some.inj htext

end CodeText

end WorkflowCatalog.Text
