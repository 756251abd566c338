/-
  WorkflowCatalog/Yaml/Cursor.lean
  ================================
  **A place in the text of a document that moves forward.**  A cursor holds the text
  that is left and counts characters, lines and columns.  A document holds no
  character U+0000, so `peek` uses it for the end.

  Main statement: moving forward drops characters and nothing else
  (`Cursor.rest_advanceBy`).
-/
import WorkflowCatalog.Yaml.Fault
import WorkflowCatalog.Text.Digit

namespace WorkflowCatalog.Yaml

open Text

/-! ### Classes of characters -/

def endMark : Char := '\x00'

def isBreak (c : Char) : Bool :=
  c == '\n' || c == '\r' || c == '\x85' || c == '\u2028' || c == '\u2029'

def isBreakOrEnd (c : Char) : Bool := isBreak c || c == endMark

def isSpaceOrEnd (c : Char) : Bool := c == ' ' || isBreakOrEnd c

def isBlankOrEnd (c : Char) : Bool := c == '\t' || isSpaceOrEnd c

def isNameChar (c : Char) : Bool := isAsciiAlnum c || c == '-' || c == '_'

/-- Does the character end a line, so that the next one stands on a new line?
    A carriage return in front of a line feed does not. -/
def startsNewLine (c : Char) (next : Option Char) : Bool :=
  if c == '\r' then next != some '\n' else isBreak c

/-! ### Moving -/

/-- The place behind a character.  A byte order mark takes no column. -/
def Mark.after (m : Mark) (c : Char) (next : Option Char) : Mark :=
  if startsNewLine c next then ⟨m.line + 1, 0⟩
  else if c == '\ufeff' then m
  else ⟨m.line, m.column + 1⟩

structure Cursor where
  /-- The text from here on. -/
  rest : List Char
  /-- The number of characters before. -/
  index : Nat
  mark : Mark
  deriving Repr

namespace Cursor

def start (text : List Char) : Cursor := ⟨text, 0, ⟨0, 0⟩⟩

def peek (c : Cursor) : Char := c.rest.headD endMark

/-- The character `n` places ahead. -/
def peekAt (c : Cursor) (n : Nat) : Char := c.rest.getD n endMark

def column (c : Cursor) : Nat := c.mark.column

def advance (c : Cursor) : Cursor :=
  match c.rest with
  | [] => c
  | x :: xs => ⟨xs, c.index + 1, c.mark.after x xs.head?⟩

/-- `n` characters forward. -/
def advanceBy : Nat → Cursor → Cursor
  | 0, c => c
  | n + 1, c => advanceBy n c.advance

theorem rest_advance (c : Cursor) : c.advance.rest = c.rest.drop 1 := by
  unfold advance
  split <;> simp_all

theorem rest_advanceBy (n : Nat) (c : Cursor) : (advanceBy n c).rest = c.rest.drop n := by
  induction n generalizing c with
  | zero => rfl
  | succ n ih => rw [advanceBy, ih, rest_advance, List.drop_drop, Nat.add_comm]

def takeWhile (p : Char → Bool) (c : Cursor) : List Char × Cursor :=
  let run := c.rest.takeWhile p
  (run, advanceBy run.length c)

def skipWhile (p : Char → Bool) (c : Cursor) : Cursor := (c.takeWhile p).2

def skipSpaces (c : Cursor) : Cursor := c.skipWhile (· == ' ')

/-- The place behind the line, without its end. -/
def skipLine (c : Cursor) : Cursor := c.skipWhile fun x => !isBreak x

/-- A line end as it counts in a text, and the place behind it: the two separators
    count as themselves, any other line end as a line feed, and where no line ends
    there is nothing. -/
def takeBreak (c : Cursor) : List Char × Cursor :=
  match c.rest with
  | '\r' :: '\n' :: _ => (['\n'], advanceBy 2 c)
  | x :: _ =>
    if x == '\u2028' || x == '\u2029' then ([x], c.advance)
    else if isBreak x then (['\n'], c.advance)
    else ([], c)
  | [] => ([], c)

def atSeparator (c : Cursor) : Bool :=
  let three := c.rest.take 3
  (three == ['-', '-', '-'] || three == ['.', '.', '.']) && isBlankOrEnd (c.peekAt 3)

end Cursor

/-! ### Failing at a place -/

abbrev Read := Except Fault

/-- The document breaks a rule at the cursor. -/
def Cursor.fail {α : Type} (c : Cursor) (p : Problem) : Read α := .error (.invalid p c.mark)

end WorkflowCatalog.Yaml
