/-
  WorkflowCatalog/Json/Writer.lean
  ================================
  **The two written forms of a JSON value.**  `document` is the form of a file: one
  member or item a line, two blanks a level, every character that need not be
  escaped written as it is, a line end after the value; a half of a surrogate pair
  stands in it as it is, so such a document has no UTF-8 form.  `line` is the form of
  a record in a stream: one line, ASCII only.
-/
import WorkflowCatalog.Json.Basic
import WorkflowCatalog.Decimal.Layout

namespace WorkflowCatalog.Json

open Decimal (Binary64)
open Text (CodePoint CodeText ofChars)

/-! ### Strings -/

def hexDigit (n : Nat) : Char := Nat.digitChar n

def hex4 (n : Nat) : List Char :=
  [hexDigit (n / 4096 % 16), hexDigit (n / 256 % 16), hexDigit (n / 16 % 16), hexDigit (n % 16)]

def unitEscape (n : Nat) : List Char := '\\' :: 'u' :: hex4 n

/-- A character inside a string, escaped only where it must be. -/
def escapeChar (c : Char) : List Char :=
  if c = '"' then ['\\', '"']
  else if c = '\\' then ['\\', '\\']
  else if c = '\n' then ['\\', 'n']
  else if c = '\r' then ['\\', 'r']
  else if c = '\t' then ['\\', 't']
  else if c = '\x0c' then ['\\', 'f']
  else if c = '\x08' then ['\\', 'b']
  else if c.toNat < 0x20 then unitEscape c.toNat
  else [c]

/-- A code point inside a string, escaped only where it must be. -/
def escapePoint : CodePoint → List CodePoint
  | .char c => ofChars (escapeChar c)
  | .half n => [.half n]

/-- A character inside a string of ASCII only; above U+FFFF as a pair of units. -/
def escapeCharAscii (c : Char) : List Char :=
  if c.toNat < 0x7f then escapeChar c
  else if c.toNat < 0x10000 then unitEscape c.toNat
  else
    let n := c.toNat - 0x10000
    unitEscape (0xd800 + n / 0x400) ++ unitEscape (0xdc00 + n % 0x400)

/-- A code point inside a string of ASCII only. -/
def escapePointAscii : CodePoint → List Char
  | .char c => escapeCharAscii c
  | .half n => unitEscape (CodePoint.half n).number

def quoted (t : CodeText) : List CodePoint :=
  .char '"' :: t.points.flatMap escapePoint ++ [.char '"']

/-- A string between quotes, in ASCII only. -/
def quotedAscii (t : CodeText) : List Char := '"' :: t.points.flatMap escapePointAscii ++ ['"']

/-! ### Numbers -/

def intText (n : Int) : List Char :=
  if n < 0 then '-' :: Nat.toDigits 10 n.natAbs else Nat.toDigits 10 n.natAbs

/-- Numbers with a fraction, and the three words for what is no number. -/
def numberLayout : Decimal.Layout :=
  { Decimal.plainLayout with nanText := "NaN", infiniteText := "Infinity" }

def floatText (x : Binary64) : List Char := (numberLayout.render Decimal.shortest x).toList

/-! ### Documents -/

def newLine (level : Nat) : List CodePoint := ofChars ('\n' :: List.replicate (2 * level) ' ')

def keyEnd : List CodePoint := ofChars [':', ' ']

mutual

def pretty (level : Nat) : Json → List CodePoint
  | .null => ofChars ['n', 'u', 'l', 'l']
  | .bool true => ofChars ['t', 'r', 'u', 'e']
  | .bool false => ofChars ['f', 'a', 'l', 's', 'e']
  | .int n => ofChars (intText n)
  | .float x => ofChars (floatText x)
  | .string t => quoted t
  | .arr [] => ofChars ['[', ']']
  | .arr (x :: xs) =>
    .char '[' :: newLine (level + 1) ++ pretty (level + 1) x ++ prettyItems (level + 1) xs ++
      newLine level ++ [.char ']']
  | .obj [] => ofChars ['{', '}']
  | .obj ((k, v) :: ms) =>
    .char '{' :: newLine (level + 1) ++ quoted k ++ keyEnd ++ pretty (level + 1) v ++
      prettyMembers (level + 1) ms ++ newLine level ++ [.char '}']

/-- The items after the first. -/
def prettyItems (level : Nat) : List Json → List CodePoint
  | [] => []
  | x :: xs => .char ',' :: newLine level ++ pretty level x ++ prettyItems level xs

/-- The members after the first. -/
def prettyMembers (level : Nat) : List (String × Json) → List CodePoint
  | [] => []
  | (k, v) :: ms =>
    .char ',' :: newLine level ++ quoted k ++ keyEnd ++ pretty level v ++ prettyMembers level ms

end

def text (v : Json) : CodeText := ⟨pretty 0 v⟩

def document (v : Json) : CodeText := v.text ++ ↑"\n"

/-! ### Lines -/

mutual

def compact : Json → List Char
  | .null => ['n', 'u', 'l', 'l']
  | .bool true => ['t', 'r', 'u', 'e']
  | .bool false => ['f', 'a', 'l', 's', 'e']
  | .int n => intText n
  | .float x => floatText x
  | .string t => quotedAscii t
  | .arr [] => ['[', ']']
  | .arr (x :: xs) => '[' :: compact x ++ compactItems xs ++ [']']
  | .obj [] => ['{', '}']
  | .obj ((k, v) :: ms) =>
    '{' :: quotedAscii k ++ [':', ' '] ++ compact v ++ compactMembers ms ++ ['}']

/-- The items after the first. -/
def compactItems : List Json → List Char
  | [] => []
  | x :: xs => ',' :: ' ' :: compact x ++ compactItems xs

/-- The members after the first. -/
def compactMembers : List (String × Json) → List Char
  | [] => []
  | (k, v) :: ms =>
    ',' :: ' ' :: quotedAscii k ++ [':', ' '] ++ compact v ++ compactMembers ms

end

/-- The text of a record in a stream, without its line end. -/
def line (v : Json) : String := String.ofList (compact v)

end WorkflowCatalog.Json
