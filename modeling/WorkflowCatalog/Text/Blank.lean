/-
  WorkflowCatalog/Text/Blank.lean
  ===============================
  Blank characters and the trimming of a text at both ends.  Two sets are in use:
  the blanks of text proper, and the same set without the four separators U+001C
  to U+001F, which surrounds numbers that arrive as text.
-/
namespace WorkflowCatalog.Text

/-- A character that separates words and is trimmed from the ends of a setting. -/
def isBlank (c : Char) : Bool :=
  let n := c.toNat
  (9 ≤ n && n ≤ 13) || (28 ≤ n && n ≤ 32) || n == 0x85 || n == 0xa0 || n == 0x1680 ||
    (0x2000 ≤ n && n ≤ 0x200a) || n == 0x2028 || n == 0x2029 || n == 0x202f || n == 0x205f ||
    n == 0x3000

/-- A blank that may surround a number given as text. -/
def isNumberBlank (c : Char) : Bool := isBlank c && !(28 ≤ c.toNat && c.toNat ≤ 31)

/-- Removes what belongs to a class from both ends. -/
def trimBoth {α : Type} (p : α → Bool) (cs : List α) : List α :=
  ((cs.dropWhile p).reverse.dropWhile p).reverse

/-- A string without the blanks at its ends. -/
def strip (s : String) : String := String.ofList (trimBoth isBlank s.toList)

end WorkflowCatalog.Text
