/-
  WorkflowCatalog/Text/Quoted.lean
  ================================
  **A text quoted inside a message.**  It stands between single quotes, or between
  double quotes if it holds a single quote and no double one.  The quote in use and
  the backslash are escaped, tab and line ends are named, and a character that is
  not printable is shown by its number in two, four or eight hexadecimal digits; so
  is one half of a surrogate pair.
-/
import WorkflowCatalog.Text.CodePoint
import WorkflowCatalog.Text.Printable

namespace WorkflowCatalog.Text

/-- A number in `width` hexadecimal digits. -/
def hexDigits (width n : Nat) : List Char :=
  let ds := Nat.toDigits 16 n
  List.replicate (width - ds.length) '0' ++ ds

def quoteChar (quote c : Char) : List Char :=
  if c = quote || c = '\\' then ['\\', c]
  else if c = '\t' then ['\\', 't']
  else if c = '\n' then ['\\', 'n']
  else if c = '\r' then ['\\', 'r']
  else if isPrintable c then [c]
  else if c.toNat < 0x100 then '\\' :: 'x' :: hexDigits 2 c.toNat
  else if c.toNat < 0x10000 then '\\' :: 'u' :: hexDigits 4 c.toNat
  else '\\' :: 'U' :: hexDigits 8 c.toNat

def quotePoint (quote : Char) : CodePoint → List Char
  | .char c => quoteChar quote c
  | .half n => '\\' :: 'u' :: hexDigits 4 (CodePoint.half n).number

def quoteMark (ps : List CodePoint) : Char :=
  if ps.contains (.char '\'') && !ps.contains (.char '"') then '"' else '\''

def quotePoints (ps : List CodePoint) : List Char :=
  let q := quoteMark ps
  q :: ps.flatMap (quotePoint q) ++ [q]

def quote (cs : List Char) : List Char := quotePoints (ofChars cs)

def quoteString (s : String) : String := String.ofList (quote s.toList)

end WorkflowCatalog.Text
