/-
  WorkflowCatalog/Yaml/Tag.lean
  =============================
  **Tags, and the tag of a plain scalar.**  A scalar without quotes and without a tag
  of its own is given one by its form: truth values, numbers, points in time and
  null have forms of their own, and everything else is a text.

  The forms of numbers allow an underscore between digits, numbers to the base 2, 8
  and 16, and sexagesimal numbers (`1:30:00`).
-/
import WorkflowCatalog.Text.Digit
import WorkflowCatalog.Text.Split

namespace WorkflowCatalog.Yaml

open Text

inductive Tag where
  | null
  | bool
  | int
  | float
  | binary
  | timestamp
  | orderedMap
  | pairs
  | set
  | text
  | sequence
  | mapping
  /-- The key that merges another mapping in. -/
  | merge
  /-- The key that gives the value of a mapping. -/
  | value
  /-- A tag without a meaning of its own. -/
  | other (name : String)
  deriving DecidableEq, Repr

namespace Tag

def core : String := "tag:yaml.org,2002:"

def table : List (Tag × String) :=
  [(null, "null"), (bool, "bool"), (int, "int"), (float, "float"), (binary, "binary"),
   (timestamp, "timestamp"), (orderedMap, "omap"), (pairs, "pairs"), (set, "set"),
   (text, "str"), (sequence, "seq"), (mapping, "map"), (merge, "merge"), (value, "value")]

def name (t : Tag) : String :=
  match t with
  | .other s => s
  | t => core ++ ((table.find? (·.1 == t)).map (·.2)).getD ""

def ofName (s : String) : Tag :=
  ((table.find? fun e => core ++ e.2 == s).map (·.1)).getD (.other s)

end Tag

/-! ### Forms of plain scalars -/

namespace Plain

/-- A text without a line end at its end. -/
def dropLastBreak (cs : List Char) : List Char :=
  if cs.getLast? = some '\n' then cs.dropLast else cs

/-- A text without a sign in front. -/
def dropSign : List Char → List Char
  | '+' :: cs => cs
  | '-' :: cs => cs
  | cs => cs

def isDigitMark (c : Char) : Bool := isAsciiDigit c || c == '_'

def isDigits : List Char → Bool
  | c :: cs => isAsciiDigit c && cs.all isDigitMark
  | [] => false

/-- Digits and underscores that do not begin with a zero. -/
def isWhole : List Char → Bool
  | c :: cs => isAsciiDigit c && c != '0' && cs.all isDigitMark
  | [] => false

/-- One place of a sexagesimal number: one or two digits below sixty. -/
def isSixtieth : List Char → Bool
  | [d] => isAsciiDigit d
  | [c, d] => '0' ≤ c && c ≤ '5' && isAsciiDigit d
  | _ => false

/-- A part in front of the first colon, and places behind; at least one. -/
def isSexagesimal (first : List Char → Bool) (cs : List Char) : Bool :=
  match splitOn ':' cs with
  | p :: q :: qs => first p && (q :: qs).all isSixtieth
  | _ => false

def isRun (p : Char → Bool) (cs : List Char) : Bool := !cs.isEmpty && cs.all p

def isInt (cs : List Char) : Bool :=
  let body := dropSign cs
  body == ['0'] || isWhole body || isSexagesimal isWhole body ||
    match body with
    | '0' :: 'b' :: ds => isRun (fun c => c == '0' || c == '1' || c == '_') ds
    | '0' :: 'x' :: ds =>
      isRun (fun c => isDigitMark c || ('a' ≤ c && c ≤ 'f') || ('A' ≤ c && c ≤ 'F')) ds
    | '0' :: ds => isRun (fun c => ('0' ≤ c && c ≤ '7') || c == '_') ds
    | _ => false

/-- What may follow the digits behind a point: nothing, or a signed exponent. -/
def isExponentOrEnd : List Char → Bool
  | [] => true
  | e :: s :: ds => (e == 'e' || e == 'E') && (s == '+' || s == '-') && isRun isAsciiDigit ds
  | _ => false

def isFloat (cs : List Char) : Bool :=
  let body := dropSign cs
  let front := body.takeWhile (· != '.')
  let back := (body.dropWhile (· != '.')).drop 1
  if !body.contains '.' then false
  else if front.isEmpty then
    (["inf", "Inf", "INF"].map String.toList).contains back ||
      (body == cs &&
        ((["nan", "NaN", "NAN"].map String.toList).contains back ||
          (isDigits (back.takeWhile isDigitMark) && isExponentOrEnd (back.dropWhile isDigitMark))))
  else
    (isDigits front && isExponentOrEnd (back.dropWhile isDigitMark)) ||
      (isSexagesimal isDigits front && back.all isDigitMark)

def truthWords : List (String × Bool) :=
  [("yes", true), ("no", false), ("true", true), ("false", false), ("on", true), ("off", false)]

def isSpelling (word : String) (cs : List Char) : Bool :=
  let small := word.toList
  let large := small.map fun c => Char.ofNat (c.toNat - 32)
  cs == small || cs == large || cs == large.take 1 ++ small.drop 1

def isBool (cs : List Char) : Bool := truthWords.any fun w => isSpelling w.1 cs

def isNull (cs : List Char) : Bool := cs.isEmpty || cs == ['~'] || isSpelling "null" cs

end Plain

end WorkflowCatalog.Yaml
