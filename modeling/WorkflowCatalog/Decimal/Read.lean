/-
  WorkflowCatalog/Decimal/Read.lean
  =================================
  **Reading numbers.**  `readFloat?` takes the decimal forms of a number with a
  fraction and the words for infinity and for what is no number; `readInteger`
  takes an integer in one of the bases 2, 8, 10 and 16.  Digits of any script
  count, and blanks around the number do not.
-/
import WorkflowCatalog.Decimal.Binary64
import WorkflowCatalog.Text.Blank
import WorkflowCatalog.Text.Case

namespace WorkflowCatalog.Decimal

open Text

/-! ### Digits -/

def natOfDigits (ds : List Char) : Nat := Nat.ofDigitChars 10 ds 0

/-- Digits of other scripts as ASCII digits; other characters stay. -/
def westernDigits (cs : List Char) : List Char :=
  cs.map fun c =>
    if c.toNat < 0x80 then c
    else match digitValue? c with
      | some d => Nat.digitChar d
      | none => c

/-- A sign, if there is one, and the rest. -/
def takeSign : List Char → Bool × List Char
  | '-' :: cs => (true, cs)
  | '+' :: cs => (false, cs)
  | cs => (false, cs)

/-! ### Numbers with a fraction -/

/-- Digits with a point and an exponent, both optional, but at least one digit in
    front of the exponent. -/
def readUnsigned? (negative : Bool) (cs : List Char) : Option Binary64 :=
  let whole := cs.takeWhile isAsciiDigit
  let rest := cs.dropWhile isAsciiDigit
  let (fraction, rest) := match rest with
    | '.' :: r => (r.takeWhile isAsciiDigit, r.dropWhile isAsciiDigit)
    | _ => ([], rest)
  if whole.isEmpty && fraction.isEmpty then none
  else
    let digits := natOfDigits (whole ++ fraction)
    match rest with
    | [] => some (.ofDecimal negative digits (-fraction.length))
    | e :: r =>
      let (down, ds) := takeSign r
      if (e == 'e' || e == 'E') && !ds.isEmpty && ds.all isAsciiDigit then
        let power : Int := natOfDigits ds
        some (.ofDecimal negative digits ((if down then -power else power) - fraction.length))
      else none

/-- A number in ASCII, with a sign if any; the words may be in any letter case. -/
def readAsciiFloat? (cs : List Char) : Option Binary64 :=
  let (negative, body) := takeSign cs
  let word := body.flatMap lowerChar
  if word = ['n', 'a', 'n'] then some .nan
  else if word = ['i', 'n', 'f'] || word = ['i', 'n', 'f', 'i', 'n', 'i', 't', 'y'] then
    some (.infinite negative)
  else readUnsigned? negative body

def readFloat? (cs : List Char) : Option Binary64 :=
  readAsciiFloat? (trimBoth isNumberBlank (westernDigits cs))

/-! ### Integers -/

/-- Why a text is no integer. -/
inductive IntegerFault where
  /-- It does not have the form of an integer in the base. -/
  | malformed
  /-- It has more decimal digits than are accepted. -/
  | tooLong (digits : Nat)
  deriving DecidableEq, Repr

def maxIntegerDigits : Nat := 4300

/-- The value of a digit in bases up to sixteen. -/
def hexValue? (c : Char) : Option Nat :=
  if isAsciiDigit c then some (c.toNat - 48)
  else if 'a' ≤ c && c ≤ 'f' then some (c.toNat - 87)
  else if 'A' ≤ c && c ≤ 'F' then some (c.toNat - 55)
  else none

def isDigitOf (base : Nat) (c : Char) : Bool :=
  match hexValue? c with
  | some d => d < base
  | none => false

def natOfBase (base : Nat) (ds : List Char) : Nat :=
  ds.foldl (fun n c => n * base + (hexValue? c).getD 0) 0

/-- Drops the mark of the base (`0b`, `0o`, `0x` in either letter case). -/
def dropBaseMark (base : Nat) : List Char → List Char
  | '0' :: c :: cs =>
    let marks := match base with
      | 2 => ['b', 'B']
      | 8 => ['o', 'O']
      | 16 => ['x', 'X']
      | _ => []
    if marks.contains c then cs else '0' :: c :: cs
  | cs => cs

/-- Reads an integer: blanks, a sign, a mark of the base, digits, blanks. -/
def readInteger (base : Nat) (text : List Char) : Except IntegerFault Int :=
  let (negative, body) := takeSign (trimBoth isNumberBlank (westernDigits text))
  let digits := dropBaseMark base body
  let run := (digits.takeWhile (isDigitOf base)).length
  if base = 10 && maxIntegerDigits < run then .error (.tooLong run)
  else if digits.isEmpty || run < digits.length then .error .malformed
  else
    let n : Int := natOfBase base digits
    .ok (if negative then -n else n)

end WorkflowCatalog.Decimal
