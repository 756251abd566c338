/-
  WorkflowCatalog/Validation/Scalar.lean
  ======================================
  **Checks of texts, truth values and numbers.**  Numbers and truth values may also
  arrive as text.  A whole number is first made plain: blanks around it, a plus, zeros
  in front, zeros behind a point and single underscores are taken away, in this order.
-/
import WorkflowCatalog.Validation.Basic
import WorkflowCatalog.Decimal.Read

namespace WorkflowCatalog.Validation

open Text Decimal

/-! ### Texts -/

/-- A text, which may hold halves of surrogate pairs. -/
def codeText : Json → Checked CodeText
  | .string t => .ok t
  | _ => .problem .notText

/-- A text without halves. -/
def text (v : Json) : Checked String :=
  (codeText v).andThen fun t =>
    match t.toString? with
    | some s => .ok s
    | none => .problem .notUnicode

/-- A text of at least one character. -/
abbrev SomeText := { s : String // s ≠ "" }

/-- A text of at least one character. -/
def someText (v : Json) : Checked SomeText :=
  (text v).andThen fun s => if h : s ≠ "" then .ok ⟨s, h⟩ else .problem .textTooShort

/-! ### Numbers -/

/-- Drops the underscores of a number if each stands alone and none at an end. -/
def joinGroups? (cs : List Char) : Option (List Char) :=
  let twice := (cs.zip (cs.drop 1)).any fun p => p.1 == '_' && p.2 == '_'
  if twice || cs.head? == some '_' || cs.getLast? == some '_' then none
  else some (cs.filter (· != '_'))

/-- A whole number without the zeros behind its point. -/
def dropPointZeros (cs : List Char) : List Char :=
  let back := (cs.dropWhile (· != '.')).drop 1
  if !back.isEmpty && back.all (· == '0') then cs.takeWhile (· != '.') else cs

/-- A number behind zeros and underscores in front of it, the last of which is `last`.
    It begins with another digit or with a minus; the last zero stays in front of a
    point, and where nothing follows. -/
def dropZerosAfter (last : Char) : List Char → Option (List Char)
  | [] => some [last]
  | c :: cs =>
    if c == '0' || c == '_' then dropZerosAfter c cs
    else if isAsciiDigit c || c == '-' then some (c :: cs)
    else if c == '.' then some (last :: c :: cs)
    else none

/-- A number without the zeros in front.  It begins with a digit or with a minus. -/
def dropLeadingZeros : List Char → Option (List Char)
  | [] => none
  | c :: cs =>
    if c == '0' then dropZerosAfter c cs
    else if isAsciiDigit c || c == '-' then some (c :: cs)
    else none

def dropPlus : List Char → List Char
  | '+' :: d :: cs => if isAsciiDigit d then d :: cs else '+' :: d :: cs
  | cs => cs

/-- Reads an integer in its plain form: a minus or none, and digits without a needless
    zero in front.  The length of the sign and the digits is looked at before what
    follows them. -/
def plainInt (cs : List Char) : Checked Int :=
  let (negative, body) := match cs with
    | '-' :: ds => (true, ds)
    | _ => (false, cs)
  let run := (body.takeWhile isAsciiDigit).length
  let long := maxIntegerDigits < run + (if negative then 1 else 0)
  if body.head? == some '0' then if run = 1 ∧ body.length = 1 then .ok 0 else .problem .intText
  else if long then .problem .intTextSize
  else if run = 0 ∨ run < body.length then .problem .intText
  else
    let n : Int := natOfDigits body
    .ok (if negative then -n else n)

def intOfText (s : String) : Checked Int :=
  match dropLeadingZeros (dropPlus (trimBoth isNumberBlank s.toList)) with
  | none => .problem .intText
  | some cs =>
    let body := dropPointZeros cs
    plainInt ((joinGroups? body).getD body)

def wordSize : Int := Nat.pow 2 63

/-- The machine integer that a number with a fraction is, if it is one. -/
def wordOfFloat? (x : Binary64) : Option Int :=
  x.toInt?.filter fun n => -wordSize < n ∧ n < wordSize

def int : Json → Checked Int
  | .int n => .ok n
  | .bool b => .ok (if b then 1 else 0)
  | .string t => intOfText (t.toString?.getD "")
  | .float (.finite s m q) =>
    let x := Binary64.finite s m q
    match wordOfFloat? x with
    | some n => .ok n
    | none => .problem (if x.toInt?.isSome then .intTextSize else .intFromFloat)
  | .float _ => .problem .notFinite
  | _ => .problem .notInt

/-- An integer that is not below a bound. -/
def intFrom (least : Int) (v : Json) : Checked { n : Int // least ≤ n } :=
  (int v).andThen fun n => if h : least ≤ n then .ok ⟨n, h⟩ else .problem .belowLeast

def intBetween (least greatest : Int) (v : Json) : Checked { n : Int // least ≤ n ∧ n ≤ greatest } :=
  (intFrom least v).andThen fun n =>
    if h : n.1 ≤ greatest then .ok ⟨n.1, n.2, h⟩ else .problem .aboveGreatest

/-- A number with a fraction given as text: with blanks around it or with underscores in
    it, but not both. -/
def floatOfText (s : String) : Checked Binary64 :=
  match readAsciiFloat? (trimBoth isNumberBlank s.toList) with
  | some x => .ok x
  | none =>
    match (joinGroups? s.toList).bind readAsciiFloat? with
    | some x => .ok x
    | none => .problem .floatText

def float : Json → Checked Binary64
  | .float x => .ok x
  | .int n =>
    match Binary64.ofInt n with
    | .infinite _ => .problem .notFloat
    | x => .ok x
  | .bool b => .ok (Binary64.ofInt (if b then 1 else 0))
  | .string t => floatOfText (t.toString?.getD "")
  | _ => .problem .notFloat

def positiveFloat (v : Json) : Checked { x : Binary64 // x.isPositive = true } :=
  (float v).andThen fun x => if h : x.isPositive = true then .ok ⟨x, h⟩ else .problem .notAbove

/-! ### Truth values -/

def trueWords : List String := ["1", "on", "t", "true", "y", "yes"]

def falseWords : List String := ["0", "off", "f", "false", "n", "no"]

def asciiLower (s : String) : String :=
  String.ofList (s.toList.map fun c => if isAsciiUpper c then Char.ofNat (c.toNat + 32) else c)

def boolOfInt (n : Int) : Checked Bool :=
  if n = 0 then .ok false else if n = 1 then .ok true else .problem .boolText

def boolOfText (s : String) : Checked Bool :=
  let w := asciiLower s
  if trueWords.contains w then .ok true
  else if falseWords.contains w then .ok false
  else .problem .boolText

/-- A truth value.  A number counts if it is a machine integer. -/
def bool : Json → Checked Bool
  | .bool b => .ok b
  | .int n => if -wordSize ≤ n ∧ n < wordSize then boolOfInt n else .problem .notBool
  | .float x =>
    match wordOfFloat? x with
    | some n => boolOfInt n
    | none => .problem .notBool
  | .string t => boolOfText (t.toString?.getD "")
  | _ => .problem .notBool

end WorkflowCatalog.Validation
