/-
  WorkflowCatalog/Json/Reader.lean
  ================================
  **Reading a JSON text.**  A number with a point or an exponent is read as a
  number of double precision, any other as an integer of any size; the words for
  infinity and for what is no number are taken too.  A key that occurs again takes
  the later value at its first place.

  The reader calls itself with one unit of fuel less.  Of any two calls, one inside
  the other, at least one has taken a character from the text in between, so the
  two units a character that `Json.parse?` gives are enough.
-/
import WorkflowCatalog.Json.Basic
import WorkflowCatalog.Decimal.Read

namespace WorkflowCatalog.Json

open Decimal Text

/-! ### Leaves -/

def isSpace (c : Char) : Bool := c == ' ' || c == '\n' || c == '\r' || c == '\t'

/-- The text after its blanks. -/
def skipSpace (cs : List Char) : List Char := cs.dropWhile isSpace

def readUnit? : List Char → Option (Nat × List Char)
  | a :: b :: c :: d :: rest =>
    if [a, b, c, d].all (isDigitOf 16) then some (natOfBase 16 [a, b, c, d], rest) else none
  | _ => none

def escapeLetter? : Char → Option Char
  | '"' => some '"'
  | '\\' => some '\\'
  | '/' => some '/'
  | 'b' => some '\x08'
  | 'f' => some '\x0c'
  | 'n' => some '\n'
  | 'r' => some '\r'
  | 't' => some '\t'
  | _ => none

/-- The rest of a string after its opening quote, and the text after the closing
    one.  Two units that make a pair stand for one character. -/
def readString? : Nat → List Char → Option (List Char × List Char)
  | 0, _ => none
  | _ + 1, '"' :: rest => some ([], rest)
  | fuel + 1, '\\' :: 'u' :: rest => do
    let (hi, rest) ← readUnit? rest
    if 0xd800 ≤ hi ∧ hi < 0xdc00 then
      match rest with
      | '\\' :: 'u' :: more =>
        let (lo, more) ← readUnit? more
        if 0xdc00 ≤ lo ∧ lo < 0xe000 then
          let (s, rest) ← readString? fuel more
          some (Char.ofNat (0x10000 + (hi - 0xd800) * 0x400 + (lo - 0xdc00)) :: s, rest)
        else none
      | _ => none
    else
      let (s, rest) ← readString? fuel rest
      some (Char.ofNat hi :: s, rest)
  | fuel + 1, '\\' :: c :: rest => do
    let c ← escapeLetter? c
    let (s, rest) ← readString? fuel rest
    some (c :: s, rest)
  | fuel + 1, c :: rest =>
    if c.toNat < 0x20 then none
    else do
      let (s, rest) ← readString? fuel rest
      some (c :: s, rest)
  | _, [] => none

/-- Characters that a number may hold. -/
def isNumberChar (c : Char) : Bool :=
  isAsciiDigit c || c == '-' || c == '+' || c == '.' || c == 'e' || c == 'E'

/-- A number of the JSON grammar: no needless zero in front, a digit on each side
    of the point. -/
def readNumber? (cs : List Char) : Option Json := do
  let (negative, body) := match cs with
    | '-' :: r => (true, r)
    | _ => (false, cs)
  let whole := body.takeWhile isAsciiDigit
  if whole.isEmpty || (whole.head? == some '0' && 1 < whole.length) then none
  if whole.length == body.length then
    let n : Int := natOfDigits whole
    some (.int (if negative then -n else n))
  else
    match body.dropWhile isAsciiDigit with
    | '.' :: r => if (r.takeWhile isAsciiDigit).isEmpty then none
    | _ => pure ()
    return .float (← readUnsigned? negative body)

def dropWord? : List Char → List Char → Option (List Char)
  | [], cs => some cs
  | w :: ws, c :: cs => if w = c then dropWord? ws cs else none
  | _ :: _, [] => none

def words : List (List Char × Json) :=
  [(['n', 'u', 'l', 'l'], .null), (['t', 'r', 'u', 'e'], .bool true),
    (['f', 'a', 'l', 's', 'e'], .bool false), (['N', 'a', 'N'], .float .nan),
    ("Infinity".toList, .float (.infinite false)), ("-Infinity".toList, .float (.infinite true))]

def readWord? (cs : List Char) : Option (Json × List Char) :=
  words.findSome? fun w => (dropWord? w.1 cs).map fun rest => (w.2, rest)

/-! ### Values -/

mutual

/-- A value at the front of a text, blanks before it included. -/
def readValue? : Nat → List Char → Option (Json × List Char)
  | 0, _ => none
  | fuel + 1, cs =>
    match skipSpace cs with
    | '"' :: rest => do
      let (s, rest) ← readString? (rest.length + 1) rest
      some (str (String.ofList s), rest)
    | '[' :: rest =>
      match skipSpace rest with
      | ']' :: rest => some (.arr [], rest)
      | rest => do
        let (items, rest) ← readItems? fuel rest
        some (.arr items, rest)
    | '{' :: rest =>
      match skipSpace rest with
      | '}' :: rest => some (.obj [], rest)
      | rest => do
        let (members, rest) ← readMembers? fuel rest
        some (.obj (ofAssignments members), rest)
    | rest =>
      match readWord? rest with
      | some r => some r
      | none => do
        let v ← readNumber? (rest.takeWhile isNumberChar)
        some (v, rest.dropWhile isNumberChar)

/-- The items of an array that is not empty, up to its end. -/
def readItems? : Nat → List Char → Option (List Json × List Char)
  | 0, _ => none
  | fuel + 1, cs => do
    let (v, rest) ← readValue? fuel cs
    match skipSpace rest with
    | ']' :: rest => some ([v], rest)
    | ',' :: rest =>
      let (vs, rest) ← readItems? fuel rest
      some (v :: vs, rest)
    | _ => none

/-- The members of an object that is not empty, up to its end. -/
def readMembers? : Nat → List Char → Option (List (String × Json) × List Char)
  | 0, _ => none
  | fuel + 1, cs =>
    match skipSpace cs with
    | '"' :: rest => do
      let (k, rest) ← readString? (rest.length + 1) rest
      match skipSpace rest with
      | ':' :: rest =>
        let (v, rest) ← readValue? fuel rest
        match skipSpace rest with
        | '}' :: rest => some ([(String.ofList k, v)], rest)
        | ',' :: rest =>
          let (ms, rest) ← readMembers? fuel rest
          some ((String.ofList k, v) :: ms, rest)
        | _ => none
      | _ => none
    | _ => none

end

/-- The value of a JSON text: one value with blanks around it. -/
def parse? (s : String) : Option Json := do
  let cs := s.toList
  let (v, rest) ← readValue? (2 * cs.length + 2) cs
  if (skipSpace rest).isEmpty then some v else none

end WorkflowCatalog.Json
