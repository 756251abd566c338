/-
  WorkflowCatalog/Yaml/Scalar.lean
  ================================
  **The values that scalars denote under their tags.**  Underscores inside numbers do
  not count.  A sexagesimal number is read place by place.  No number, truth value or
  point in time holds one half of a surrogate pair, but the messages about them show
  it.
-/
import WorkflowCatalog.Yaml.Value
import WorkflowCatalog.Yaml.Tag
import WorkflowCatalog.Yaml.Cursor
import WorkflowCatalog.Text.Case

namespace WorkflowCatalog.Yaml

open Text Decimal

namespace Scalar

/-! ### Numbers -/

def integer (base : Nat) (ps : List CodePoint) : Read Int :=
  match readInteger base (ps.map CodePoint.standIn) with
  | .ok n => .ok n
  | .error .malformed => .error (.unusable (.integer base ps))
  | .error (.tooLong n) => .error (.unusable (.integerLength n))

def sixtieths (places : List Int) : Int := places.foldl (fun n d => n * 60 + d) 0

/-- An integer without its sign. -/
def unsignedInt (ps : List CodePoint) : Read Int :=
  match ps with
  | [] => .error (.broken .emptyNumber)
  | [.char '0'] => .ok 0
  | .char '0' :: .char 'b' :: ds => integer 2 ds
  | .char '0' :: .char 'x' :: ds => integer 16 ds
  | .char '0' :: _ => integer 8 ps
  | _ =>
    if ps.contains (.char ':') then do
      .ok (sixtieths (← (splitOn (.char ':') ps).mapM (integer 10)))
    else integer 10 ps

/-- A text without underscores. -/
def dropUnderscores (ps : List CodePoint) : List CodePoint := ps.filter (· != .char '_')

def int (text : CodeText) : Read Int :=
  match dropUnderscores text.points with
  | [] => .error (.broken .emptyNumber)
  | .char '-' :: ps => do .ok (-(← unsignedInt ps))
  | .char '+' :: ps => unsignedInt ps
  | ps => unsignedInt ps

def number (ps : List CodePoint) : Read Binary64 :=
  match readFloat? (ps.map CodePoint.standIn) with
  | some x => .ok x
  | none => .error (.unusable (.float ps))

/-- The sum of sexagesimal places, the last place first; each is given the weight of
    its place, which has to be in the range of finite numbers. -/
def weighted : Nat → List Binary64 → Binary64 → Read Binary64
  | _, [], sum => .ok sum
  | place, d :: ds, sum =>
    let weight := Binary64.ofInt (Nat.pow 60 place)
    if weight = .infinite false then .error (.broken .outOfRange)
    else weighted (place + 1) ds (sum.add (d.mul weight))

/-- A number with a fraction, without its sign. -/
def unsignedFloat (ps : List CodePoint) : Read Binary64 :=
  if ps = ofChars ".inf".toList then .ok (.infinite false)
  else if ps = ofChars ".nan".toList then .ok .nan
  else if ps.contains (.char ':') then do
    let places ← (splitOn (.char ':') ps).mapM number
    weighted 0 places.reverse (Binary64.zero false)
  else number ps

def float (text : CodeText) : Read Binary64 :=
  match lowerPoints (dropUnderscores text.points) with
  | [] => .error (.broken .emptyNumber)
  | .char '-' :: ps => do .ok (← unsignedFloat ps).neg
  | .char '+' :: ps => unsignedFloat ps
  | ps => unsignedFloat ps

/-! ### Truth values and points in time -/

def bool (text : CodeText) : Read Bool :=
  let word := text.toString?.map lowerString
  match Plain.truthWords.find? fun w => some w.1 == word with
  | some w => .ok w.2
  | none => .error (.broken .unknownTruthWord)

/-- The point in time that a text denotes; a line end at its end does not count. -/
def time (text : CodeText) : Read Timestamp :=
  match (text.chars?.map Plain.dropLastBreak).bind Timestamp.fields? with
  | none => .error (.broken .malformedTime)
  | some (t, _) =>
    match t.problem? with
    | some p => .error (.unusable p)
    | none => .ok t

/-! ### Binary data -/

def isBase64 (c : Char) : Bool := isAsciiAlnum c || c == '+' || c == '/'

/-- Does a group of four digits stay open?  `open4` counts the digits of the group in
    hand and `pads` the signs that fill it up; a full group ends the data if it holds
    such a sign.  Other characters are passed over.  `count` is the number of
    digits. -/
def base64Open (open4 pads count : Nat) : List Char → Option (Nat × Nat)
  | [] => if open4 = 0 then none else some (open4, count)
  | c :: cs =>
    if c == '=' then
      if 2 ≤ open4 then
        if 4 ≤ open4 + pads + 1 then none else base64Open open4 (pads + 1) count cs
      else base64Open open4 pads count cs
    else if isBase64 c then base64Open ((open4 + 1) % 4) 0 (count + 1) cs
    else base64Open open4 pads count cs

/-- The first run of code points outside ASCII: its position and the run. -/
def firstForeign (position : Nat) : List CodePoint → Option (Nat × List CodePoint)
  | [] => none
  | p :: ps =>
    if p.number < 0x80 then firstForeign (position + 1) ps
    else some (position, p :: ps.takeWhile fun q => !decide (q.number < 0x80))

def numbered (p : CodePoint) : String :=
  let n := p.number
  String.ofList <|
    if n < 0x100 then '\\' :: 'x' :: hexDigits 2 n
    else if n < 0x10000 then '\\' :: 'u' :: hexDigits 4 n
    else '\\' :: 'U' :: hexDigits 8 n

/-- What is wrong with the text of binary data, if anything is. -/
def binaryProblem? (text : CodeText) : Option Problem :=
  match firstForeign 0 text.points with
  | some (p, run) =>
    let place := match run with
      | [c] => "character '" ++ numbered c ++ "' in position " ++ toString p
      | _ => "characters in position " ++ toString p ++ "-" ++ toString (p + run.length - 1)
    some (.base64NotAscii
      ("'ascii' codec can't encode " ++ place ++ ": ordinal not in range(128)"))
  | none =>
    match base64Open 0 0 0 (text.points.map CodePoint.standIn) with
    | none => none
    | some (1, count) =>
      some (.base64Malformed
        ("Invalid base64-encoded string: number of data characters (" ++ toString count ++
          ") cannot be 1 more than a multiple of 4"))
    | some _ => some (.base64Malformed "Incorrect padding")

/-! ### All tags of scalars -/

/-- The value of a scalar with a tag; `none` if the tag is not one of scalars. -/
def value? (tag : Tag) (text : CodeText) (start : Mark) : Option (Read Value) :=
  match tag with
  | .null => some (.ok .null)
  | .bool => some (Value.bool <$> bool text)
  | .int => some (Value.int <$> int text)
  | .float => some (Value.float <$> float text)
  | .timestamp => some (Value.time <$> time text)
  | .text => some (.ok (.text text))
  | .binary =>
    some <| match binaryProblem? text with
      | some p => .error (.invalid p start)
      | none => .ok .bytes
  | _ => none

end Scalar

end WorkflowCatalog.Yaml
