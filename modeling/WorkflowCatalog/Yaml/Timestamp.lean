/-
  WorkflowCatalog/Yaml/Timestamp.lean
  ===================================
  **Points in time.**  `Timestamp.fields?` reads the written form: a date, or a date
  and a time of day with a fraction of a second and a zone, both optional.
  `Timestamp.ofFields` checks the fields against the calendar.  `Timestamp.text`
  writes a point in time in one form only.
-/
import WorkflowCatalog.Yaml.Fault
import WorkflowCatalog.Decimal.Read

namespace WorkflowCatalog.Yaml

open Text Decimal

/-- A time of day; `micro` counts millionths of a second and `offset` the minutes
    that the zone is ahead. -/
structure TimeOfDay where
  hour : Nat
  minute : Nat
  second : Nat
  micro : Nat
  offset : Option Int
  deriving DecidableEq, Repr

/-- A date, with a time of day or without. -/
structure Timestamp where
  year : Nat
  month : Nat
  day : Nat
  time : Option TimeOfDay
  deriving DecidableEq, Repr

namespace Timestamp

/-! ### The written form -/

/-- Between `least` and `most` digits in front of a text, as many as there are. -/
def takeDigits? (least most : Nat) (cs : List Char) : Option (Nat × Nat × List Char) :=
  let run := (cs.takeWhile isAsciiDigit).take most
  if run.length < least then none else some (natOfDigits run, run.length, cs.drop run.length)

def takeChar? (c : Char) : List Char → Option (List Char)
  | d :: cs => if d = c then some cs else none
  | [] => none

def isGap (c : Char) : Bool := c == ' ' || c == '\t'

/-- The zone at the end of a time: none, `Z`, or hours and minutes with a sign. -/
def zone? (cs : List Char) : Option (Option Int) :=
  if cs.isEmpty then some none
  else
    match cs.dropWhile isGap with
    | ['Z'] => some (some 0)
    | s :: rest =>
      if s == '+' || s == '-' then do
        let (hours, _, rest) ← takeDigits? 1 2 rest
        let minutes ← match rest with
          | [] => some 0
          | ':' :: rest => do
            let (m, _, rest) ← takeDigits? 2 2 rest
            if rest.isEmpty then some m else none
          | _ => none
        let total : Int := hours * 60 + minutes
        some (some (if s == '-' then -total else total))
      else none
    | [] => none

/-- Millionths of a second from the digits of a fraction; further digits are cut. -/
def microOfDigits (ds : List Char) : Nat :=
  let six := ds.take 6
  natOfDigits (six ++ List.replicate (6 - six.length) '0')

def time? (cs : List Char) : Option TimeOfDay := do
  let rest ← match cs with
    | 'T' :: rest => some rest
    | 't' :: rest => some rest
    | c :: _ => if isGap c then some (cs.dropWhile isGap) else none
    | [] => none
  let (hour, _, rest) ← takeDigits? 1 2 rest
  let rest ← takeChar? ':' rest
  let (minute, _, rest) ← takeDigits? 2 2 rest
  let rest ← takeChar? ':' rest
  let (second, _, rest) ← takeDigits? 2 2 rest
  let (fraction, rest) := match rest with
    | '.' :: r => (r.takeWhile isAsciiDigit, r.dropWhile isAsciiDigit)
    | _ => ([], rest)
  let offset ← zone? rest
  some ⟨hour, minute, second, microOfDigits fraction, offset⟩

/-- The fields of a written point in time, and whether month and day have two digits
    each. -/
def fields? (cs : List Char) : Option (Timestamp × Bool) := do
  let (year, _, rest) ← takeDigits? 4 4 cs
  let rest ← takeChar? '-' rest
  let (month, m, rest) ← takeDigits? 1 2 rest
  let rest ← takeChar? '-' rest
  let (day, d, rest) ← takeDigits? 1 2 rest
  let time ← if rest.isEmpty then some none else (time? rest).map some
  some (⟨year, month, day, time⟩, m == 2 && d == 2)

/-- Does a plain scalar have the form of a point in time?  A date alone needs two
    digits for month and day. -/
def isPlain (cs : List Char) : Bool :=
  match fields? cs with
  | some (t, full) => t.time.isSome || full
  | none => false

/-! ### The calendar -/

def isLeap (y : Nat) : Bool := y % 4 == 0 && (y % 100 != 0 || y % 400 == 0)

def daysInMonth (y m : Nat) : Nat :=
  if m = 2 then (if isLeap y then 29 else 28)
  else if [4, 6, 9, 11].contains m then 30
  else 31

/-- The first field of a point in time that the calendar does not know. -/
def problem? (t : Timestamp) : Option ValueProblem :=
  let zone := t.time.bind (·.offset)
  let far := zone.filter fun o => o ≤ -1440 ∨ 1440 ≤ o
  if let some o := far then some (.offset o)
  else if t.year < 1 ∨ 9999 < t.year then some (.year t.year)
  else if t.month < 1 ∨ 12 < t.month then some .month
  else if t.day < 1 ∨ daysInMonth t.year t.month < t.day then some .day
  else match t.time with
    | none => none
    | some c =>
      if 23 < c.hour then some .hour
      else if 59 < c.minute then some .minute
      else if 59 < c.second then some .second
      else none

/-! ### One text for each -/

/-- A natural with at least `width` digits. -/
def padded (width n : Nat) : String :=
  let ds := Nat.toDigits 10 n
  String.ofList (List.replicate (width - ds.length) '0' ++ ds)

def offsetText (minutes : Int) : String :=
  let n := minutes.natAbs
  (if minutes < 0 then "-" else "+") ++ padded 2 (n / 60) ++ ":" ++ padded 2 (n % 60)

/-- The text of a point in time; millionths are written only if there are any. -/
def text (t : Timestamp) : String :=
  let date := padded 4 t.year ++ "-" ++ padded 2 t.month ++ "-" ++ padded 2 t.day
  match t.time with
  | none => date
  | some c =>
    date ++ "T" ++ padded 2 c.hour ++ ":" ++ padded 2 c.minute ++ ":" ++ padded 2 c.second ++
      (if c.micro = 0 then "" else "." ++ padded 6 c.micro) ++
      (match c.offset with
        | some o => offsetText o
        | none => "")

end Timestamp

end WorkflowCatalog.Yaml
