/-
  WorkflowCatalog/Text/Utf8.lean
  ==============================
  **Decoding UTF-8, with the first fault described.**  Surrogates, overlong forms
  and numbers above U+10FFFF are faults.  A fault covers the bytes that could still
  have begun a character.
-/
namespace WorkflowCatalog.Text.Utf8

/-- What is wrong with a byte sequence. -/
inductive Defect where
  /-- No character begins with this byte. -/
  | start
  /-- The sequence goes on with a byte that cannot stand there. -/
  | continuation
  /-- The bytes end inside a character. -/
  | truncated
  deriving DecidableEq, Repr

/-- A fault at a position, covering `length` bytes. -/
structure Fault where
  defect : Defect
  position : Nat
  length : Nat
  first : Nat
  deriving DecidableEq, Repr

def isTail (b : Nat) : Bool := 0x80 ≤ b && b < 0xc0

/-- Number of bytes that follow a first byte, with the least and the greatest value
    of the next one. -/
def lead (b : Nat) : Option (Nat × Nat × Nat) :=
  if b < 0xc2 then none
  else if b < 0xe0 then some (1, 0x80, 0xbf)
  else if b < 0xf0 then
    some (2, if b = 0xe0 then 0xa0 else 0x80, if b = 0xed then 0x9f else 0xbf)
  else if b < 0xf5 then
    some (3, if b = 0xf0 then 0x90 else 0x80, if b = 0xf4 then 0x8f else 0xbf)
  else none

/-- The part of a first byte that belongs to the number of the character. -/
def leadBits (count b : Nat) : Nat :=
  if count = 1 then b % 0x20 else if count = 2 then b % 0x10 else b % 0x08

/-- Reads the last `count` bytes of a character whose first bytes gave `value`;
    `seen` bytes of it have been read.  The result is the character and the rest, or
    the defect and the number of bytes it covers. -/
def tail (seen value : Nat) : Nat → List Nat → Except (Defect × Nat) (Nat × List Nat)
  | 0, bs => .ok (value, bs)
  | _ + 1, [] => .error (.truncated, seen)
  | count + 1, b :: bs =>
    if isTail b then tail (seen + 1) (value * 0x40 + b % 0x40) count bs
    else .error (.continuation, seen)

def next (b : Nat) (bs : List Nat) : Except (Defect × Nat) (Nat × List Nat) :=
  if b < 0x80 then .ok (b, bs)
  else match lead b with
    | none => .error (.start, 1)
    | some (count, low, high) =>
      match bs with
      | [] => .error (.truncated, 1)
      | c :: cs =>
        if low ≤ c ∧ c ≤ high then tail 2 (leadBits count b * 0x40 + c % 0x40) (count - 1) cs
        else .error (.continuation, 1)

/-- Decodes a byte sequence; `fuel` bounds the number of characters. -/
def decodeFrom (position : Nat) : Nat → List Nat → Except Fault (List Char)
  | _, [] => .ok []
  | 0, _ => .ok []
  | fuel + 1, b :: bs =>
    match next b bs with
    | .error (defect, n) => .error ⟨defect, position, n, b⟩
    | .ok (value, rest) =>
      (decodeFrom (position + (bs.length + 1 - rest.length)) fuel rest).map (Char.ofNat value :: ·)

def decode (bytes : List Nat) : Except Fault (List Char) := decodeFrom 0 bytes.length bytes

def Defect.reason : Defect → String
  | .start => "invalid start byte"
  | .continuation => "invalid continuation byte"
  | .truncated => "unexpected end of data"

def Fault.message (f : Fault) : String :=
  let place :=
    if f.length = 1 then
      "byte 0x" ++ String.ofList (Nat.toDigits 16 f.first) ++ " in position " ++ toString f.position
    else
      "bytes in position " ++ toString f.position ++ "-" ++ toString (f.position + f.length - 1)
  "'utf-8' codec can't decode " ++ place ++ ": " ++ f.defect.reason

end WorkflowCatalog.Text.Utf8
