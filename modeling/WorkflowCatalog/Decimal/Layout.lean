/-
  WorkflowCatalog/Decimal/Layout.lean
  ===================================
  **How the digits are laid out.**  The decisions of a number format stand in one
  record; `Layout.render` follows them.  A number whose leading digit has the
  weight `10 ^ e` is written positionally for `positionalFrom ≤ e < positionalBelow`
  and with an exponent otherwise.
-/
import WorkflowCatalog.Decimal.Shortest

namespace WorkflowCatalog.Decimal

structure Layout where
  /-- Least weight exponent of the leading digit that is written positionally. -/
  positionalFrom : Int
  /-- First weight exponent that is no longer written positionally. -/
  positionalBelow : Int
  /-- Is `.0` added to a whole number in positional form? -/
  wholeWithPoint : Bool
  /-- Least number of digits of an exponent. -/
  exponentWidth : Nat
  /-- Text of the number that is not one. -/
  nanText : String
  /-- Text of the number beyond all finite ones. -/
  infiniteText : String

namespace Layout

/-- A natural with at least `width` digits. -/
def padded (width n : Nat) : List Char :=
  let ds := Nat.toDigits 10 n
  List.replicate (width - ds.length) '0' ++ ds

/-- The text of `d · 10 ^ p`, sign apart. -/
def body (l : Layout) (x : Scientific) : List Char :=
  let ds := Nat.toDigits 10 x.digits
  let e := x.exponent + ds.length - 1
  if x.digits = 0 || (decide (l.positionalFrom ≤ e) && decide (e < l.positionalBelow)) then
    if 0 ≤ x.exponent then
      ds ++ List.replicate x.exponent.toNat '0' ++ (if l.wholeWithPoint then ['.', '0'] else [])
    else
      let all := List.replicate (-e).toNat '0' ++ ds
      let whole := all.length - (-x.exponent).toNat
      all.take whole ++ '.' :: all.drop whole
  else
    let tail := match ds with
      | d :: [] => [d]
      | d :: rest => d :: '.' :: rest
      | [] => []
    tail ++ 'e' :: (if e < 0 then '-' else '+') :: padded l.exponentWidth e.natAbs

def render (l : Layout) (digits : Nat → Int → Scientific) : Binary64 → String
  | .nan => l.nanText
  | .infinite s => (if s then "-" else "") ++ l.infiniteText
  | .finite s m q => String.ofList ((if s then ['-'] else []) ++ l.body (digits m q))

end Layout

/-- Numbers in messages and manifests keep a point and turn to an exponent from
    `10 ^ 16` on and below `10 ^ -4`. -/
def plainLayout : Layout := ⟨-4, 16, true, 2, "nan", "inf"⟩

/-- A time limit is shown with at most six digits and without a needless point. -/
def limitLayout : Layout := ⟨-4, 6, false, 2, "nan", "inf"⟩

def Binary64.text (x : Binary64) : String := plainLayout.render shortest x

def Binary64.limitText (x : Binary64) : String := limitLayout.render (significant 6) x

end WorkflowCatalog.Decimal
