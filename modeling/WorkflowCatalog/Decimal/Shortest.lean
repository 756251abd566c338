/-
  WorkflowCatalog/Decimal/Shortest.lean
  =====================================
  **Which digits are written.**  `shortest m q` is the decimal with the fewest
  digits that reads back as `m · 2 ^ q`, and of those the one nearest to it;
  `significant n m q` is the value rounded to `n` digits.  Both work by exact
  comparison of naturals.

  The reals that read back as the number form an interval that reaches half way to
  each neighbour; its ends belong to it exactly when the mantissa is even.  Of a
  decimal grid, if any point lies in that interval then one of the two points
  around the number does, so only these two are tried.
-/
import WorkflowCatalog.Decimal.Binary64

namespace WorkflowCatalog.Decimal

/-- `digits · 10 ^ exponent`. -/
structure Scientific where
  digits : Nat
  exponent : Int
  deriving DecidableEq, Repr

/-- Compares `d · 10 ^ p` with `x · 2 ^ e`. -/
def compareScaled (d : Nat) (p : Int) (x : Nat) (e : Int) : Ordering :=
  compare (d * Nat.pow 10 p.toNat * Nat.pow 2 (-e).toNat)
    (x * Nat.pow 2 e.toNat * Nat.pow 10 (-p).toNat)

/-- Does `d · 10 ^ p` read back as the number `m · 2 ^ q`? -/
def readsBack (m : Nat) (q : Int) (d : Nat) (p : Int) : Bool :=
  let down := if m == Nat.pow 2 52 && decide (Binary64.minExponent < q) then 1 else 2
  let low := compareScaled d p (4 * m - down) (q - 2)
  let high := compareScaled d p (4 * m + 2) (q - 2)
  if m % 2 = 0 then low != .lt && high != .gt else low == .gt && high == .lt

/-- The least `k` with `m · 2 ^ q < 10 ^ k`, for a positive `m`. -/
def decimalScale (m : Nat) (q : Int) : Int :=
  let guess := (((m.log2 : Int) + q) * 30103) / 100000 - 1
  ((List.range 4).map fun i : Nat => guess + (i : Int)).find?
    (fun k => compareScaled 1 k m q == .gt) |>.getD (guess + 4)

/-- The whole part of `m · 2 ^ q / 10 ^ p`. -/
def wholePart (m : Nat) (q p : Int) : Nat :=
  (m * Nat.pow 2 q.toNat * Nat.pow 10 (-p).toNat) / (Nat.pow 2 (-q).toNat * Nat.pow 10 p.toNat)

/-- Of the two points of the grid `10 ^ p` around the number, the nearer one that
    reads back. -/
def onGrid (m : Nat) (q p : Int) : Option Scientific :=
  let d := wholePart m q p
  match readsBack m q d p, readsBack m q (d + 1) p with
  | true, false => some ⟨d, p⟩
  | false, true => some ⟨d + 1, p⟩
  | true, true =>
    match compareScaled (2 * d + 1) p (2 * m) q with
    | .gt => some ⟨d, p⟩
    | .lt => some ⟨d + 1, p⟩
    | .eq => some ⟨if d % 2 = 0 then d else d + 1, p⟩
  | false, false => none

def trimZeros : Nat → Scientific → Scientific
  | 0, x => x
  | fuel + 1, x =>
    if x.digits != 0 && x.digits % 10 == 0 then trimZeros fuel ⟨x.digits / 10, x.exponent + 1⟩
    else x

/-- The number `m · 2 ^ q` written out in full. -/
def exactDecimal (m : Nat) (q : Int) : Scientific :=
  ⟨m * Nat.pow 2 q.toNat * Nat.pow 5 (-q).toNat, min q 0⟩

/-- The fewest digits that read back as `m · 2 ^ q`. -/
def shortest (m : Nat) (q : Int) : Scientific :=
  if m = 0 then ⟨0, 0⟩
  else
    let k := decimalScale m q
    let found := (List.range 17).findSome? fun (i : Nat) => onGrid m q (k - ((i : Int) + 1))
    trimZeros 400 (found.getD (exactDecimal m q))

/-- The number `m · 2 ^ q` rounded to `n` digits, ties to the even last digit. -/
def significant (n m : Nat) (q : Int) : Scientific :=
  if m = 0 then ⟨0, 0⟩
  else
    let p := decimalScale m q - n
    let d := Binary64.roundDiv (m * Nat.pow 2 q.toNat * Nat.pow 10 (-p).toNat)
      (Nat.pow 2 (-q).toNat * Nat.pow 10 p.toNat)
    trimZeros 400 ⟨d, p⟩

end WorkflowCatalog.Decimal
