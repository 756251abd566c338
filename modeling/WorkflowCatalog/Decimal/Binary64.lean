/-
  WorkflowCatalog/Decimal/Binary64.lean
  =====================================
  **Numbers of double precision, as data.**  A finite number is a sign, a natural
  mantissa `m` and an exponent `q`, and stands for `± m · 2 ^ q`.  Everything is
  computed in exact integer arithmetic and rounded once, to nearest with ties to
  the even mantissa, so equality and evaluation are decidable.

  Finite numbers are kept in normal form: `m < 2 ^ 53`, `q ≥ -1074`, and
  `2 ^ 52 ≤ m` unless `q = -1074`.  `ofRatio` produces this form.
-/
namespace WorkflowCatalog.Decimal

inductive Binary64 where
  /-- Not a number. -/
  | nan
  /-- Beyond every finite number, on one side or the other. -/
  | infinite (negative : Bool)
  /-- `± mantissa · 2 ^ exponent`; a zero keeps its sign. -/
  | finite (negative : Bool) (mantissa : Nat) (exponent : Int)
  deriving DecidableEq, Repr

namespace Binary64

instance : Inhabited Binary64 := ⟨.finite false 0 (-1074)⟩

/-- The least exponent of a finite number. -/
def minExponent : Int := -1074

def maxExponent : Int := 971

def zero (negative : Bool) : Binary64 := .finite negative 0 minExponent

/-! ### Rounding -/

/-- The quotient of two naturals rounded to the nearest natural, ties to even. -/
def roundDiv (num den : Nat) : Nat :=
  let d := num / den
  let twice := 2 * (num % den)
  if twice < den then d
  else if den < twice then d + 1
  else if d % 2 = 0 then d else d + 1

/-- `num / den / 2 ^ q` as a quotient of naturals. -/
def scaled (num den : Nat) (q : Int) : Nat × Nat :=
  (num * Nat.pow 2 (-q).toNat, den * Nat.pow 2 q.toNat)

/-- The number nearest to `± num / den`. -/
def ofRatio (negative : Bool) (num den : Nat) : Binary64 :=
  if num = 0 then zero negative
  else
    let guess := (num.log2 : Int) - den.log2 - 53
    let below := max guess minExponent
    let (a, b) := scaled num den below
    let q := if a / b < Nat.pow 2 53 then below else below + 1
    let (a, b) := scaled num den q
    let m := roundDiv a b
    let (m, q) := if m < Nat.pow 2 53 then (m, q) else (Nat.pow 2 52, q + 1)
    if maxExponent < q then .infinite negative else .finite negative m q

/-- The number nearest to `± digits · 10 ^ exponent`.  Exponents far outside the
    range of finite numbers are settled without computing the power. -/
def ofDecimal (negative : Bool) (digits : Nat) (exponent : Int) : Binary64 :=
  if digits = 0 then zero negative
  else
    let size := ((Nat.toDigits 10 digits).length : Int) + exponent
    if 400 < size then .infinite negative
    else if size < -400 then zero negative
    else ofRatio negative (digits * Nat.pow 10 exponent.toNat) (Nat.pow 10 (-exponent).toNat)

/-- The number nearest to an integer. -/
def ofInt (n : Int) : Binary64 := ofRatio (n < 0) n.natAbs 1

/-! ### Arithmetic -/

def neg : Binary64 → Binary64
  | .nan => .nan
  | .infinite s => .infinite !s
  | .finite s m q => .finite (!s) m q

/-- A finite number as an integer multiple of `2 ^ q`, for a `q` not above its
    exponent. -/
def multiple (negative : Bool) (m : Nat) (e q : Int) : Int :=
  let n : Int := m * Nat.pow 2 (e - q).toNat
  if negative then -n else n

/-- The rounded sum. -/
def add : Binary64 → Binary64 → Binary64
  | .nan, _ => .nan
  | _, .nan => .nan
  | .infinite s, .infinite t => if s = t then .infinite s else .nan
  | .infinite s, .finite .. => .infinite s
  | .finite .., .infinite t => .infinite t
  | .finite s m e, .finite t n f =>
    let q := min e f
    let sum := multiple s m e q + multiple t n f q
    if sum = 0 then zero (s && t)
    else
      let (a, b) := scaled sum.natAbs 1 (-q)
      ofRatio (sum < 0) a b

/-- The rounded product. -/
def mul : Binary64 → Binary64 → Binary64
  | .nan, _ => .nan
  | _, .nan => .nan
  | .infinite s, .infinite t => .infinite (s != t)
  | .infinite s, .finite t n _ => if n = 0 then .nan else .infinite (s != t)
  | .finite s m _, .infinite t => if m = 0 then .nan else .infinite (s != t)
  | .finite s m e, .finite t n f =>
    let (a, b) := scaled (m * n) 1 (-(e + f))
    ofRatio (s != t) a b

/-! ### Comparison and conversion -/

def isPositive : Binary64 → Bool
  | .nan => false
  | .infinite s => !s
  | .finite s m _ => !s && m != 0

/-- Is the number of smaller size than `2 ^ e`? -/
def belowPower (x : Binary64) (e : Int) : Bool :=
  match x with
  | .nan => false
  | .infinite s => s
  | .finite s m q => s || m == 0 || decide ((m.log2 : Int) + q < e)

/-- Is the number greater than `num / den`? -/
def exceeds (x : Binary64) (num den : Nat) : Bool :=
  match x with
  | .nan => false
  | .infinite s => !s
  | .finite s m q =>
    !s && decide (num * Nat.pow 2 (-q).toNat < m * Nat.pow 2 q.toNat * den)

/-- The integer that the number equals, if it equals one. -/
def toInt? : Binary64 → Option Int
  | .finite s m q =>
    let den := Nat.pow 2 (-q).toNat
    if m % den = 0 then
      let n : Int := (m / den * Nat.pow 2 q.toNat : Nat)
      some (if s then -n else n)
    else none
  | _ => none

end Binary64

end WorkflowCatalog.Decimal
