import BeanBinding.Decimal.Binary

/-!
# The shortest decimal that names a float

Many decimals round to one float; the one that is written has as few digits as possible and, among
those, lies nearest to the float. Where two are equally near, a `Tie` decides. A decimal rounds to
the float exactly if it lies in the interval between the midpoints to its two neighbours, midpoints
included if the mantissa is even, because a tie goes to the even mantissa.

For each digit count the candidates are the two neighbours of the float on that decimal grid. If any
point of the grid lies in the interval, so does one of these two, so the first count that has a
hit is the least.
-/

namespace BeanBinding.Decimal

/-- The decimal `digits · 10 ^ exponent`; zero is `0 · 10 ^ 0`. -/
structure Scaled where
  digits : Nat
  exponent : Int
deriving DecidableEq, Repr

/-- A fraction of natural numbers, the exact value of a float or of a bound on it. -/
structure Ratio where
  num : Nat
  den : Nat

/-- The exact value of `n · 2 ^ e`. -/
def Ratio.ofBinary (n : Nat) (e : Int) : Ratio :=
  if 0 ≤ e then ⟨n <<< e.toNat, 1⟩ else ⟨n, 1 <<< (-e).toNat⟩

/-- The exact value of `n · 10 ^ e`. -/
def Ratio.ofDecimal (n : Nat) (e : Int) : Ratio :=
  if 0 ≤ e then ⟨n * Nat.pow 10 e.toNat, 1⟩ else ⟨n, Nat.pow 10 (-e).toNat⟩

/-- The order of two fractions with positive denominators. -/
def Ratio.cmp (x y : Ratio) : Ordering := compare (x.num * y.den) (y.num * x.den)

/-- The numbers that round to a float: between two bounds, which belong to it if `closed`. -/
structure Interval where
  low : Ratio
  high : Ratio
  closed : Bool

/-- The numbers that round to `mantissa · 2 ^ exponent`. -/
def Interval.around (mantissa : Nat) (exponent : Int) (narrow : Bool) : Interval where
  low := .ofBinary (4 * mantissa - if narrow then 1 else 2) (exponent - 2)
  high := .ofBinary (4 * mantissa + 2) (exponent - 2)
  closed := mantissa % 2 == 0

/-- Membership in an interval, its ends counted if it is closed. -/
def Interval.contains (i : Interval) (x : Ratio) : Bool :=
  match i.low.cmp x, x.cmp i.high with
  | .lt, .lt => true
  | .gt, _ | _, .gt => false
  | _, _ => i.closed

/-- The `p` for which `10 ^ (p - 1) ≤ x < 10 ^ p`, for a positive `x`. -/
def Ratio.magnitude (x : Ratio) : Int :=
  if x.den ≤ x.num then
    (Nat.toDigits 10 (x.num / x.den)).length
  else
    let places := (Nat.toDigits 10 (x.den / x.num)).length
    if x.den ≤ x.num * Nat.pow 10 (places - 1) then 2 - places else 1 - places

/-- Which of two equally near decimals is taken. -/
inductive Tie where
  /-- The one whose last digit is even. -/
  | toEven
  /-- The one of greater magnitude. -/
  | away
deriving DecidableEq, Repr

/-- Which of `digits` and `digits + 1` is taken where both are equally near. -/
def Tie.pick (tie : Tie) (digits : Nat) : Nat :=
  match tie with
  | toEven => if digits % 2 = 0 then digits else digits + 1
  | away => digits + 1

/-- Which of `digits` and `digits + 1` at `10 ^ exponent` is nearer to `x`. -/
def Ratio.nearer (tie : Tie) (x : Ratio) (digits : Nat) (exponent : Int) : Nat :=
  match x.cmp (.ofDecimal (10 * digits + 5) (exponent - 1)) with
  | .lt => digits
  | .gt => digits + 1
  | .eq => tie.pick digits

/--
The grid points next to `x` at `10 ^ exponent` that lie in the interval, the better one if both do.
-/
def Interval.pick (i : Interval) (tie : Tie) (x : Ratio) (exponent : Int) : Option Nat :=
  let unit := Ratio.ofDecimal 1 exponent
  let below := x.num * unit.den / (x.den * unit.num)
  match i.contains (.ofDecimal below exponent), i.contains (.ofDecimal (below + 1) exponent) with
  | true, true => some (x.nearer tie below exponent)
  | true, false => some below
  | false, true => some (below + 1)
  | false, false => none

/-- Removes zeros at the end of the digits; `fuel` bounds their number. -/
def Scaled.trim : Nat → Scaled → Scaled
  | 0, d => d
  | fuel + 1, d =>
    if d.digits ≠ 0 ∧ d.digits % 10 = 0 then trim fuel ⟨d.digits / 10, d.exponent + 1⟩ else d

/-- The first hit on the grids of `count`, `count + 1`, … digits, `left` grids at most. -/
def Interval.search (i : Interval) (tie : Tie) (x : Ratio) (top : Int) (count : Nat) :
    Nat → Option Scaled
  | 0 => none
  | left + 1 =>
    match i.pick tie x (top - count) with
    | some digits => some ⟨digits, top - count⟩
    | none => i.search tie x top (count + 1) left

/--
The shortest decimal that rounds to `mantissa · 2 ^ exponent`. Seventeen digits always suffice for
the formats in use, so the search stops there.
-/
def shortest (tie : Tie) (mantissa : Nat) (exponent : Int) (narrow : Bool) : Scaled :=
  if mantissa = 0 then ⟨0, 0⟩
  else
    let x := Ratio.ofBinary mantissa exponent
    let found := (Interval.around mantissa exponent narrow).search tie x x.magnitude 1 17
    Scaled.trim 20 (found.getD ⟨0, 0⟩)

end BeanBinding.Decimal
