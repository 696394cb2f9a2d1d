import BeanBinding.Decimal.Layout
import BeanBinding.Decimal.Reading
import BeanBinding.Json.Basic

/-!
# Numbers in JSON texts

A number without point and exponent is an integer as long as it fits into 64 bits; minus zero and
all other numbers are floats. A number read as a float is the nearest one, whatever the number of
its digits; there is none for a number beyond the range of floats.

Floats are written by their shortest digits, positionally as long as the leading digit is near the
point. Floats of 32 bits turn to exponents at other magnitudes than those of 64 bits.
-/

namespace BeanBinding.Json

open Decimal

/-- The value of a number: a natural number, a negative integer, or a float. -/
inductive Numeric where
  | nat (n : Nat)
  | negative (n : Int)
  | float (x : Float)

/-- The largest natural number that is not read as a float. -/
def maxNat : Nat := 1 <<< 64 - 1

def Number.power (n : Number) : Int :=
  match n.exponent with
  | none => 0
  | some (.minus, digits) => -(Nat.ofDigitChars 10 digits 0 : Int)
  | some (_, digits) => Nat.ofDigitChars 10 digits 0

/-- The float nearest to the magnitude of a number; infinite beyond the range of floats. -/
def Number.magnitude (n : Number) : Float :=
  Decimal.toFloat (Nat.ofDigitChars 10 (n.whole ++ n.fraction) 0) (n.power - n.fraction.length)

def Number.toFloat (n : Number) : Except Fault Float :=
  let x := n.magnitude
  if x.isInf then .error .numberRange else .ok (if n.negative then -x else x)

def Number.read (n : Number) : Except Fault Numeric :=
  if n.fraction = [] ∧ n.exponent = none then
    let whole := Nat.ofDigitChars 10 n.whole 0
    if n.negative then
      if whole ≠ 0 ∧ whole ≤ 1 <<< 63 then .ok (.negative (-whole)) else n.toFloat.map .float
    else if whole ≤ maxNat then .ok (.nat whole)
    else n.toFloat.map .float
  else n.toFloat.map .float

/-- Whether a number has nothing but digits before the point. -/
def Number.isWhole (n : Number) : Bool := n.fraction.isEmpty && n.exponent.isNone

def Number.ofInt (n : Int) : Number := ⟨n < 0, Nat.toDigits 10 n.natAbs, [], none⟩

/-- A float of 64 bits is positional from `0.00001` to below `10 ^ 16`; ties go to even digits. -/
def layout64 : Layout := ⟨-5, 15, true, .toEven⟩

/-- A float of 32 bits is positional from `0.000001` to below `10 ^ 13`. -/
def layout32 : Layout := ⟨-6, 12, true, .toEven⟩

/-- The number that spells a float; infinities and the value that is no number have none. -/
def Number.ofBinary (layout : Layout) : Binary → Option Number
  | .finite negative mantissa exponent narrow =>
    let parts := (shortest layout.tie mantissa exponent narrow).parts layout
    some ⟨negative, parts.whole, parts.fraction,
      parts.exponent.map fun e =>
        (if e < 0 then .minus else if layout.plus then .plus else .bare, Nat.toDigits 10 e.natAbs)⟩
  | _ => none

def Number.ofFloat (x : Float) : Option Number := Number.ofBinary layout64 (.ofFloat x)

def Number.ofFloat32 (x : Float32) : Option Number := Number.ofBinary layout32 (.ofFloat32 x)

def Number.text (n : Number) : List Char :=
  (if n.negative then ['-'] else []) ++ n.whole ++
    (if n.fraction = [] then [] else '.' :: n.fraction) ++
    match n.exponent with
    | none => []
    | some (sign, digits) =>
      'e' :: (match sign with | .bare => [] | .plus => ['+'] | .minus => ['-']) ++ digits

/-- The JSON value of a float: its number, or null where it has none. -/
def ofFloat (x : Float) : Json := ((Number.ofFloat x).map .number).getD .null

/-- The JSON value of a float of 32 bits: its number, or null where it has none. -/
def ofFloat32 (x : Float32) : Json := ((Number.ofFloat32 x).map .number).getD .null

end BeanBinding.Json
