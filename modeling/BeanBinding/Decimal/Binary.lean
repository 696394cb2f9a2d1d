/-!
# Binary floating-point numbers, field by field

A stored float is a sign, an exponent and a fraction packed into a word. `Binary.ofBits64` and
`Binary.ofBits32` unpack the word into `±mantissa · 2 ^ exponent`, which is all that the decimal
printer needs: from here on every step is exact arithmetic on natural numbers.
-/

namespace BeanBinding.Decimal

/-- A floating-point number as its bit pattern describes it. -/
inductive Binary where
  | nan
  | infinite (negative : Bool)
  /--
  The number `±mantissa · 2 ^ exponent`. `narrow` says that the gap to the next smaller
  magnitude is half as wide as the gap above, which happens at powers of two.
  -/
  | finite (negative : Bool) (mantissa : Nat) (exponent : Int) (narrow : Bool)
deriving DecidableEq, Repr

/--
Unpacks a word of one sign bit, `width` exponent bits and `places` fraction bits. The smallest
exponent field stands for numbers without an implicit leading bit, the largest for infinities and
values that are no number.
-/
def Binary.ofFields (width places : Nat) (word : Nat) : Binary :=
  let negative := word >>> (width + places) % 2 == 1
  let field := word >>> places % (1 <<< width)
  let fraction := word % (1 <<< places)
  let lowest : Int := 2 - ((1 <<< (width - 1) : Nat) : Int) - places
  if field = 1 <<< width - 1 then
    if fraction = 0 then .infinite negative else .nan
  else if field = 0 then
    .finite negative fraction lowest false
  else
    .finite negative (fraction + 1 <<< places) (lowest + field - 1) (fraction = 0 && 1 < field)

def Binary.ofFloat (x : Float) : Binary := .ofFields 11 52 x.toBits.toNat

def Binary.ofFloat32 (x : Float32) : Binary := .ofFields 8 23 x.toBits.toNat

end BeanBinding.Decimal
