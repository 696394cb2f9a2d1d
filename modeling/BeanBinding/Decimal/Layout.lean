import BeanBinding.Decimal.Shortest

/-!
# Laying out a decimal

A decimal is written positionally while its leading digit is near the point, and with an exponent
otherwise. Where the border runs, whether a positive exponent carries a sign, and which of two
equally near decimals stands for a float is the choice of each format and lives in a `Layout`.
-/

namespace BeanBinding.Decimal

/--
A format's choices: the leading-digit exponents written positionally, the sign of large exponents,
and the decimal taken where two are equally near.
-/
structure Layout where
  lowest : Int
  highest : Int
  plus : Bool
  tie : Tie

/-- A decimal cut into the parts that stand around the point and the exponent mark. -/
structure Parts where
  whole : List Char
  fraction : List Char
  exponent : Option Int
deriving DecidableEq, Repr

/--
The parts of `digits · 10 ^ exponent` in a layout. A positional number has at least one digit on
each side.
-/
def Scaled.parts (layout : Layout) (d : Scaled) : Parts :=
  let cs := Nat.toDigits 10 d.digits
  let leading := d.exponent + cs.length - 1
  if layout.lowest ≤ leading ∧ leading ≤ layout.highest then
    if 0 ≤ d.exponent then
      ⟨cs ++ List.replicate d.exponent.toNat '0', ['0'], none⟩
    else
      let places := (-d.exponent).toNat
      if places < cs.length then
        ⟨cs.take (cs.length - places), cs.drop (cs.length - places), none⟩
      else
        ⟨['0'], List.replicate (places - cs.length) '0' ++ cs, none⟩
  else
    ⟨cs.take 1, cs.drop 1, some leading⟩

def exponentText (plus : Bool) (e : Int) : List Char :=
  (if e < 0 then ['-'] else if plus then ['+'] else []) ++ Nat.toDigits 10 e.natAbs

def Parts.text (plus : Bool) (p : Parts) : List Char :=
  p.whole ++ (if p.fraction = [] then [] else '.' :: p.fraction) ++
    match p.exponent with
    | none => []
    | some e => 'e' :: exponentText plus e

end BeanBinding.Decimal
