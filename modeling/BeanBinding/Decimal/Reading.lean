/-!
# Reading numbers from text

Two readings of a whole text: as an integer with an optional sign, and as a decimal float. Both
take every character into account; a blank, an underscore or a second sign makes them fail. Only
the ten ASCII digits count as digits.
-/

namespace BeanBinding.Decimal

/-- Whether `c` is one of the ten ASCII digits. -/
def isDigit (c : Char) : Bool := '0' ≤ c && c ≤ '9'

/-- The number written by nothing but digits, at least one of them. -/
def readNat (cs : List Char) : Option Nat :=
  if cs ≠ [] ∧ cs.all isDigit then some (Nat.ofDigitChars 10 cs 0) else none

/-- The number written by digits after an optional sign. -/
def readInt (text : String) : Option Int :=
  match text.toList with
  | '-' :: cs => (readNat cs).map fun n => -(n : Int)
  | '+' :: cs => (readNat cs).map Int.ofNat
  | cs => (readNat cs).map Int.ofNat

/--
The float nearest to `digits · 10 ^ exponent`. Beyond the range of floats the exact power would
only cost time, so there the answer is given at once.
-/
def toFloat (digits : Nat) (exponent : Int) : Float :=
  if digits = 0 then 0.0
  else
    let leading := exponent + (Nat.toDigits 10 digits).length
    if leading < -400 then 0.0
    else if 400 < leading then 1.0 / 0.0
    else if exponent < 0 then Float.ofScientific digits true exponent.natAbs
    else Float.ofScientific digits false exponent.natAbs

/-- The exponent written after the mark `e`; no mark stands for zero. -/
def readExponent : List Char → Option Int
  | [] => some 0
  | c :: cs =>
    if c = 'e' ∨ c = 'E' then
      match cs with
      | '-' :: ds => (readNat ds).map fun n => -(n : Int)
      | '+' :: ds => (readNat ds).map Int.ofNat
      | ds => (readNat ds).map Int.ofNat
    else none

/-- The magnitude written by digits around an optional point, then an optional exponent. -/
def readMagnitude (cs : List Char) : Option Float :=
  let whole := cs.takeWhile isDigit
  let (fraction, rest) :=
    match cs.dropWhile isDigit with
    | '.' :: ds => (ds.takeWhile isDigit, ds.dropWhile isDigit)
    | ds => ([], ds)
  if whole = [] ∧ fraction = [] then none
  else
    (readExponent rest).map fun e =>
      toFloat (Nat.ofDigitChars 10 (whole ++ fraction) 0) (e - fraction.length)

/-- A magnitude, or one of the names of infinity and of the value that is no number, in any case. -/
def readUnsigned (cs : List Char) : Option Float :=
  let name := cs.map Char.toLower
  if name = "inf".toList ∨ name = "infinity".toList then some (1.0 / 0.0)
  else if name = "nan".toList then some (0.0 / 0.0)
  else readMagnitude cs

def readFloat (text : String) : Option Float :=
  match text.toList with
  | '-' :: cs => (readUnsigned cs).map Float.neg
  | '+' :: cs => readUnsigned cs
  | cs => readUnsigned cs

end BeanBinding.Decimal
