import BeanBinding.Decimal.Reading

/-!
# Messages that end in a place

A reader or writer of a text puts the place of a failure, a line and a column, behind the message.
A message that already ends in a place is taken apart first, so that no message has two: the place
it brings along counts, unless its line is zero.
-/

namespace BeanBinding.Text

/-- A message and the place that it ended in. -/
structure Located where
  message : String
  line : Nat
  column : Nat
deriving DecidableEq, Repr

namespace Located

/-- The number written by the digits at the end of a text, and the text before them. -/
def endingNumber (reversed : List Char) : Option (Nat × List Char) :=
  ((Decimal.readNat (reversed.takeWhile Decimal.isDigit).reverse).filter (· < 1 <<< 64)).map
    (·, reversed.dropWhile Decimal.isDigit)

def withoutWord (word : String) (reversed : List Char) : Option (List Char) :=
  let last := word.toList.reverse
  if last.isPrefixOf reversed then some (reversed.drop last.length) else none

/-- Takes the place off the end of a message, if the message ends in one. -/
def ofString? (s : String) : Option Located := do
  let (column, rest) ← endingNumber s.toList.reverse
  let (line, rest) ← endingNumber (← withoutWord " column " rest)
  let rest ← withoutWord " at line " rest
  return ⟨.ofList rest.reverse, line, column⟩

/-- The message with its place; there is no line zero. -/
def text (l : Located) : String :=
  if l.line = 0 then l.message else s!"{l.message} at line {l.line} column {l.column}"

end Located

def withoutPlace (s : String) : String :=
  match Located.ofString? s with
  | some l => l.message
  | none => s

/-- A message as a writer words it, which knows no place of its own. -/
def settled (s : String) : String :=
  match Located.ofString? s with
  | some l => l.text
  | none => s

end BeanBinding.Text
