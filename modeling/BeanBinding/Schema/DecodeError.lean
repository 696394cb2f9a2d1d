import BeanBinding.Json.Number
import BeanBinding.Text.Quoted

/-!
# Why a document does not decode

The causes, and their wording. A malformed text is one cause among others: a decoder that meets a
fault passes it on.
-/

namespace BeanBinding

/-- What a decoder found where it expected something else. -/
inductive Found where
  | bool (b : Bool)
  | integer (n : Int)
  | float (x : Float)
  | text (s : String)
  | null
  | sequence
  | map
  | plainVariant

def floatText (x : Float) : String :=
  match Json.Number.ofFloat x with
  | some n => .ofList n.text
  | none => if x.isNaN then "NaN" else if x < 0.0 then "-inf" else "inf"

def Found.describe : Found → String
  | bool b => s!"boolean `{b}`"
  | integer n => s!"integer `{n}`"
  | float x => "floating point `" ++ floatText x ++ "`"
  | text s => "string " ++ Text.display s
  | null => "null"
  | sequence => "sequence"
  | map => "map"
  | plainVariant => "unit variant"

/-- Why a document does not decode. -/
inductive DecodeError where
  | fault (f : Fault)
  /-- A value of another kind than the type has. -/
  | mismatch (found : Found) (expected : String)
  /-- A value of the right kind that the type does not hold. -/
  | outside (found : Found) (expected : String)
  | length (n : Nat) (expected : String)
  | missingField (name : String)
  | duplicateField (name : String)
  | unknownVariant (name : String) (known : List String)
  | closed (reason : String)

/-- The names that were possible, quoted. -/
def oneOf : List String → String
  | [] => "there are no variants"
  | [a] => s!"`{a}`"
  | [a, b] => s!"`{a}` or `{b}`"
  | names => "one of " ++ ", ".intercalate (names.map fun a => s!"`{a}`")

def DecodeError.message : DecodeError → String
  | fault f => f.message
  | mismatch found expected => s!"invalid type: {found.describe}, expected {expected}"
  | outside found expected => s!"invalid value: {found.describe}, expected {expected}"
  | length n expected => s!"invalid length {n}, expected {expected}"
  | missingField name => s!"missing field `{name}`"
  | duplicateField name => s!"duplicate field `{name}`"
  | unknownVariant name [] => s!"unknown variant `{name}`, there are no variants"
  | unknownVariant name known => s!"unknown variant `{name}`, expected " ++ oneOf known
  | closed reason => reason

end BeanBinding
