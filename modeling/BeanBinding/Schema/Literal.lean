import BeanBinding.Decimal.Reading
import BeanBinding.Schema.Basic

/-!
# Reading a literal by a declared type

A declared default is a text. It is tried as a text first, then as a truth value, a 64-bit integer
and a float; the first reading that the type takes wins. Only scalars and plain alternatives of
enumerations can be read this way.
-/

namespace BeanBinding

/-- One reading of a literal. -/
inductive Scalar where
  | text (s : String)
  | bool (b : Bool)
  | integer (n : Int)
  | float (x : Float)

def plainVariant (variants : List (Variant Schema)) (name : String) : Option Tree :=
  variants.findSome? fun v =>
    match v.payload with
    | .nothing => if v.written = name then some (.unitVariant name) else none
    | _ => none

/-- The value of a declared type that a scalar gives, if the type takes it. -/
def Schema.ofScalar : Schema → Scalar → Option Tree
  | .text, .text s => some (.text s)
  | .char, .text s => match s.toList with | [c] => some (.char c) | _ => none
  | .enumeration _ variants, .text s => plainVariant variants s
  | .any, .text s => some (.text s)
  | .bool, .bool b => some (.bool b)
  | .any, .bool b => some (.bool b)
  | .int kind, .integer n => if kind.holds n then some (.int kind n) else none
  | .float, .integer n => some (.float (Float.ofInt n))
  | .any, .integer n => some (.int .i64 n)
  | .float, .float x => some (.float x)
  | .any, .float x => some (.float x)
  | _, _ => none

def readBool (literal : String) : Option Bool :=
  if literal = "true" then some true else if literal = "false" then some false else none

def readInt64 (literal : String) : Option Int :=
  (Decimal.readInt literal).filter IntKind.i64.holds

/-- The readings of a literal, in the order in which they are tried. -/
def readings (literal : String) : List Scalar :=
  [some (.text literal), (readBool literal).map .bool, (readInt64 literal).map .integer,
    (Decimal.readFloat literal).map .float].filterMap id

/-- The value of a declared type that a literal spells. -/
def Schema.ofLiteral (s : Schema) (literal : String) : Option Tree :=
  (readings literal).findSome? s.ofScalar

end BeanBinding
