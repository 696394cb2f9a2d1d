import BeanBinding.Json.Printer
import BeanBinding.Schema.Decoding
import BeanBinding.Tree.Writing

/-!
# Settings of a codec

Six settings with defaults. They are themselves read from and written to JSON: every setting may
be missing, unknown ones are skipped.
-/

namespace BeanBinding

/-- When the value of a property is written. -/
inductive Inclusion where
  | always
  | nonNull
  | nonEmpty
  /-- Unless it is the declared default, or empty if none is declared. -/
  | nonDefault
deriving DecidableEq, Repr

/-- The form of a bean in a document: names with values, or values in order. -/
inductive Shape where
  | object
  | array
deriving DecidableEq, Repr

/-- The settings of a codec. -/
structure Config where
  /-- Whether beans are bound through their introspection. -/
  useIntrospection : Bool
  /-- The rule for properties that have none of their own. -/
  inclusion : Inclusion
  /-- The form of beans that have none of their own. -/
  shape : Shape
  failOnUnknown : Bool
  /-- Whether a bean that yields itself is an error; null is written otherwise. -/
  failOnSelfReference : Bool
  /-- Whether a bean without properties is an error. -/
  failOnEmpty : Bool
deriving DecidableEq, Repr

namespace Inclusion

/-- The rules with their names in documents and for display. -/
def table : List (Inclusion × String × String) := [
  (always, "always", "Always"), (nonNull, "non-null", "NonNull"),
  (nonEmpty, "non-empty", "NonEmpty"), (nonDefault, "non-default", "NonDefault")]

def name (i : Inclusion) : String := ((table.lookup i).map (·.1)).getD ""

def display (i : Inclusion) : String := ((table.lookup i).map (·.2)).getD ""

def ofName (s : String) : Option Inclusion := (table.find? fun row => row.2.1 = s).map (·.1)

end Inclusion

namespace Shape

/-- The forms with their names in documents and for display. -/
def table : List (Shape × String × String) :=
  [(object, "object", "Object"), (array, "array", "Array")]

def name (s : Shape) : String := ((table.lookup s).map (·.1)).getD ""

def display (s : Shape) : String := ((table.lookup s).map (·.2)).getD ""

def ofName (s : String) : Option Shape := (table.find? fun row => row.2.1 = s).map (·.1)

end Shape

namespace Config

def default : Config := ⟨true, .always, .object, true, true, true⟩

def toTree (c : Config) : Tree := .record [
  ("use-bean-introspection", .bool c.useIntrospection),
  ("default-inclusion", .unitVariant c.inclusion.name),
  ("shape", .unitVariant c.shape.name),
  ("fail-on-unknown-properties", .bool c.failOnUnknown),
  ("fail-on-self-references", .bool c.failOnSelfReference),
  ("fail-on-empty-beans", .bool c.failOnEmpty)]

def alternatives (names : List (String × String)) : List (Variant Schema) :=
  names.map fun (written, shown) => ⟨written, shown, .nothing⟩

def schema : Schema :=
  .record "CodecConfig" [
    ("use-bean-introspection", .bool),
    ("default-inclusion", .enumeration "Inclusion" (alternatives (Inclusion.table.map (·.2)))),
    ("shape", .enumeration "Shape" (alternatives (Shape.table.map (·.2)))),
    ("fail-on-unknown-properties", .bool),
    ("fail-on-self-references", .bool),
    ("fail-on-empty-beans", .bool)]
    (match default.toTree with | .record fields => fields | _ => [])

def ofTree : Tree → Option Config
  | .record [(_, .bool useIntrospection), (_, .unitVariant inclusion), (_, .unitVariant shape),
      (_, .bool failOnUnknown), (_, .bool failOnSelfReference), (_, .bool failOnEmpty)] => do
    return ⟨useIntrospection, ← Inclusion.ofName inclusion, ← Shape.ofName shape, failOnUnknown,
      failOnSelfReference, failOnEmpty⟩
  | _ => none

def ofJson (r : Position) (j : Json) : Except DecodeError Config :=
  (schema.decode r j).map fun t => (ofTree t).getD default

def text (c : Config) : String :=
  match c.toTree.toJson with
  | .ok j => j.text
  | .error fault => fault.message

def ofText (text : String) : Except DecodeError Config := do
  let (j, rest) := Json.parse text
  let c ← ofJson (.start .streamed) j
  if Json.hasTrailing rest then throw (.fault .trailingText)
  return c

end Config

end BeanBinding
