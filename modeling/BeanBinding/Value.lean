import BeanBinding.Schema.Decoding
import BeanBinding.Schema.Default
import BeanBinding.Schema.Display
import BeanBinding.Schema.Literal
import BeanBinding.Tree.Writing

/-!
# Values and their declared types

A `Value` is a tree together with the type it was declared with. Two types are the same exactly if
their names are; a setter refuses values of any other type than its own. The absence of a value,
null, is not a value: it is `none` wherever a value may be missing.
-/

namespace BeanBinding

/-- A declared type: its name, and what it admits. -/
structure ValueType where
  name : String
  schema : Schema

/-- A value of a declared type. -/
structure Value where
  type : ValueType
  tree : Tree

namespace Value

def is (v : Value) (t : ValueType) : Bool := v.type.name == t.name

/-- Whether two values have the same type and are equal. -/
def same (v w : Value) : Bool := v.is w.type && v.tree.same w.tree

/-- The content of a value of the expected type; a value of another type is handed back. -/
def take (v : Value) (t : ValueType) : Except Value Tree := if v.is t then .ok v.tree else .error v

def isEmpty (v : Value) : Bool := v.tree.isEmpty

def toJson (v : Value) : Except WriteFault Json := v.tree.toJson

def display (v : Value) : String := v.type.schema.display v.tree

end Value

/-- A way to decode values, where null is the absence of a value. -/
abbrev ValueDecoder := Decoder (Option Value)

namespace ValueType

/-- Whether a value may stand where this type is declared. -/
def accepts (t : ValueType) (v : Value) : Bool := v.is t

/-- Decodes a value of this type; null is the absence of a value, whatever the type. -/
def decode (t : ValueType) (r : Position) (j : Json) : Except DecodeError (Option Value) :=
  match j with
  | .null => .ok none
  | .broken (.word true fault) => .error (.fault fault)
  | j => (t.schema.decode r j).map fun tree => some ⟨t, tree⟩

def decoder (t : ValueType) : ValueDecoder := ⟨t.decode, t.schema.leavesRest⟩

/-- The value of this type that a literal spells, if there is one. -/
def ofLiteral (t : ValueType) (literal : String) : Option Value :=
  (t.schema.ofLiteral literal).map fun tree => ⟨t, tree⟩

end ValueType

end BeanBinding
