import BeanBinding.Value

/-!
# Custom serializers of values

A custom serializer replaces a value of the type it handles by another value, which is then written
in its place. It may also say which values count as empty.
-/

namespace BeanBinding

/-- Replaces values before they are written. -/
structure ValueSerializer where
  handles : String
  convert : Value → Option Value
  emptyCheck : Option (Value → Bool)

namespace ValueSerializer

/-- A serializer that handles the values of one type. -/
def of (type result : ValueType) (f : Tree → Tree) : ValueSerializer where
  handles := type.name
  convert v := if v.is type then some ⟨result, f v.tree⟩ else none
  emptyCheck := none

/-- Says which values of a type count as empty; values of other types never do. -/
def withEmptyCheck (s : ValueSerializer) (type : ValueType) (f : Tree → Bool) : ValueSerializer :=
  { s with emptyCheck := some fun v => v.is type && f v.tree }

def isEmpty (s : ValueSerializer) (v : Value) : Bool :=
  match s.emptyCheck with
  | some check => check v
  | none => v.isEmpty

end ValueSerializer

end BeanBinding
