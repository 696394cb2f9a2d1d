import BeanBinding.Value

/-!
# Custom deserializers of values

A custom deserializer decodes a value of one type from a document and turns it into a value of
another, which is what the property is then set to. Null stays null.
-/

namespace BeanBinding

/-- Decodes values by other means than the declared type. -/
structure ValueDeserializer where
  produces : String
  decoder : ValueDecoder

/-- Decodes a value of a type and turns it into one of another type. -/
def ValueDeserializer.map (type result : ValueType) (f : Tree → Tree) : ValueDeserializer where
  produces := result.name
  decoder := {
    decode := fun r j => (type.decode r j).map (Option.map fun v => ⟨result, f v.tree⟩)
    leavesRest := type.decoder.leavesRest }

end BeanBinding
