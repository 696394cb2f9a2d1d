import BeanBinding.Annotation
import BeanBinding.Tree.Basic

/-!
# Metadata of properties

Annotations say how a property is named in documents, whether it must be present, where it stands
and which value counts as its default. Described members and introspected properties read the same
attributes, but only introspection knows descriptions and the non-null marker.
-/

namespace BeanBinding

/-- What is known about a property beside its name and type. -/
structure Metadata where
  required : Bool
  description : Option String
  index : Option Int
  default : Option String
deriving DecidableEq, Repr

/-- The metadata of a property nothing is known about. -/
def Metadata.optional : Metadata := ⟨false, none, none, none⟩

def Metadata.mandatory : Metadata := ⟨true, none, none, none⟩

namespace Annotations

/-- Whether the property annotation asks for the property. -/
def asksFor (as : Annotations) : Bool := (as.bool? Kind.property Attribute.required).getD false

/-- The declared place, if it fits into 32 bits. -/
def declaredIndex (as : Annotations) : Option Int :=
  (as.int? Kind.property Attribute.index).filter IntKind.i32.holds

def declaredDefault (as : Annotations) : Option String :=
  as.text? Kind.property Attribute.defaultValue

/-- The declared name in documents; an empty one does not count. -/
def declaredName (as : Annotations) : Option String :=
  (as.text? Kind.property Attribute.value).filter fun s => s ≠ ""

/-- The name in documents of a property with this name of its own. -/
def externalName (as : Annotations) (name : String) : String := as.declaredName.getD name

def memberMetadata (as : Annotations) : Metadata :=
  { Metadata.optional with
    required := as.asksFor, index := as.declaredIndex, default := as.declaredDefault }

/-- The metadata of an introspected property or argument. -/
def metadata (as : Annotations) : Metadata where
  required := as.has Kind.nonnull || as.asksFor
  description := as.text? Kind.description Attribute.value
  index := as.declaredIndex
  default := as.declaredDefault

end Annotations

end BeanBinding
