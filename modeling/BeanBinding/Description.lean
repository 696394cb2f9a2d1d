import BeanBinding.Config
import BeanBinding.Deserializer.ValueDeserializer
import BeanBinding.Property
import BeanBinding.Serializer.ValueSerializer

/-!
# Bean descriptions

A `Description` lists the members of a type of beans as a codec is to write and read them, each with
its name in documents and its own rules. Names need not be unique; that is checked when a codec is
built.
-/

namespace BeanBinding

/-- How a member came to be known. Computed members are only written. -/
inductive MemberKind where
  | method
  | field
  | computed
deriving DecidableEq, Repr

/-- A member of a bean, as a codec is to treat it. -/
structure Member (σ : Type) where
  property : Property σ
  kind : MemberKind
  name : String
  metadata : Metadata
  inclusion : Option Inclusion
  serializer : Option ValueSerializer
  nullSerializer : Option Value
  deserializer : Option ValueDeserializer

/-- A member with the name and metadata that its annotations give. -/
def Member.declare {σ : Type} (kind : MemberKind) (p : Property σ) : Member σ :=
  ⟨p, kind, p.externalName, p.annotations.memberMetadata, none, none, none, none⟩

def Member.isSettable {σ : Type} (m : Member σ) : Bool :=
  m.kind != .computed && m.property.isWritable

/-- The description of a type of beans. -/
structure Description (σ : Type) where
  bean : BeanType
  members : List (Member σ)
  /-- The state of a bean made without arguments. -/
  fresh : Option σ
  shape : Option Shape

def Description.make {σ : Type} (d : Description σ) : Option (Bean σ) :=
  d.fresh.map fun state => ⟨d.bean, state⟩

end BeanBinding
