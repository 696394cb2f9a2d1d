import BeanBinding.Deserializer.ValueDeserializer
import BeanBinding.Description

/-!
# Settable properties

A `Settable` is a property as a deserializer sees it: a name in documents, a way to decode a value,
and a way to set the value on a bean. Creators are settables, too; their values go to a
constructor, and setting them only matters when a bean is updated.
-/

namespace BeanBinding

/-- What a settable property sets. -/
inductive SettableKind where
  | method
  | field
  | creator
  | virtual
  | custom
deriving DecidableEq, Repr

/-- A property that can be decoded and set. -/
structure Settable (σ : Type) where
  name : String
  valueType : ValueType
  metadata : Metadata
  kind : SettableKind
  annotations : Annotations
  /-- The slot among the arguments of a constructor. -/
  creatorIndex : Option Nat
  decoder : ValueDecoder
  set : WriteAccess σ

/-- Whether the property has an annotation of one of several kinds. -/
def Settable.hasOneOf {σ : Type} (s : Settable σ) (kinds : List String) : Bool :=
  s.annotations.hasAny kinds

/-- The kind of a settable member; computed members have none. -/
def MemberKind.settable : MemberKind → Option SettableKind
  | method => some .method
  | field => some .field
  | computed => none

/-- The settable property of a described member, if it is settable. -/
def Settable.ofMember {σ : Type} (m : Member σ) : Option (Settable σ) :=
  if m.isSettable then
    m.kind.settable.map fun kind => {
      name := m.name
      valueType := m.property.valueType
      metadata := m.metadata
      kind
      annotations := m.property.annotations
      creatorIndex := none
      decoder := (m.deserializer.map (·.decoder)).getD m.property.valueType.decoder
      set := m.property.write }
  else none

end BeanBinding
