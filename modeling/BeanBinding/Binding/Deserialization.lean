import BeanBinding.Modifier

/-!
# Binding settable properties to introspected properties

A settable property backed by a method is set through the introspected property of the same name. A
draft without properties gets a virtual one for each introspected property. In either case beans
are made by the constructor that the introspection knows.
-/

namespace BeanBinding

namespace Settable

variable {σ : Type}

/--
The settable property set through an introspected property; everything else is kept, decoding
included.
-/
def through (s : Settable σ) (p : Property σ) : Settable σ := { s with set := p.write }

/--
The settable property made from an introspected property. A null for a property that cannot be
read is the placeholder that its writer leaves in an array, and is passed over.
-/
def virtual (p : Property σ) : Settable σ where
  name := p.externalName
  valueType := p.valueType
  metadata := p.annotations.metadata
  kind := .virtual
  annotations := p.annotations
  creatorIndex := none
  decoder := p.valueType.decoder
  set value := if value.isNone && !p.isReadable then pure () else p.write value

/-- The property behind an argument, through which the argument can be set later. -/
def behind (i : Introspection σ) (a : Argument) : Option (Property σ) :=
  (i.property a.name).filter (·.isWritable)

/--
The creator for an argument of the constructor. Without a property behind it, setting does nothing.
-/
def creator (i : Introspection σ) (a : Argument) : Settable σ where
  name := a.annotations.externalName a.name
  valueType := a.valueType
  metadata := a.annotations.metadata
  kind := .creator
  annotations := a.annotations
  creatorIndex := some a.index
  decoder := a.valueType.decoder
  set value :=
    match behind i a with
    | some p => p.write value
    | none => pure ()

end Settable

def Instantiator.ofIntrospection {σ : Type} (i : Introspection σ) : Instantiator σ where
  typeName := i.type.name
  makesEmpty := true
  makesFromValues := !i.arguments.isEmpty
  make := i.instantiate
  makeWith := i.instantiateWith
  creators := i.arguments.map (.creator i)

namespace DeserializationBinder

variable {σ : Type}

/--
The settable property set through the introspected property of its name, if a method backs it.
-/
def bind (i : Introspection σ) (s : Settable σ) : Settable σ :=
  if s.kind ≠ .method then s
  else
    match i.property s.name with
    | some p => s.through p
    | none => s

/-- The properties of a draft, bound to introspected ones or made from them. -/
def adjust (i : Introspection σ) (ss : List (Settable σ)) : List (Settable σ) :=
  if ss.isEmpty && !i.properties.isEmpty then i.properties.map .virtual else ss.map (bind i)

end DeserializationBinder

def bindDeserializers {σ : Type} : DeserializerModifier σ := fun registry _ type draft =>
  match registry.find type with
  | none => pure draft
  | some i => pure { draft with
      properties := DeserializationBinder.adjust i draft.properties
      instantiator := .ofIntrospection i }

end BeanBinding
