import BeanBinding.Codec
import BeanBinding.Display.Introspection

/-!
# Showing codecs and their parts to people

Functions are not shown; a form that leaves out parts ends in dots.
-/

namespace BeanBinding

def Config.display (c : Config) : String :=
  shown "CodecConfig" [
    ("use_bean_introspection", displayBool c.useIntrospection),
    ("default_inclusion", c.inclusion.display),
    ("shape", c.shape.display),
    ("fail_on_unknown_properties", displayBool c.failOnUnknown),
    ("fail_on_self_references", displayBool c.failOnSelfReference),
    ("fail_on_empty_beans", displayBool c.failOnEmpty)] false

/-! ## Writing -/

def ValueSerializer.display (s : ValueSerializer) : String :=
  shown "ValueSerializer" [("handles", Text.display s.handles)] true

def Strategy.display : Strategy → String
  | member => "Member"
  | introspection => "Introspection"
  | custom => "Custom"

def Suppression.display : Suppression → String
  | empty => "Empty"
  | equal default => parenthesized "Default" [default.display]

def SelfReference.display : SelfReference → String
  | fail => "Fail"
  | writeNull => "WriteNull"
  | passThrough => "PassThrough"
  | alternate s => parenthesized "Alternate" [s.display]

def Writer.display {σ : Type} (w : Writer σ) : String :=
  shown "PropertyWriter" [
    ("name", Text.display w.name),
    ("value_type", w.valueType.name),
    ("strategy", w.accessor.strategy.display),
    ("serializer", displayOption (w.serializer.map (·.display))),
    ("null_serializer", displayOption (w.nullSerializer.map (·.display))),
    ("suppress_nulls", displayBool w.suppressNulls),
    ("suppression", displayOption (w.suppression.map (·.display))),
    ("self_reference", w.selfReference.display)] false

def Serializer.display {σ : Type} (s : Serializer σ) : String :=
  shown "BeanSerializer" [
    ("bean", s.bean.name),
    ("shape", s.shape.display),
    ("writers", bracketed (s.writers.map (·.display)))] false

def SerializerDraft.display {σ : Type} (d : SerializerDraft σ) : String :=
  shown "BeanSerializerBuilder" [
    ("bean", d.bean.name),
    ("shape", d.shape.display),
    ("properties", bracketed (d.writers.map (·.display)))] true

/-! ## Reading -/

def ValueDeserializer.display (d : ValueDeserializer) : String :=
  shown "ValueDeserializer" [("produces", Text.display d.produces)] true

/-- The display form of a kind of settable properties. -/
def SettableKind.display : SettableKind → String
  | method => "Method"
  | field => "Field"
  | creator => "Creator"
  | virtual => "Virtual"
  | custom => "Custom"

def Settable.display {σ : Type} (s : Settable σ) : String :=
  shown "SettableProperty" [
    ("name", Text.display s.name),
    ("kind", s.kind.display),
    ("value_type", s.valueType.name)] false

def Deserializer.display {σ : Type} (d : Deserializer σ) : String :=
  shown "BeanDeserializer" [
    ("bean", d.bean.name),
    ("shape", d.shape.display),
    ("properties", bracketed (d.properties.map (·.display))),
    ("creators", bracketed (d.creators.map (·.display)))] true

def DeserializerDraft.display {σ : Type} (d : DeserializerDraft σ) : String :=
  shown "BeanDeserializerBuilder" [
    ("bean", d.bean.name),
    ("shape", d.shape.display),
    ("properties", bracketed (d.properties.map (·.display)))] true

/-! ## Descriptions and codecs -/

def MemberKind.display : MemberKind → String
  | method => "Method"
  | field => "Field"
  | computed => "Computed"

def Member.display {σ : Type} (m : Member σ) : String :=
  shown "BeanMember" [
    ("name", Text.display m.name),
    ("kind", m.kind.display),
    ("descriptor", m.property.display),
    ("metadata", m.metadata.display),
    ("inclusion", displayOption (m.inclusion.map (·.display)))] true

def Description.display {σ : Type} (d : Description σ) : String :=
  shown "BeanDescription" [
    ("bean", d.bean.name),
    ("members", bracketed (d.members.map (·.display))),
    ("default_constructor", displayBool d.fresh.isSome),
    ("shape", displayOption (d.shape.map (·.display)))] false

/-- The display form of a module: its name alone. -/
def Module.display {σ : Type} (m : Module σ) : String := shown m.name [] true

def Codec.display {σ : Type} (c : Codec σ) : String :=
  shown "Codec" [
    ("config", c.config.display),
    ("descriptions", toString c.descriptions.length),
    ("serializer_modifiers", toString c.modifiers.serializer.length),
    ("deserializer_modifiers", toString c.modifiers.deserializer.length)] true

end BeanBinding
