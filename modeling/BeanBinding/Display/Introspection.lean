import BeanBinding.Introspection

/-!
# Showing introspections to people

Types are named, accessors are shown as present or missing, and annotations as a map from kinds to
their attributes.
-/

namespace BeanBinding

def AttributeValue.display : AttributeValue → String
  | bool b => displayBool b
  | int n => toString n
  | text s => Text.display s

def displayAttribute (entry : String × AttributeValue) : String :=
  parenthesized "" [Text.display entry.1, entry.2.display]

def Annotations.display (as : Annotations) : String :=
  braced (as.entries.map fun a => (Text.display a.kind, bracketed (a.values.map displayAttribute)))

def Metadata.display (m : Metadata) : String :=
  shown "PropertyMetadata" [
    ("required", displayBool m.required),
    ("description", displayOption (m.description.map Text.display)),
    ("index", displayOption (m.index.map toString)),
    ("default_value", displayOption (m.default.map Text.display))] false

def Property.display {σ : Type} (p : Property σ) : String :=
  shown "PropertyDescriptor" [
    ("name", Text.display p.name),
    ("declaring_type", Text.display p.owner.name),
    ("value_type", p.valueType.name),
    ("nullable", displayBool p.nullable),
    ("readable", displayBool p.isReadable),
    ("writable", displayBool p.isWritable),
    ("annotations", p.annotations.display)] false

def Argument.display (a : Argument) : String :=
  shown "ConstructorArgument" [
    ("name", Text.display a.name),
    ("index", toString a.index),
    ("value_type", a.valueType.name),
    ("nullable", displayBool a.nullable)] false

def Introspection.display {σ : Type} (i : Introspection σ) : String :=
  shown "TypeIntrospection" [
    ("type_name", Text.display i.type.name),
    ("properties", bracketed (i.properties.map (·.display))),
    ("arguments", bracketed (i.arguments.map (·.display))),
    ("default_constructor", displayBool i.fresh.isSome),
    ("constructor", displayBool i.constructor.isSome)] false

/-- The display form of an introspection as a maker of beans. -/
def Introspection.displayInstantiator {σ : Type} (i : Introspection σ) : String :=
  shown "ConstructorInstantiator" [("introspection", i.display)] false

/-- The display form of a registry: the names of its types. -/
def Registry.display {σ : Type} (r : Registry σ) : String :=
  "\x7b" ++ ", ".intercalate (r.introspections.map fun i => Text.display i.type.name) ++ "\x7d"

end BeanBinding
