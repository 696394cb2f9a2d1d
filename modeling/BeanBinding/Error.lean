import BeanBinding.Constructor
import BeanBinding.Schema.DecodeError
import BeanBinding.Tree.Writing

/-!
# Errors of a codec

What can go wrong when a codec is built for a type of beans, when a bean is written and when one is
read. Reading distinguishes faults of the document itself, which belong to the format, from values
that do not decode and from beans that refuse what was decoded.
-/

namespace BeanBinding

/-- Why no serializer or deserializer can be built from a draft. -/
inductive BuildProblem where
  | noProperties
  | duplicateWriter (name : String)
  | noCreator
  | duplicateProperty (name : String)
  | noSlot (creator : String) (slot : Nat)
  | duplicateCreator (name : String)
deriving DecidableEq, Repr

def BuildProblem.message : BuildProblem → String
  | noProperties => "no properties discovered to create a serializer"
  | duplicateWriter name => s!"multiple properties serialized as `{name}`"
  | noCreator => "no creator available to instantiate the bean"
  | duplicateProperty name => s!"multiple properties deserialized from `{name}`"
  | noSlot creator slot => s!"creator property `{creator}` has no argument slot {slot}"
  | duplicateCreator name => s!"multiple creator properties named `{name}`"

/-- What a codec can fail with. -/
inductive CodecError where
  | access (bean property : String) (cause : AccessError)
  | instantiation (bean : String) (cause : InstantiationError)
  | build (bean : String) (problem : BuildProblem)
  | selfReference (bean property : String)
  | unknownProperty (bean property : String)
  | missingProperty (bean property : String)
  | unsupportedValue (property actual : String)
  | beanMismatch (expected : String)
deriving DecidableEq, Repr

def CodecError.message : CodecError → String
  | access bean property cause =>
    s!"cannot access property `{property}` of `{bean}`: {cause.message}"
  | instantiation bean cause => s!"cannot instantiate `{bean}`: {cause.message}"
  | build bean problem => s!"cannot build codec of `{bean}`: {problem.message}"
  | selfReference bean property =>
    s!"direct self-reference through property `{property}` of `{bean}`"
  | unknownProperty bean property => s!"unknown property `{property}` for `{bean}`"
  | missingProperty bean property => s!"missing required property `{property}` for `{bean}`"
  | unsupportedValue property actual =>
    s!"serializer of property `{property}` cannot handle `{actual}`"
  | beanMismatch expected => s!"expected a bean of type `{expected}`"

/-- Why a bean could not be written. -/
inductive WriteError where
  | codec (e : CodecError)
  | value (f : WriteFault)
deriving DecidableEq, Repr

def WriteError.message : WriteError → String
  | codec e => e.message
  | value f => f.message

/-- Why a bean could not be read. -/
inductive ReadError where
  /-- The document is malformed outside the values of the bean's properties. -/
  | fault (f : Fault)
  /-- The value of a property does not decode. -/
  | value (e : DecodeError)
  /-- The document, or a name in it, is of another kind than a bean needs. -/
  | mismatch (found : Found) (expected : String)
  /-- An array has more elements than the bean; `atLeast` of them were seen. -/
  | surplus (atLeast : Nat)
  | codec (e : CodecError)

def ReadError.message : ReadError → String
  | fault f => f.message
  | value e => e.message
  | mismatch found expected => (DecodeError.mismatch found expected).message
  | surplus atLeast => (DecodeError.length atLeast "fewer elements").message
  | codec e => e.message

end BeanBinding
