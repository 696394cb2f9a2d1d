import BeanBinding.Metadata
import BeanBinding.Value

/-!
# Properties of beans

A bean has a type and a state; the library never looks into the state. A `Property` reads one value
from a bean and writes it, through accessors that were supplied when it was declared. Either
accessor may be missing. Accessors check what they are given, in this order: the type of the bean,
whether null is accepted, the type of the value.

A write may fail after it has changed the bean, so a failing accessor still hands back the bean.
-/

namespace BeanBinding

/-- A type of beans, known by its name. -/
structure BeanType where
  name : String
deriving DecidableEq, Repr

/-- A bean: its type, and a state that only its accessors know. -/
structure Bean (σ : Type) where
  type : BeanType
  state : σ

/-- Why a property could not be read or written. -/
inductive AccessError where
  | beanMismatch (expected : String)
  | valueMismatch (expected actual : String)
  | notReadable
  | notWritable
  | nullNotAccepted
  | rejected (message : String)
deriving DecidableEq, Repr

def AccessError.message : AccessError → String
  | beanMismatch expected => s!"expected a bean of type `{expected}`"
  | valueMismatch expected actual => s!"expected a value of type `{expected}`, found `{actual}`"
  | notReadable => "property is write-only"
  | notWritable => "property is read-only"
  | nullNotAccepted => "property does not accept null"
  | rejected message => message

/-- Where a value that was read lives. -/
inductive Source where
  /-- It was made for the reader. -/
  | computed
  /-- It is a part of the bean. -/
  | part
  /-- It lies where the bean itself lies. -/
  | whole
deriving DecidableEq, Repr

/-- A value that was read from a bean. -/
structure Reading where
  value : Value
  source : Source

/-- Whether a value was taken from the bean rather than made for the reader. -/
def Reading.isBorrowed (r : Reading) : Bool := r.source != .computed

/--
Whether a reading is the bean it was read from: it lies in the same place and has the same type.
-/
def Bean.yieldsItself {σ : Type} (bean : Bean σ) (r : Reading) : Bool :=
  r.source == .whole && r.value.type.name == bean.type.name

/-- Reads a value, or null, from a bean. -/
abbrev ReadAccess (σ : Type) := Bean σ → Except AccessError (Option Reading)

/-- A computation that changes a bean and may fail; a failure keeps the bean as it was left. -/
abbrev ChangeM (ε σ : Type) := EStateM ε (Bean σ)

/-- Writes a value, or null, into a bean. -/
abbrev WriteAccess (σ : Type) := Option Value → ChangeM AccessError σ Unit

/-- A property of the beans of one type. -/
structure Property (σ : Type) where
  name : String
  owner : BeanType
  valueType : ValueType
  nullable : Bool
  reader : Option (ReadAccess σ)
  writer : Option (WriteAccess σ)
  annotations : Annotations

namespace Property

variable {σ : Type}

/-! ## Declaring properties -/

def declare (owner : BeanType) (name : String) (valueType : ValueType) : Property σ :=
  ⟨name, owner, valueType, false, none, none, .empty⟩

/-- A read access that takes a value from the state of a bean of the owning type. -/
def reading (p : Property σ) (source : Source) (get : σ → Option Tree) : ReadAccess σ := fun bean =>
  if bean.type = p.owner then .ok ((get bean.state).map fun t => ⟨⟨p.valueType, t⟩, source⟩)
  else .error (.beanMismatch p.owner.name)

/-- Reads a value that is never null and lives in the bean. -/
def getter (p : Property σ) (get : σ → Tree) (source : Source := .part) : Property σ :=
  { p with reader := some (p.reading source fun s => some (get s)) }

/-- Reads a value that may be null and lives in the bean. Makes the property nullable. -/
def getterOpt (p : Property σ) (get : σ → Option Tree) (source : Source := .part) : Property σ :=
  { p with nullable := true, reader := some (p.reading source get) }

def getterOwned (p : Property σ) (get : σ → Tree) : Property σ :=
  { p with reader := some (p.reading .computed fun s => some (get s)) }

def checkOwner (p : Property σ) : ChangeM AccessError σ Unit := do
  if (← get).type ≠ p.owner then throw (.beanMismatch p.owner.name)

def content (p : Property σ) (v : Value) : ChangeM AccessError σ Tree :=
  match v.take p.valueType with
  | .ok t => pure t
  | .error v => throw (.valueMismatch p.valueType.name v.type.name)

/-- Writes a value, which may not be null, through an assignment that may fail. -/
def trySetter (p : Property σ) (set : Tree → EStateM AccessError σ Unit) : Property σ :=
  { p with writer := some fun value => do
      p.checkOwner
      let some v := value | throw .nullNotAccepted
      let t ← p.content v
      fun bean =>
        match set t bean.state with
        | .ok () state => .ok () { bean with state }
        | .error e state => .error e { bean with state } }

/-- Writes a value, which may not be null. -/
def setter (p : Property σ) (set : σ → Tree → σ) : Property σ :=
  { p with writer := some fun value => do
      p.checkOwner
      let some v := value | throw .nullNotAccepted
      let t ← p.content v
      modify fun bean => { bean with state := set bean.state t } }

/-- Writes a value or null. Makes the property nullable. -/
def setterOpt (p : Property σ) (set : σ → Option Tree → σ) : Property σ :=
  { p with
    nullable := true
    writer := some fun value => do
      p.checkOwner
      let t ← value.mapM fun v => p.content v
      modify fun bean => { bean with state := set bean.state t } }

/-- Says whether the property is nullable, whatever its accessors say. -/
def withNullable (p : Property σ) (nullable : Bool) : Property σ := { p with nullable }

def withAnnotations (p : Property σ) (annotations : Annotations) : Property σ :=
  { p with annotations }

/-! ## Using properties -/

def isReadable (p : Property σ) : Bool := p.reader.isSome

def isWritable (p : Property σ) : Bool := p.writer.isSome

def read (p : Property σ) : ReadAccess σ := fun bean =>
  match p.reader with
  | some read => read bean
  | none => .error .notReadable

/-- Writes a value, or null, into a bean. -/
def write (p : Property σ) : WriteAccess σ := fun value =>
  match p.writer with
  | some write => write value
  | none => throw .notWritable

def externalName (p : Property σ) : String := p.annotations.externalName p.name

end Property

end BeanBinding
