import BeanBinding.Config
import BeanBinding.Error
import BeanBinding.Serializer.ValueSerializer

/-!
# Property writers

A `Writer` writes one property of a bean. It reads the property through an accessor and then decides
what is written: nothing, null, the value itself, the value as a custom serializer gives it, or a
fixed value that stands for null. Bean and property alone decide; how the property is read does not.
-/

namespace BeanBinding

/-- By what means a property is read. -/
inductive Strategy where
  | member
  | introspection
  | custom
deriving DecidableEq, Repr

/-- The means to read a property of a bean. -/
structure Accessor (σ : Type) where
  strategy : Strategy
  readable : Bool
  read : ReadAccess σ

/-- Reads through the accessors of a described member. -/
def Accessor.member {σ : Type} (p : Property σ) : Accessor σ := ⟨.member, p.isReadable, p.read⟩

/-- Reads through the accessors of an introspected property. -/
def Accessor.introspected {σ : Type} (p : Property σ) : Accessor σ :=
  ⟨.introspection, p.isReadable, p.read⟩

/-- Reads by other means; always readable. -/
def Accessor.custom {σ : Type} (read : ReadAccess σ) : Accessor σ := ⟨.custom, true, read⟩

/-- Which values that are not null are left out. -/
inductive Suppression where
  | empty
  | equal (default : Value)

/-- What is done with a property that yields the bean itself. -/
inductive SelfReference where
  | fail
  | writeNull
  | passThrough
  | alternate (s : ValueSerializer)

/-- The policy on self-references that the settings ask for. -/
def Config.selfReference (c : Config) : SelfReference :=
  if c.failOnSelfReference then .fail else .writeNull

/-- Writes one property of a bean. -/
structure Writer (σ : Type) where
  name : String
  valueType : ValueType
  metadata : Metadata
  accessor : Accessor σ
  serializer : Option ValueSerializer
  /-- The value written in the place of null. -/
  nullSerializer : Option Value
  suppressNulls : Bool
  suppression : Option Suppression
  selfReference : SelfReference

/-- What a writer decides to write. -/
inductive Emission where
  | nothing
  | null
  | value (v : Value) (serializer : Option ValueSerializer)
  | fixed (v : Value)

namespace Writer

variable {σ : Type}

/-! ## Declaring writers -/

def declare (name : String) (valueType : ValueType) (accessor : Accessor σ) : Writer σ :=
  ⟨name, valueType, .optional, accessor, none, none, false, none, .fail⟩

/-- The writer with another type and accessor, and everything else kept. -/
def rebind (w : Writer σ) (valueType : ValueType) (accessor : Accessor σ) : Writer σ :=
  { w with valueType, accessor }

/--
The suppression that the declared default asks for: of the default, or of empty values without one.
-/
def defaultSuppression (w : Writer σ) : Suppression :=
  match w.metadata.default.bind w.valueType.ofLiteral with
  | some v => .equal v
  | none => .empty

/-- Applies an inclusion rule; it decides on nulls and on the values that are left out. -/
def withInclusion (w : Writer σ) (rule : Inclusion) : Writer σ :=
  match rule with
  | .always => { w with suppressNulls := false, suppression := none }
  | .nonNull => { w with suppressNulls := true, suppression := none }
  | .nonEmpty => { w with suppressNulls := true, suppression := some .empty }
  | .nonDefault => { w with suppressNulls := true, suppression := some w.defaultSuppression }

/-- The warning due when an inclusion rule needs a declared default that the type cannot read. -/
def inclusionWarning (w : Writer σ) (rule : Inclusion) : Option String :=
  match rule, w.metadata.default with
  | .nonDefault, some literal =>
    match w.valueType.ofLiteral literal with
    | some _ => none
    | none => some
        (s!"Default value `{literal}` of property `{w.name}` is not a `{w.valueType.name}`, " ++
          "suppressing empty values instead.")
  | _, _ => none

/-! ## Writing -/

def isEmpty (w : Writer σ) (v : Value) : Bool :=
  match w.serializer with
  | some s => s.isEmpty v
  | none => v.isEmpty

def suppresses (w : Writer σ) (v : Value) : Bool :=
  match w.suppression with
  | none => false
  | some .empty => w.isEmpty v
  | some (.equal default) => default.same v

def emitNull (w : Writer σ) : Emission :=
  match w.nullSerializer with
  | some v => .fixed v
  | none => if w.suppressNulls then .nothing else .null

/-- What the writer writes for a bean that yields itself. -/
def emitSelf (w : Writer σ) (bean : String) (v : Value) : Except CodecError Emission :=
  match w.selfReference with
  | .fail => .error (.selfReference bean w.name)
  | .writeNull => .ok .null
  | .passThrough => .ok (.value v none)
  | .alternate s => .ok (.value v (some s))

def emit (w : Writer σ) (bean : Bean σ) : Except CodecError Emission :=
  if w.accessor.readable then
    match w.accessor.read bean with
    | .error e => .error (.access bean.type.name w.name e)
    | .ok none => .ok w.emitNull
    | .ok (some r) =>
      if w.suppresses r.value then .ok .nothing
      else if bean.yieldsItself r then w.emitSelf bean.type.name r.value
      else .ok (.value r.value w.serializer)
  else .ok .nothing

/-- The JSON form of a value, as a custom serializer gives it if there is one. -/
def encode (w : Writer σ) (v : Value) (serializer : Option ValueSerializer) :
    Except WriteError Json :=
  match serializer with
  | none => v.toJson.mapError .value
  | some s =>
    match s.convert v with
    | some converted => converted.toJson.mapError .value
    | none => .error (.codec (.unsupportedValue w.name v.type.name))

/-- The JSON form of what is written; none for nothing. -/
def Emission.toJson (w : Writer σ) : Emission → Except WriteError (Option Json)
  | .nothing => .ok none
  | .null => .ok (some .null)
  | .fixed v => (w.encode v none).map some
  | .value v s => (w.encode v s).map some

/-- The value written under the writer's name, if there is an entry for it. -/
def field (w : Writer σ) (bean : Bean σ) : Except WriteError (Option Json) := do
  let e ← (w.emit bean).mapError .codec
  Emission.toJson w e

/-- What stands in an array where nothing is written. -/
def placeholder (w : Writer σ) : Except WriteError Json :=
  match w.nullSerializer with
  | some v => w.encode v none
  | none => .ok .null

/-- The value written at the writer's place in an array. -/
def element (w : Writer σ) (bean : Bean σ) : Except WriteError Json := do
  match ← w.field bean with
  | some j => return j
  | none => w.placeholder

end Writer

end BeanBinding
