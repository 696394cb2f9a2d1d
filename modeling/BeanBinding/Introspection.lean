import BeanBinding.Constructor
import BeanBinding.Note

/-!
# Introspections

An `Introspection` says all that is known about a type of beans: its properties by name, the
arguments of its constructor by place, and how to make a bean. Names of properties are unique; a
later declaration takes the place of an earlier one.
-/

namespace BeanBinding

/-- What is known about a type of beans. -/
structure Introspection (σ : Type) where
  type : BeanType
  properties : List (Property σ)
  arguments : List Argument
  /-- The state of a bean made without arguments. -/
  fresh : Option σ
  constructor : Option (Constructor σ)
  annotations : Annotations

namespace Introspection

variable {σ : Type}

/-! ## Declaring introspections -/

/-- An introspection that knows nothing but the type. -/
def declare (type : BeanType) : Introspection σ := ⟨type, [], [], none, none, .empty⟩

/-- A property list with a property added, in the place of one with its name if there is one. -/
def putProperty (p : Property σ) : List (Property σ) → List (Property σ)
  | [] => [p]
  | q :: qs => if q.name = p.name then p :: qs else q :: putProperty p qs

def withProperty (i : Introspection σ) (p : Property σ) : Introspection σ :=
  { i with properties := putProperty p i.properties }

def withArgument (i : Introspection σ) (a : Argument) : Introspection σ :=
  { i with arguments := i.arguments ++ [{ a with index := i.arguments.length }] }

/-- Makes beans without arguments in the given state. -/
def withFresh (i : Introspection σ) (state : σ) : Introspection σ := { i with fresh := some state }

def withConstructor (i : Introspection σ) (c : Constructor σ) : Introspection σ :=
  { i with constructor := some c }

def withAnnotations (i : Introspection σ) (annotations : Annotations) : Introspection σ :=
  { i with annotations }

/-! ## Using introspections -/

def property (i : Introspection σ) (name : String) : Option (Property σ) :=
  i.properties.find? fun p => p.name = name

/-- The warning due when a property is added whose name is taken. -/
def duplicateWarning (i : Introspection σ) (p : Property σ) : Option String :=
  (i.property p.name).map fun _ =>
    s!"Duplicate property `{p.name}` on `{i.type.name}`, " ++
      "the later declaration replaces the earlier one."

/-- Adds a property, and notes if another one of its name is replaced. -/
def addProperty (i : Introspection σ) (p : Property σ) : Noted (Introspection σ) :=
  ⟨i.withProperty p, (i.duplicateWarning p).toList.map (⟨.warning, ·⟩)⟩

/-- The names of the properties, in order. -/
def propertyNames (i : Introspection σ) : List String := i.properties.map (·.name)

def construct (i : Introspection σ) (c : Constructor σ) (values : List (Option Value)) :
    Except InstantiationError (Bean σ) :=
  match c ⟨i.type, i.arguments, values⟩ with
  | .ok state _ => .ok ⟨i.type, state⟩
  | .error e _ => .error e

/-- Makes a bean without arguments; a constructor serves if it has no arguments. -/
def instantiate (i : Introspection σ) : Except InstantiationError (Bean σ) :=
  match i.fresh, i.constructor with
  | some state, _ => .ok ⟨i.type, state⟩
  | none, some c =>
    if i.arguments.isEmpty then i.construct c [] else .error (.argumentsRequired i.type.name)
  | none, none => .error (.noConstructor i.type.name)

/-- Makes a bean from one value, or null, for each argument. -/
def instantiateWith (i : Introspection σ) (values : List (Option Value)) :
    Except InstantiationError (Bean σ) :=
  match i.constructor with
  | none => .error (.noConstructor i.type.name)
  | some c =>
    if values.length ≠ i.arguments.length then
      .error (.argumentCount i.type.name i.arguments.length values.length)
    else i.construct c values

end Introspection

/-! ## Registries -/

/-- The introspections that were registered, the first of each type. -/
structure Registry (σ : Type) where
  introspections : List (Introspection σ)

namespace Registry

variable {σ : Type}

def empty : Registry σ := ⟨[]⟩

def find (r : Registry σ) (type : BeanType) : Option (Introspection σ) :=
  r.introspections.find? fun i => i.type = type

def contains (r : Registry σ) (type : BeanType) : Bool := (r.find type).isSome

/-- Registers an introspection unless its type has one. -/
def register (r : Registry σ) (i : Introspection σ) : Registry σ :=
  if r.contains i.type then r else ⟨r.introspections ++ [i]⟩

def size (r : Registry σ) : Nat := r.introspections.length

end Registry

end BeanBinding
