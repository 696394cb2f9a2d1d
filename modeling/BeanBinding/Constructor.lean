import BeanBinding.Property

/-!
# Constructors

A constructor makes the state of a bean from arguments. It takes them out of their slots one by
one, by place and type; a slot is empty after it has been taken from.
-/

namespace BeanBinding

/-- Why a bean could not be made. -/
inductive InstantiationError where
  | noConstructor (type : String)
  | argumentsRequired (type : String)
  | argumentCount (type : String) (expected found : Nat)
  | missingArgument (type name : String)
  | argumentType (type name expected actual : String)
  | rejected (message : String)
deriving DecidableEq, Repr

def InstantiationError.message : InstantiationError → String
  | noConstructor type => s!"`{type}` has no constructor"
  | argumentsRequired type => s!"`{type}` cannot be instantiated without arguments"
  | argumentCount type expected found =>
    s!"`{type}` expects {expected} constructor arguments, got {found}"
  | missingArgument type name => s!"missing constructor argument `{name}` for `{type}`"
  | argumentType type name expected actual =>
    s!"constructor argument `{name}` of `{type}` expects `{expected}`, found `{actual}`"
  | rejected message => message

/-- A declared argument of a constructor, with its place among the arguments. -/
structure Argument where
  name : String
  index : Nat
  valueType : ValueType
  nullable : Bool
  annotations : Annotations

def Argument.declare (name : String) (valueType : ValueType) : Argument :=
  ⟨name, 0, valueType, false, .empty⟩

/-- The arguments handed to a constructor: those declared, and a slot for each value supplied. -/
structure Arguments where
  owner : BeanType
  declared : List Argument
  slots : List (Option Value)

/-- A computation on arguments that may fail, and keeps what it has taken out of them. -/
abbrev ArgumentM := EStateM InstantiationError Arguments

namespace Arguments

/-- How an argument is named in errors: by its name, or by its place if it is not declared. -/
def nameOf (args : Arguments) (index : Nat) : String :=
  match args.declared[index]? with
  | some a => a.name
  | none => s!"#{index}"

def size (args : Arguments) : Nat := args.slots.length

/-- Takes a value of the given type, or null, out of a slot. -/
def takeOpt (index : Nat) (type : ValueType) : ArgumentM (Option Tree) := do
  let args ← get
  match args.slots[index]? with
  | none => throw (.missingArgument args.owner.name (args.nameOf index))
  | some slot =>
    set { args with slots := args.slots.set index none }
    match slot with
    | none => return none
    | some v =>
      match v.take type with
      | .ok t => return some t
      | .error v =>
        throw (.argumentType args.owner.name (args.nameOf index) type.name v.type.name)

/-- Takes a value of the given type out of a slot; null is no value. -/
def take (index : Nat) (type : ValueType) : ArgumentM Tree := do
  match ← takeOpt index type with
  | some t => return t
  | none =>
    let args ← get
    throw (.missingArgument args.owner.name (args.nameOf index))

/-- Takes a value of the given type out of a slot, or the type's default in place of null. -/
def takeOrDefault (index : Nat) (type : ValueType) : ArgumentM Tree := do
  return (← takeOpt index type).getD type.schema.default

end Arguments

/-- A constructor of beans with states in `σ`. -/
abbrev Constructor (σ : Type) := ArgumentM σ

end BeanBinding
