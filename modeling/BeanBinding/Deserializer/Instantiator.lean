import BeanBinding.Deserializer.Settable
import BeanBinding.Error

/-!
# Instantiators

An `Instantiator` makes the beans of a deserializer, without arguments or from the values of its
creators. What it says it can do and what it does are independent; the deserializer asks first.
-/

namespace BeanBinding

/-- Makes beans. -/
structure Instantiator (σ : Type) where
  typeName : String
  /-- Whether it makes beans without arguments. -/
  makesEmpty : Bool
  /-- Whether it makes beans from the values of its creators. -/
  makesFromValues : Bool
  make : Except InstantiationError (Bean σ)
  makeWith : List (Option Value) → Except InstantiationError (Bean σ)
  creators : List (Settable σ)

namespace Instantiator

variable {σ : Type}

def makesBeans (i : Instantiator σ) : Bool := i.makesEmpty || i.makesFromValues

def none (bean : BeanType) : Instantiator σ where
  typeName := bean.name
  makesEmpty := false
  makesFromValues := false
  make := .error (.noConstructor bean.name)
  makeWith _ := .error (.noConstructor bean.name)
  creators := []

def ofDescription (d : Description σ) : Instantiator σ :=
  { none d.bean with
    makesEmpty := d.fresh.isSome
    make := match d.make with
      | some bean => .ok bean
      | Option.none => .error (.noConstructor d.bean.name) }

end Instantiator

end BeanBinding
