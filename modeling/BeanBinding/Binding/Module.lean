import BeanBinding.Binding.Deserialization
import BeanBinding.Binding.Serialization

/-!
# The introspection module

Binds a codec to introspections, unless its settings say not to.
-/

namespace BeanBinding

/-- The module that binds beans through their introspection. -/
def introspectionModule {σ : Type} : Module σ where
  name := "BeanIntrospectionModule"
  setup config :=
    if config.useIntrospection then ⟨[bindSerializers], [bindDeserializers]⟩ else .none

end BeanBinding
