import BeanBinding.Deserializer.Draft
import BeanBinding.Introspection
import BeanBinding.Note
import BeanBinding.Serializer.Draft

/-!
# Modifiers and modules

A modifier changes the draft that a codec has made for a type. It sees the settings and, because
introspections may be registered at any time, the registry as it is when the draft is made. A module
installs modifiers once, when the codec is set up.
-/

namespace BeanBinding

/-- Changes drafts of one kind. -/
abbrev DraftModifier (σ D : Type) := Registry σ → Config → BeanType → D → Noted D

/-- Changes drafts of serializers. -/
abbrev SerializerModifier (σ : Type) := DraftModifier σ (SerializerDraft σ)

/-- Changes drafts of deserializers. -/
abbrev DeserializerModifier (σ : Type) := DraftModifier σ (DeserializerDraft σ)

/-- The modifiers that a module installs. -/
structure Modifiers (σ : Type) where
  serializer : List (SerializerModifier σ)
  deserializer : List (DeserializerModifier σ)

def Modifiers.none {σ : Type} : Modifiers σ := ⟨[], []⟩

/-- The modifiers of two modules, one after the other. -/
def Modifiers.append {σ : Type} (a b : Modifiers σ) : Modifiers σ :=
  ⟨a.serializer ++ b.serializer, a.deserializer ++ b.deserializer⟩

/-- A named way to install modifiers. -/
structure Module (σ : Type) where
  name : String
  setup : Config → Modifiers σ

/-- Changes a draft by each of the modifiers in turn. -/
def modifyDraft {σ D : Type} (registry : Registry σ) (config : Config) (type : BeanType) :
    List (DraftModifier σ D) → D → Noted D
  | [], draft => pure draft
  | m :: ms, draft => do modifyDraft registry config type ms (← m registry config type draft)

end BeanBinding
