import BeanBinding.Proofs.Alignment
import BeanBinding.Proofs.Matching
import BeanBinding.Proofs.Synthesis

/-!
# What is made from a description

A described type starts from the drafts of its description. A codec builds them as they
are, unless the introspection module is installed and knows the type: then the writers
and the settable properties are bound to introspected properties first.

This file says what is built in either case, and which members of the description a
draft speaks of: a writer is made from a member that can be read, and a settable property
from one that can be set.
-/

namespace BeanBinding

variable {σ : Type}

/-! ## Members in drafts -/

/-- The writers of a draft are those of the members that can be read. -/
theorem mem_writers_ofDescription {d : Description σ} {config : Config} {w : Writer σ} :
    w ∈ (SerializerDraft.ofDescription d config).writers ↔
      ∃ m ∈ d.members, m.property.isReadable = true ∧ SerializerDraft.writerOf config m = w := by
  show w ∈ SerializerDraft.sortByKey _ ↔ _
  rw [SerializerDraft.sortByKey, (List.mergeSort_perm _ _).mem_iff, List.mem_map]
  simp only [SerializerDraft.readableMembers, List.mem_filter, and_assoc]

theorem accessor_writerOf (config : Config) (m : Member σ) :
    (SerializerDraft.writerOf config m).accessor = .member m.property := by
  unfold SerializerDraft.writerOf Writer.withInclusion
  cases m.inclusion.getD config.inclusion with
  | always | nonNull | nonEmpty | nonDefault => rfl

/-- A member of the name can be set. -/
def Description.Sets (d : Description σ) (name : String) : Prop :=
  ∃ m ∈ d.members, m.isSettable = true ∧ m.name = name

/-- A member of the name can be read. -/
def Description.Reads (d : Description σ) (name : String) : Prop :=
  ∃ m ∈ d.members, m.property.isReadable = true ∧ m.name = name

theorem isSettable_of_ofMember {m : Member σ} {s : Settable σ} (h : Settable.ofMember m = some s) :
    m.isSettable = true := by
  unfold Settable.ofMember at h
  split at h
  · assumption
  · cases h

/-- The settable properties of a draft are those of the members that can be set. -/
theorem exists_property_ofDescription_iff (d : Description σ) (config : Config) (name : String) :
    (∃ s ∈ (DeserializerDraft.ofDescription d config).properties, s.name = name) ↔
      d.Sets name := by
  show (∃ s ∈ d.members.filterMap Settable.ofMember, s.name = name) ↔ _
  constructor
  · rintro ⟨s, hs, rfl⟩
    obtain ⟨m, hm, hof⟩ := List.mem_filterMap.mp hs
    exact ⟨m, hm, isSettable_of_ofMember hof, (name_ofMember hof).symm⟩
  · rintro ⟨m, hm, hset, rfl⟩
    obtain ⟨s, hs⟩ := Option.isSome_iff_exists.mp (isSome_ofMember hset)
    exact ⟨s, List.mem_filterMap.mpr ⟨m, hm, hs⟩, name_ofMember hs⟩

namespace Codec

/-! ## Codecs that know a description -/

/-- The codec knows of a type its description, and binds no introspection to it. -/
structure Describes (c : Codec σ) (registry : Registry σ) (d : Description σ) : Prop where
  description : c.description d.bean = some d
  unbound : c.modifiers = .none ∨
    c.modifiers = ⟨[bindSerializers], [bindDeserializers]⟩ ∧ registry.find d.bean = none

/-- The codec knows of a type its description, and binds an introspection to it. -/
structure Binds (c : Codec σ) (registry : Registry σ) (d : Description σ)
    (i : Introspection σ) : Prop where
  description : c.description d.bean = some d
  modifiers : c.modifiers = ⟨[bindSerializers], [bindDeserializers]⟩
  registered : registry.find d.bean = some i

/-- The draft of the serializer of a type with a description and an introspection. -/
def boundWriters (c : Codec σ) (d : Description σ) (i : Introspection σ) : SerializerDraft σ :=
  { SerializerDraft.ofDescription d c.config with
    writers := (SerializationBinder.ofConfig c.config).adjust i
      (SerializerDraft.ofDescription d c.config).writers
    onBuildError := some noteBuildError }

variable {c : Codec σ} {registry : Registry σ} {d : Description σ} {i : Introspection σ}

theorem Describes.buildSerializer (h : c.Describes registry d) :
    (c.buildSerializer registry d.bean).value =
      (SerializerDraft.ofDescription d c.config).build := by
  rcases h.unbound with hm | ⟨hm, hf⟩
  · simp only [Codec.buildSerializer, draftSerializer, h.description, hm, Modifiers.none,
      modifyDraft]
    rfl
  · simp only [Codec.buildSerializer, draftSerializer, h.description, hm, modifyDraft,
      bindSerializers, hf]
    rfl

theorem Describes.buildDeserializer (h : c.Describes registry d) :
    (c.buildDeserializer registry d.bean).value =
      (DeserializerDraft.ofDescription d c.config).build := by
  rcases h.unbound with hm | ⟨hm, hf⟩
  · simp only [Codec.buildDeserializer, draftDeserializer, h.description, hm, Modifiers.none,
      modifyDraft]
    rfl
  · simp only [Codec.buildDeserializer, draftDeserializer, h.description, hm, modifyDraft,
      bindDeserializers, hf]
    rfl

theorem Binds.buildSerializer (h : c.Binds registry d i) :
    (c.buildSerializer registry d.bean).value = (c.boundWriters d i).build := by
  simp only [Codec.buildSerializer, draftSerializer, h.description, h.modifiers, modifyDraft,
    bindSerializers, h.registered]
  rfl

/-! ## Setting up -/

variable {config : Config} {ds : List (Description σ)}

theorem describes_setup (h : (setup config ds []).description d.bean = some d) :
    (setup config ds []).Describes registry d :=
  ⟨h, .inl rfl⟩

theorem binds_setup (hconfig : config.useIntrospection = true)
    (hd : (setup config ds []).description d.bean = some d)
    (hi : registry.find d.bean = some i) :
    (setup config ds [introspectionModule]).Binds registry d i :=
  ⟨hd, modifiers_setup hconfig, hi⟩

/-- Otherwise the module installs nothing. -/
theorem setup_module_of_unused (h : config.useIntrospection = false) :
    setup config ds [introspectionModule] = setup config ds [] := by
  simp [setup, introspectionModule, h, Modifiers.none, Modifiers.append]

end Codec

end BeanBinding
