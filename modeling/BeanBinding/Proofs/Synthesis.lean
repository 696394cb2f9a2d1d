import BeanBinding.Binding.Module
import BeanBinding.Codec
import BeanBinding.Proofs.Declared
import BeanBinding.Proofs.NameTable
import BeanBinding.Proofs.Writing

/-!
# What is made from an introspection

A type without a description starts from empty drafts, and binding then makes one writer
and one settable property for each introspected property, and one creator for each
argument. All of them go by names for documents and work through the accessors that the
introspection holds, so this file states for each what it is called and what it does.

A codec `Introspects` a type if nothing else has a say in it. Then its serializer and its
deserializer are known as soon as the introspection is.
-/

namespace BeanBinding

variable {σ : Type}

/-! ## Writers -/

namespace SerializationBinder

/-- The writer made from a property has its name for documents, and reads through it. -/
theorem synthesize_eq (b : SerializationBinder) (p : Property σ) :
    (b.synthesize p).name = p.externalName ∧
      (b.synthesize p).accessor = .introspected p ∧
      (b.synthesize p).serializer = none ∧ (b.synthesize p).nullSerializer = none := by
  unfold synthesize Writer.withInclusion
  cases b.inclusion with
  | always | nonNull | nonEmpty | nonDefault => exact ⟨rfl, rfl, rfl, rfl⟩

theorem name_synthesize (b : SerializationBinder) (p : Property σ) :
    (b.synthesize p).name = p.externalName :=
  (b.synthesize_eq p).1

theorem accessor_synthesize (b : SerializationBinder) (p : Property σ) :
    (b.synthesize p).accessor = .introspected p :=
  (b.synthesize_eq p).2.1

theorem plain_synthesize {b : SerializationBinder} {p : Property σ} (h : p.isReadable = true) :
    (b.synthesize p).Plain := by
  obtain ⟨-, haccessor, hserializer, hnull⟩ := b.synthesize_eq p
  exact ⟨by rw [haccessor]; exact h, hserializer, hnull⟩

theorem adjust_nil (b : SerializationBinder) (i : Introspection σ) :
    b.adjust i [] = i.properties.map b.synthesize := by
  unfold adjust synthesizes
  cases i.properties with
  | nil => rfl
  | cons => rfl

end SerializationBinder

/-! ## Settable properties and creators -/

namespace Settable

/-- A property that can be read is set as it is written. -/
theorem set_virtual {p : Property σ} (h : p.isReadable = true) : (virtual p).set = p.write := by
  funext value
  simp [virtual, h]

/-- Null is not written into a property that cannot be read. -/
theorem set_virtual_none {p : Property σ} (h : p.isReadable = false) :
    (virtual p).set none = pure () := by
  simp [virtual, h]

/-- A creator is set as the property behind it is written. -/
theorem set_creator {i : Introspection σ} {a : Argument} {p : Property σ}
    (h : behind i a = some p) : (creator i a).set = p.write := by
  funext value
  simp [creator, h]

end Settable

theorem DeserializationBinder.adjust_nil (i : Introspection σ) :
    adjust i [] = i.properties.map .virtual := by
  unfold adjust
  cases i.properties with
  | nil => rfl
  | cons => rfl

/-- The creators for the arguments take the slots of their positions. -/
theorem Introspection.WellFormed.slotAt_creator {i : Introspection σ} (h : i.WellFormed)
    {entry : Settable σ × Nat} (hentry : entry ∈ (i.arguments.map (Settable.creator i)).zipIdx) :
    DeserializerDraft.slotAt entry.1 entry.2 = entry.2 ∧ entry.2 < i.arguments.length := by
  have hget := List.mem_zipIdx_iff_getElem?.mp hentry
  rw [List.getElem?_map, Option.map_eq_some_iff] at hget
  obtain ⟨a, ha, hc⟩ := hget
  refine ⟨?_, (List.getElem?_eq_some_iff.mp ha).1⟩
  rw [← hc]
  exact h.argumentIndex entry.2 a ha

/-! ## Deserializers that rely on a constructor -/

namespace Deserializer

/-- The deserializer collects the arguments that an introspection declares. -/
structure Gathers (d : Deserializer σ) (i : Introspection σ) : Prop where
  indexed : d.Indexed
  creators : d.creators = i.arguments.map (.creator i)
  /-- A creator puts its value where the constructor looks for the argument. -/
  slotOf : ∀ k < i.arguments.length, d.slotOf k = k

/-- The deserializer makes its beans as an introspection says. -/
structure MakesBy (d : Deserializer σ) (i : Introspection σ) : Prop extends d.Gathers i where
  instantiator : d.instantiator = .ofIntrospection i

end Deserializer

namespace DeserializerDraft

variable {draft : DeserializerDraft σ} {i : Introspection σ}

/-- The creators are those for the arguments; without arguments there are none. -/
theorem creators_of_instantiator (h : draft.instantiator = .ofIntrospection i) :
    draft.creators = i.arguments.map (.creator i) := by
  unfold creators
  rw [h]
  unfold Instantiator.ofIntrospection
  cases i.arguments with
  | nil => rfl
  | cons => rfl

/-- **Positions, indices and slots of creators are one numbering.** -/
theorem makesBy_of_build {d : Deserializer σ} (h : draft.build = .ok d)
    (hi : i.WellFormed) (hm : draft.instantiator = .ofIntrospection i) : d.MakesBy i := by
  obtain ⟨hk, hindexed⟩ := indexed_of_build h
  have hcreators := hk.creators.trans (creators_of_instantiator hm)
  refine ⟨⟨hindexed, hcreators, ?_⟩, hk.instantiator.trans hm⟩
  intro k hk'
  have hget : (i.arguments.map (Settable.creator i)).zipIdx[k]? =
      some (.creator i i.arguments[k], k) := by
    simp [List.getElem?_eq_getElem hk']
  have hentry := List.mem_of_getElem? hget
  rw [Deserializer.slotOf, hindexed.creatorSlots, hcreators, List.getElem?_map, hget]
  exact (hi.slotAt_creator hentry).1

end DeserializerDraft

/-! ## Codecs that rely on introspection -/

namespace Codec

/-- The codec knows of a type what its introspection says, and nothing else. -/
structure Introspects (c : Codec σ) (registry : Registry σ) (i : Introspection σ) : Prop where
  modifiers : c.modifiers = ⟨[bindSerializers], [bindDeserializers]⟩
  description : c.description i.type = none
  registered : registry.find i.type = some i

theorem mem_putDescription {d e : Description σ} {ds : List (Description σ)}
    (h : e ∈ putDescription d ds) : e = d ∨ e ∈ ds := by
  induction ds with
  | nil => exact .inl (List.mem_singleton.mp h)
  | cons f ds ih =>
    rw [putDescription] at h
    split at h
    · rcases List.mem_cons.mp h with h | h
      · exact .inl h
      · exact .inr (List.mem_cons_of_mem f h)
    · rcases List.mem_cons.mp h with h | h
      · exact .inr (h ▸ List.mem_cons_self)
      · rcases ih h with h | h
        · exact .inl h
        · exact .inr (List.mem_cons_of_mem f h)

theorem mem_foldl_putDescription {e : Description σ} {ds known : List (Description σ)}
    (h : e ∈ ds.foldl (fun known d => putDescription d known) known) : e ∈ ds ∨ e ∈ known := by
  induction ds generalizing known with
  | nil => exact .inr h
  | cons d ds ih =>
    rcases ih h with h | h
    · exact .inl (List.mem_cons_of_mem d h)
    · rcases mem_putDescription h with h | h
      · exact .inl (h ▸ List.mem_cons_self)
      · exact .inr h

/-- The modules install their modifiers one after the other. -/
theorem modifiers_setup_eq (config : Config) (ds : List (Description σ))
    (modules : List (Module σ)) :
    (setup config ds modules).modifiers =
      ⟨modules.flatMap fun m => (m.setup config).serializer,
        modules.flatMap fun m => (m.setup config).deserializer⟩ := by
  have hfrom : ∀ installed : Modifiers σ,
      modules.foldl (fun ms m => ms.append (m.setup config)) installed =
        ⟨installed.serializer ++ modules.flatMap fun m => (m.setup config).serializer,
          installed.deserializer ++ modules.flatMap fun m => (m.setup config).deserializer⟩ := by
    induction modules with
    | nil => simp
    | cons m modules ih =>
      intro installed
      rw [List.foldl_cons, ih]
      simp [Modifiers.append]
  exact hfrom .none

/-- The introspection module installs the binders, if the settings ask for them. -/
theorem modifiers_setup {config : Config} {ds : List (Description σ)}
    (h : config.useIntrospection = true) :
    (setup config ds [introspectionModule]).modifiers =
      ⟨[bindSerializers], [bindDeserializers]⟩ := by
  simp [setup, introspectionModule, h, Modifiers.none, Modifiers.append]

/-- A codec does so that was set up with the introspection module and no description of the type. -/
theorem introspects_setup {config : Config} {ds : List (Description σ)} {registry : Registry σ}
    {i : Introspection σ} (hconfig : config.useIntrospection = true)
    (hds : ∀ d ∈ ds, d.bean ≠ i.type) (hi : registry.find i.type = some i) :
    (setup config ds [introspectionModule]).Introspects registry i where
  modifiers := modifiers_setup hconfig
  description := by
    refine List.find?_eq_none.mpr fun d hd => ?_
    rcases mem_foldl_putDescription hd with hd | hd
    · simpa using hds d hd
    · cases hd
  registered := hi

/-- The draft of the serializer of an introspected type. -/
def introspectedWriters (c : Codec σ) (i : Introspection σ) : SerializerDraft σ where
  bean := i.type
  shape := c.config.shape
  failOnEmpty := c.config.failOnEmpty
  writers := i.properties.map (SerializationBinder.ofConfig c.config).synthesize
  onBuildError := some noteBuildError

/-- The draft of the deserializer of an introspected type. -/
def introspectedProperties (c : Codec σ) (i : Introspection σ) : DeserializerDraft σ where
  bean := i.type
  shape := c.config.shape
  failOnUnknown := c.config.failOnUnknown
  properties := i.properties.map .virtual
  instantiator := .ofIntrospection i

variable {c : Codec σ} {registry : Registry σ} {i : Introspection σ}

theorem Introspects.buildSerializer (h : c.Introspects registry i) :
    (c.buildSerializer registry i.type).value = (c.introspectedWriters i).build := by
  simp only [Codec.buildSerializer, draftSerializer, h.description, h.modifiers, modifyDraft,
    bindSerializers, h.registered, introspectedWriters]
  rw [← SerializationBinder.adjust_nil]
  rfl

theorem Introspects.buildDeserializer (h : c.Introspects registry i) :
    (c.buildDeserializer registry i.type).value = (c.introspectedProperties i).build := by
  simp only [Codec.buildDeserializer, draftDeserializer, h.description, h.modifiers,
    modifyDraft, bindDeserializers, h.registered, introspectedProperties]
  rw [← DeserializationBinder.adjust_nil]
  rfl

/-- What a deserializer made from an introspection consists of. -/
structure Reads (c : Codec σ) (i : Introspection σ) (d : Deserializer σ) : Prop where
  indexed : d.Indexed
  bean : d.bean = i.type
  shape : d.shape = c.config.shape
  properties : d.properties = i.properties.map .virtual
  creators : d.creators = i.arguments.map (.creator i)
  instantiator : d.instantiator = .ofIntrospection i
  slotOf : ∀ k < i.arguments.length, d.slotOf k = k

theorem Reads.makesBy {d : Deserializer σ} (h : c.Reads i d) : d.MakesBy i :=
  ⟨⟨h.indexed, h.creators, h.slotOf⟩, h.instantiator⟩

/-- What is built from an introspection reads by it. -/
theorem reads_of_build {d : Deserializer σ} (hi : i.WellFormed)
    (hd : (c.introspectedProperties i).build = .ok d) : c.Reads i d := by
  have hk := (DeserializerDraft.indexed_of_build hd).1
  have hmakes := DeserializerDraft.makesBy_of_build hd hi rfl
  exact ⟨hmakes.indexed, hk.bean, hk.shape, hk.properties, hmakes.creators, hmakes.instantiator,
    hmakes.slotOf⟩

/-- **An introspection with distinct names gives a deserializer.** -/
theorem exists_reads (c : Codec σ) (hi : i.WellFormed)
    (hp : (i.properties.map (·.externalName)).Nodup)
    (ha : (i.arguments.map (·.externalName)).Nodup) :
    ∃ d, (c.introspectedProperties i).build = .ok d ∧ c.Reads i d := by
  have hcreators : (c.introspectedProperties i).creators = i.arguments.map (.creator i) :=
    DeserializerDraft.creators_of_instantiator rfl
  obtain ⟨d, hd⟩ : ∃ d, (c.introspectedProperties i).build = .ok d := by
    refine DeserializerDraft.exists_build rfl ?_ ?_ ?_
    · show ((i.properties.map Settable.virtual).map _).Nodup
      rw [List.map_map]
      exact hp
    · rw [hcreators, List.map_map]
      exact ha
    · intro entry hentry
      rw [hcreators] at hentry ⊢
      rw [(hi.slotAt_creator hentry).1, List.length_map]
      exact (hi.slotAt_creator hentry).2
  exact ⟨d, hd, reads_of_build hi hd⟩

end Codec

/-! ## Pairs -/

/-- A codec that knows beans by their introspection only. -/
def Pair.codec : Codec (Tree × Tree) := .setup .default [] [introspectionModule]

theorem Pair.codec_introspects (i : Introspection (Tree × Tree)) :
    Pair.codec.Introspects ⟨[i]⟩ i :=
  Codec.introspects_setup rfl (by simp) (by simp [Registry.find])

/-! ### Integers of 128 bits -/

namespace Wide

/-- The type of beans that are integers of 128 bits. -/
def type : BeanType := ⟨"Wide"⟩

/-- The type of their values. -/
def number : ValueType := ⟨"i128", .int .i128⟩

/-- An integer. -/
def of (n : Int) : Bean Tree := ⟨type, .int .i128 n⟩

/-- The integer, as a property. -/
def property : Property Tree :=
  ((Property.declare type "number" number).getter id).setter fun _ t => t

/-- The introspection of integers, which are zero when they are new. -/
def introspection : Introspection Tree :=
  ((Introspection.declare type).withProperty property).withFresh (of 0).state

/-- A codec that reads integers from lists. -/
def codec : Codec Tree :=
  .setup { Config.default with shape := .array } [] [introspectionModule]

end Wide

end BeanBinding
