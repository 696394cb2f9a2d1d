import BeanBinding.Proofs.Describing
import BeanBinding.Proofs.Typing

/-!
# Binding changes nothing that is set

A bound settable property is set through an introspected property instead of its own
member; name, decoder and place stay. So if the two write alike, and the introspection
makes the new bean that the description makes, no document tells the difference: neither
what is read, nor what an update leaves behind, nor where either of them stops.

This is the other half of what binding does; `Rebinding` is about writers. Properties only
have to write alike on beans of their own type, so it is needed here that setting one of
them leads to such a bean again.
-/

namespace BeanBinding

variable {σ : Type}

/-- Two settable properties that beans of a type cannot tell apart. -/
structure Settable.Alike (s t : Settable σ) (type : BeanType) : Prop where
  name : s.name = t.name
  decoder : s.decoder = t.decoder
  set : ∀ value (bean : Bean σ), bean.type = type → s.set value bean = t.set value bean

/-- A settable property is bound to its target only, and then sets what it set before. -/
theorem DeserializationBinder.alike_bind {i : Introspection σ} {s : Settable σ} {type : BeanType}
    (h : ∀ p, target i s = some p → ∀ value (bean : Bean σ), bean.type = type →
      p.write value bean = s.set value bean) :
    (bind i s).Alike s type := by
  cases ht : target i s with
  | none =>
    rw [bind_of_target_none ht]
    exact ⟨rfl, rfl, fun _ _ _ => rfl⟩
  | some p =>
    rw [bind_of_target ht]
    exact ⟨rfl, rfl, h p ht⟩

theorem DeserializationBinder.name_bind (i : Introspection σ) (s : Settable σ) :
    (bind i s).name = s.name := by
  unfold bind
  split
  · rfl
  · split
    · rfl
    · rfl

/-! ## Deserializers -/

namespace Deserializer

/-- The deserializer with its properties replaced one by one, and other means to make beans. -/
def replacing (d : Deserializer σ) (f : Settable σ → Settable σ) (inst : Instantiator σ) :
    Deserializer σ :=
  { d with properties := d.properties.map f, instantiator := inst }

variable {d : Deserializer σ} {f : Settable σ → Settable σ} {inst : Instantiator σ}
  {r : Position} {ending : Option Fault} {bean : Bean σ}

theorem property_replacing (name : String) :
    (d.replacing f inst).property name = (d.property name).map f := by
  unfold property replacing
  cases d.propertyIndex.lookup name with
  | none => rfl
  | some index =>
    show (d.properties.map f)[index]? = _
    rw [List.getElem?_map]
    rfl

/-- Without creators, entries of an update go to properties as those of a new bean do. -/
theorem updated_eq_property (hc : d.creators = []) : d.updated = d.property := by
  funext name
  have hcreator : d.creator name = none := by
    unfold creator
    rw [hc]
    cases d.creatorIndex.lookup name with
    | none => rfl
    | some position => rfl
  unfold updated
  rw [hcreator]
  cases d.property name with
  | none => rfl
  | some s => rfl

theorem elements_replacing (hc : d.creators = []) :
    (d.replacing f inst).elements = d.elements.map fun x => (x.1, f x.2) := by
  unfold elements
  rw [List.map_filterMap]
  refine List.filterMap_congr fun slot _ => ?_
  cases slot with
  | property index =>
    show ((d.properties.map f)[index]?).map _ = _
    rw [List.getElem?_map, Option.map_map, Option.map_map]
    rfl
  | creator position =>
    show (d.creators[position]?).map _ = ((d.creators[position]?).map _).map _
    rw [hc]
    rfl

/-- Handing a value to a property alike has the same effect, and fails alike. -/
theorem hand_replacing {s : Settable σ} (h : (f s).Alike s d.bean)
    (value : Except ReadError (Option Value)) (rest : Except ReadError Unit)
    (hb : bean.type = d.bean) :
    (d.replacing f inst).hand (f s) value rest bean = d.hand s value rest bean := by
  rw [hand_eq, hand_eq]
  cases value with
  | error e => rfl
  | ok v =>
    dsimp only
    rw [h.set v bean hb, h.name]
    rfl

theorem handEntry_replacing {find : String → Option (Settable σ)}
    (hfind : ∀ name s, find name = some s → (f s).Alike s d.bean) (e : Entry)
    (hb : bean.type = d.bean) :
    (d.replacing f inst).handEntry (fun name => (find name).map f) r e bean =
      d.handEntry find r e bean := by
  unfold handEntry
  cases hkey : e.key with
  | error x => rfl
  | ok name =>
    have hlift : (lift (.ok name) : ChangeM ReadError σ String) bean = .ok name bean := rfl
    rw [change_bind_ok hlift, change_bind_ok hlift]
    dsimp only
    cases hs : find name with
    | none => rfl
    | some s =>
      have halike := hfind name s hs
      have hdecode : decodeEntry (f s) r e.value = decodeEntry s r e.value := by
        unfold decodeEntry
        rw [halike.decoder]
      have hrest : checkEntryRest (f s) r e.value = checkEntryRest s r e.value := by
        unfold checkEntryRest checkRest
        rw [halike.decoder]
      show (d.replacing f inst).hand (f s) _ _ bean = d.hand s _ _ bean
      rw [hdecode, hrest]
      exact hand_replacing halike _ _ hb

theorem handItem_replacing {s : Settable σ} (h : (f s).Alike s d.bean) (item : Item)
    (hb : bean.type = d.bean) :
    (d.replacing f inst).handItem r (f s, item) bean = d.handItem r (s, item) bean := by
  have hdecode : decodeItem (f s) r item = decodeItem s r item := by
    unfold decodeItem
    rw [h.decoder]
  have hrest : checkItemRest (f s) r item = checkItemRest s r item := by
    unfold checkItemRest checkRest
    rw [h.decoder]
  unfold handItem
  dsimp only
  rw [hdecode, hrest]
  exact hand_replacing h _ _ hb

/-! ### Whole documents -/

variable (halike : ∀ s ∈ d.properties, (f s).Alike s d.bean)
  (hkeep : ∀ s ∈ d.properties, KeepsType s.set)

include halike hkeep

theorem entries_replacing {es : List Entry} (hb : bean.type = d.bean) :
    (d.replacing f inst).handEntries (d.replacing f inst).property r ending es bean =
      d.handEntries d.property r ending es bean := by
  have hproperty : (d.replacing f inst).property = fun name => (d.property name).map f :=
    funext property_replacing
  have hrow : (forM es ((d.replacing f inst).handEntry (d.replacing f inst).property r) :
      ChangeM ReadError σ Unit) bean =
        (forM es (d.handEntry d.property r) : ChangeM ReadError σ Unit) bean := by
    rw [hproperty]
    refine forM_congr_on (fun bean => bean.type = d.bean) ?_ ?_ hb
    · intro e _ bean hb
      exact handEntry_replacing (fun name s hs => halike s (mem_of_property hs)) e hb
    · intro e _ bean bean' hb he
      exact (type_of_handEntry (fun name s hs => hkeep s (mem_of_property hs)) he).trans hb
  exact change_bind_congr hrow

theorem items_replacing (hc : d.creators = []) {items : List Item} (hb : bean.type = d.bean) :
    (d.replacing f inst).updateItems r ending (d.replacing f inst).elements items bean =
      d.updateItems r ending d.elements items bean := by
  have hmem : ∀ x ∈ (d.elements.map (·.2)).zip items, x.1 ∈ d.properties := by
    intro x hx
    rcases mem_of_mem_elements (List.of_mem_zip hx).1 with hs | hs
    · exact hs
    · rw [hc] at hs
      cases hs
  have hzip : ((d.elements.map fun x => (x.1, f x.2)).map (·.2)).zip items =
      ((d.elements.map (·.2)).zip items).map (Prod.map f id) := by
    rw [← List.zip_map_left, List.map_map, List.map_map]
    rfl
  have hrow : (forM (((d.elements.map fun x => (x.1, f x.2)).map (·.2)).zip items)
      ((d.replacing f inst).handItem r) : ChangeM ReadError σ Unit) bean =
        (forM ((d.elements.map (·.2)).zip items) (d.handItem r) : ChangeM ReadError σ Unit)
          bean := by
    rw [hzip, List.forM_map]
    refine forM_congr_on (fun bean => bean.type = d.bean) ?_ ?_ hb
    · intro x hx bean hb
      exact handItem_replacing (halike x.1 (hmem x hx)) x.2 hb
    · intro x hx bean bean' hb he
      exact (type_of_hand (hkeep x.1 (hmem x hx)) he).trans hb
  rw [elements_replacing hc, updateItems_eq_forM, updateItems_eq_forM, List.length_map]
  exact change_bind_congr hrow

/-- **No document updates a bean in another way.** -/
theorem update_replacing (hc : d.creators = []) (document : Document) (hb : bean.type = d.bean) :
    (d.replacing f inst).update document bean = d.update document bean := by
  have hget : (get : ChangeM ReadError σ (Bean σ)) bean = .ok bean bean := rfl
  have hc' : (d.replacing f inst).creators = [] := hc
  have hb' : bean.type = (d.replacing f inst).bean := hb
  have hshape : (d.replacing f inst).shape = d.shape := rfl
  rw [update, update, change_bind_ok hget, change_bind_ok hget, if_neg (not_not.mpr hb),
    if_neg (not_not.mpr hb'), hshape]
  split
  · rw [updateEntries_eq_handed, updateEntries_eq_handed, updated_eq_property hc,
      updated_eq_property hc']
    exact entries_replacing halike hkeep hb
  · exact items_replacing halike hkeep hc hb
  · rfl

/-- **No document gives another bean**, if new beans are made alike. -/
theorem create_replacing (hc : d.creators = []) {made : Bean σ} (hmade : made.type = d.bean)
    (hmake : d.instantiator.make = .ok made) (hmake' : inst.make = .ok made)
    (document : Document) :
    (d.replacing f inst).create document = d.create document := by
  have huses := usesCreators_eq_false_iff.mpr hc
  have huses' : (d.replacing f inst).usesCreators = false := huses
  have hshape : (d.replacing f inst).shape = d.shape := rfl
  have hnew : d.instantiate = .ok made := instantiate_eq_ok hmake
  have hnew' : (d.replacing f inst).instantiate = .ok made := instantiate_eq_ok hmake'
  have hfill : ∀ {change change' : ChangeM ReadError σ Unit}, change made = change' made →
      fill (.ok made) change = fill (.ok made) change' := by
    intro change change' h
    simp only [fill, bind, Except.bind, h]
  -- both start from the same bean, and are led through the same beans from there
  simp only [create, huses, huses', hshape, hnew, hnew', Bool.false_eq_true, if_false]
  split
  · rw [fillEntries_eq_handed, fillEntries_eq_handed]
    exact hfill (entries_replacing halike hkeep hmade)
  · rw [fillItems_eq_updateItems, fillItems_eq_updateItems]
    exact hfill (items_replacing halike hkeep hc hmade)
  · rfl

end Deserializer

/-! ## Drafts -/

namespace DeserializerDraft

/-- The order of elements depends on the names of properties alone. -/
theorem elementOrder_map {f : Settable σ → Settable σ} (hnames : ∀ s, (f s).name = s.name)
    (creatorIndex : NameTable) (ss : List (Settable σ)) (count : Nat) :
    elementOrder creatorIndex (ss.map f) count = elementOrder creatorIndex ss count := by
  have hslots : propertySlots creatorIndex (ss.map f) = propertySlots creatorIndex ss := by
    unfold propertySlots
    rw [List.zipIdx_map, List.map_map]
    refine List.map_congr_left fun entry _ => ?_
    simp only [Function.comp_apply, Prod.map_fst, Prod.map_snd, hnames, id_eq]
  rw [elementOrder, elementOrder, hslots]

/-- A draft builds alike if its properties keep their names, and beans are made in any way. -/
theorem build_replacing {draft : DeserializerDraft σ} {f : Settable σ → Settable σ}
    {inst : Instantiator σ} (hnames : ∀ s, (f s).name = s.name)
    (hmakes : draft.instantiator.makesBeans = inst.makesBeans) (hc : draft.creators = [])
    (hc' : inst.makesFromValues = false) :
    ({ draft with properties := draft.properties.map f, instantiator := inst } :
      DeserializerDraft σ).build = draft.build.map (·.replacing f inst) := by
  have hcreators : ({ draft with properties := draft.properties.map f, instantiator := inst } :
      DeserializerDraft σ).creators = [] := by
    simp [creators, hc']
  have hmap : (draft.properties.map f).map (·.name) = draft.properties.map (·.name) := by
    rw [List.map_map]
    exact List.map_congr_left fun s _ => hnames s
  unfold build
  rw [hcreators, hc, hmap, hmakes]
  -- without creators, all that can go wrong is in the names of the properties
  cases inst.makesBeans with
  | false => rfl
  | true =>
    dsimp only
    cases indexNames (draft.properties.map (·.name)) 0 [] with
    | error name => rfl
    | ok propertyIndex =>
      show Except.ok _ = Except.ok _
      rw [elementOrder_map hnames]
      rfl

end DeserializerDraft

/-! ## Codecs -/

namespace Codec

variable {c : Codec σ} {registry : Registry σ} {d : Description σ} {i : Introspection σ}

/-- Wherever the binder finds a property for a method, both write the same. -/
def SetsAlike (d : Description σ) (i : Introspection σ) : Prop :=
  ∀ m ∈ d.members, m.kind = .method → m.isSettable = true →
    ∀ p, i.property m.name = some p →
      ∀ value (bean : Bean σ), bean.type = d.bean →
        p.write value bean = m.property.write value bean

/-- The settable properties of members are alike before and after they are bound. -/
theorem SetsAlike.bind (h : SetsAlike d i) {config : Config} {s : Settable σ}
    (hs : s ∈ (DeserializerDraft.ofDescription d config).properties) :
    (DeserializationBinder.bind i s).Alike s d.bean := by
  obtain ⟨m, hm, hof⟩ := List.mem_filterMap.mp hs
  have hsettable := isSettable_of_ofMember hof
  rw [Settable.ofMember, if_pos hsettable] at hof
  obtain ⟨kind, hkind, rfl⟩ := Option.map_eq_some_iff.mp hof
  refine DeserializationBinder.alike_bind fun p hp value bean hb => ?_
  rw [DeserializationBinder.target] at hp
  split at hp
  · -- only what a method sets is bound
    rename_i hmethod
    have hmethod : kind = .method := hmethod
    subst hmethod
    have hm' : m.kind = .method := by
      cases hk : m.kind with
      | method => rfl
      | field => rw [hk] at hkind; cases hkind
      | computed => rw [hk] at hkind; cases hkind
    exact h m hm hm' hsettable p hp value bean hb
  · cases hp

/-- The settable properties of a description are bound one by one, if there are any. -/
theorem boundProperties_eq (hm : ∃ m ∈ d.members, m.isSettable = true) (config : Config)
    (i : Introspection σ) :
    (DeserializerDraft.ofDescription d config).bound i =
      { DeserializerDraft.ofDescription d config with
        properties := (DeserializerDraft.ofDescription d config).properties.map
          (DeserializationBinder.bind i)
        instantiator := .ofIntrospection i } := by
  obtain ⟨m, hmem, hsettable⟩ := hm
  obtain ⟨s, hs, -⟩ := (exists_property_ofDescription_iff d config m.name).mpr
    ⟨m, hmem, hsettable, rfl⟩
  have hne : (DeserializerDraft.ofDescription d config).properties.isEmpty = false := by
    cases hss : (DeserializerDraft.ofDescription d config).properties with
    | nil => rw [hss] at hs; cases hs
    | cons => rfl
  -- there are properties to bind, so none are made from the introspection
  simp only [DeserializerDraft.bound, DeserializationBinder.adjust, hne, Bool.false_and,
    Bool.false_eq_true, if_false]

theorem Binds.buildDeserializer (h : c.Binds registry d i) :
    (c.buildDeserializer registry d.bean).value =
      ((DeserializerDraft.ofDescription d c.config).bound i).build := by
  simp only [Codec.buildDeserializer, draftDeserializer, h.description, h.modifiers,
    modifyDraft, bindDeserializers_of_find h.registered]
  rfl

/-- The introspection makes new beans as the description does, without arguments. -/
structure MakesAlike (d : Description σ) (i : Introspection σ) (made : Bean σ) : Prop where
  described : d.make = some made
  introspected : i.instantiate = .ok made
  arguments : i.arguments = []

theorem Binds.deserializer_eq {plain : Codec σ} (hc : c.Binds registry d i)
    (hp : plain.Describes registry d) (hconfig : c.config = plain.config)
    (hm : ∃ m ∈ d.members, m.isSettable = true) {made : Bean σ} (hmakes : MakesAlike d i made) :
    (c.buildDeserializer registry d.bean).value =
      (plain.buildDeserializer registry d.bean).value.map
        (·.replacing (DeserializationBinder.bind i) (.ofIntrospection i)) := by
  rw [hc.buildDeserializer, hp.buildDeserializer, boundProperties_eq hm, hconfig]
  refine DeserializerDraft.build_replacing (DeserializationBinder.name_bind i) ?_ rfl ?_
  · have hfresh : d.fresh.isSome = true := by
      rw [← Option.isSome_map, show d.fresh.map _ = _ from hmakes.described]
      rfl
    simp [DeserializerDraft.ofDescription, Instantiator.ofDescription, Instantiator.makesBeans,
      Instantiator.ofIntrospection, hfresh]
  · simp [Instantiator.ofIntrospection, hmakes.arguments]

/-- What a codec without modules builds for a description is bound to properties alike. -/
theorem Describes.replaced_alike {plain : Codec σ} (hp : plain.Describes registry d)
    (hmembers : ∀ m ∈ d.members, m.property.Declared) {made : Bean σ}
    (hmakes : MakesAlike d i made) (h : SetsAlike d i) {e : Deserializer σ}
    (he : (plain.buildDeserializer registry d.bean).value = .ok e) :
    let replaced := e.replacing (DeserializationBinder.bind i) (.ofIntrospection i)
    (∀ document, replaced.create document = e.create document) ∧
      ∀ bean document, bean.type = d.bean →
        replaced.update document bean = e.update document bean := by
  intro replaced
  rw [hp.buildDeserializer] at he
  obtain ⟨hkeeps, -⟩ := DeserializerDraft.indexed_of_build he
  have hbean : e.bean = d.bean := hkeeps.bean
  have hcreators : e.creators = [] := hkeeps.creators
  have htyped : (DeserializerDraft.ofDescription d plain.config).Typed d.bean :=
    DeserializerDraft.typed_ofDescription (fun m hm => (hmembers m hm).keepsType) _
  have halike : ∀ s ∈ e.properties, (DeserializationBinder.bind i s).Alike s e.bean := by
    rw [hkeeps.properties, hbean]
    exact fun s hs => h.bind hs
  have hkeep : ∀ s ∈ e.properties, KeepsType s.set := by
    rw [hkeeps.properties]
    exact htyped.properties
  have hmake : (DeserializerDraft.ofDescription d plain.config).instantiator.make = .ok made := by
    simp only [DeserializerDraft.ofDescription, Instantiator.ofDescription, hmakes.described]
  refine ⟨fun document => ?_, fun bean document hb => ?_⟩
  · refine Deserializer.create_replacing halike hkeep hcreators ?_ ?_ hmakes.introspected document
    · rw [hbean]
      exact htyped.make made hmake
    · rw [hkeeps.instantiator]
      exact hmake
  · exact Deserializer.update_replacing halike hkeep hcreators document (hb.trans hbean.symm)

/-- What is read and updated depends on the deserializer through what it creates and changes. -/
theorem reads_eq_of_builds_eq {plain : Codec σ} {type : BeanType}
    {replace : Deserializer σ → Deserializer σ}
    (hbuilds : (c.buildDeserializer registry type).value =
      (plain.buildDeserializer registry type).value.map replace)
    (h : ∀ e, (plain.buildDeserializer registry type).value = .ok e →
      (∀ document, (replace e).create document = e.create document) ∧
        ∀ bean document, bean.type = type →
          (replace e).update document bean = e.update document bean) :
    (∀ document, (c.read type document (.ofRegistry registry)).result =
        (plain.read type document (.ofRegistry registry)).result) ∧
      ∀ bean document, bean.type = type →
        (c.update bean document (.ofRegistry registry)).result =
          (plain.update bean document (.ofRegistry registry)).result := by
  have hread : ∀ document, (c.read type document ⟨registry, [], []⟩).result =
      (plain.read type document ⟨registry, [], []⟩).result := by
    intro document
    rw [result_read, result_read, hbuilds]
    cases he : (plain.buildDeserializer registry type).value with
    | error e => rfl
    | ok e =>
      show (replace e).create document >>= _ = e.create document >>= _
      rw [(h e he).1]
  refine ⟨hread, fun bean document hb => ?_⟩
  rw [result_update, result_update, hb, hbuilds]
  cases he : (plain.buildDeserializer registry type).value with
  | error e => rfl
  | ok e => exact (h e he).2 bean document hb

end Codec

/--
**Binding introspections changes nothing that is set.**

Let a described type have a member that can be set and a bean to start from, and let an
introspection without arguments make the same bean and, for each method, write the same
through the property of its name. Then a codec with the introspection module and one
without it read the same from every document, or fail with the same error; and they update
every bean of the type in the same way, and leave it in the same state where they fail.
-/
theorem bound_setters_set_alike (config : Config) (ds : List (Description σ))
    (registry : Registry σ) {d : Description σ} {i : Introspection σ} {made : Bean σ}
    (hd : (Codec.setup config ds []).description d.bean = some d)
    (hi : registry.find d.bean = some i) (hm : ∃ m ∈ d.members, m.isSettable = true)
    (hmembers : ∀ m ∈ d.members, m.property.Declared) (hmakes : Codec.MakesAlike d i made)
    (h : Codec.SetsAlike d i) :
    let plain := Codec.setup config ds []
    let bound := Codec.setup config ds [introspectionModule]
    (∀ document, (bound.read d.bean document (.ofRegistry registry)).result =
        (plain.read d.bean document (.ofRegistry registry)).result) ∧
      ∀ bean document, bean.type = d.bean →
        (bound.update bean document (.ofRegistry registry)).result =
          (plain.update bean document (.ofRegistry registry)).result := by
  intro plain bound
  cases hconfig : config.useIntrospection with
  | false =>
    have hsame : bound = plain := Codec.setup_module_of_unused hconfig
    rw [hsame]
    exact ⟨fun _ => rfl, fun _ _ _ => rfl⟩
  | true =>
    have hplain : plain.Describes registry d := Codec.describes_setup hd
    have hbound : bound.Binds registry d i := Codec.binds_setup hconfig hd hi
    exact Codec.reads_eq_of_builds_eq (hbound.deserializer_eq hplain rfl hm hmakes)
      fun e he => hplain.replaced_alike hmembers hmakes h he

/-! ### Pairs whose right side is set through an introspection -/

namespace Pair

/-- The introspection of pairs that hands out copies, and makes the pair that is described. -/
def copiedFresh : Introspection (Tree × Tree) := copied.withFresh (of 0 0).state

theorem rightOnly_setsAlike : Codec.SetsAlike rightOnly copiedFresh := by
  intro m hm _ _ p hp value bean _
  cases List.mem_singleton.mp hm
  cases hp
  rfl

theorem rightOnly_makesAlike : Codec.MakesAlike rightOnly copiedFresh (of 0 0) := ⟨rfl, rfl, rfl⟩

theorem rightOnly_declared : ∀ m ∈ rightOnly.members, m.property.Declared := by
  intro m hm
  cases List.mem_singleton.mp hm
  exact Part.declared_property _ _ _ _ _

end Pair

/-- A pair whose right side is set through a property that copies is read as if it were not. -/
theorem copied_pair_read_alike :
    let registry : Registry (Tree × Tree) := ⟨[Pair.copiedFresh]⟩
    let plain := Codec.setup .default [Pair.rightOnly] []
    let bound := Codec.setup .default [Pair.rightOnly] [introspectionModule]
    let document := Document.ofJson .streamed 0 (.record [("right", .number (.ofInt 1))])
    registry.find Pair.type = some Pair.copiedFresh ∧
      (plain.read Pair.type document (.ofRegistry registry)).result = .ok (Pair.of 0 1) ∧
      (bound.read Pair.type document (.ofRegistry registry)).result = .ok (Pair.of 0 1) := by
  intro registry plain bound document
  have hfind : registry.find Pair.type = some Pair.copiedFresh := rfl
  have hread : (plain.read Pair.type document (.ofRegistry registry)).result =
      .ok (Pair.of 0 1) := rfl
  have halike := bound_setters_set_alike .default [Pair.rightOnly] registry
    (d := Pair.rightOnly) rfl hfind ⟨_, List.mem_singleton.mpr rfl, rfl⟩ Pair.rightOnly_declared
    Pair.rightOnly_makesAlike Pair.rightOnly_setsAlike
  exact ⟨hfind, hread, (halike.1 document).trans hread⟩

end BeanBinding
