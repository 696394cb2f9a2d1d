import BeanBinding.Proofs.Filling
import BeanBinding.Proofs.Installing
import Mathlib.Data.List.Induction

/-!
# What is built for a type is of that type

Types of beans come together from several sides: from the descriptions, from the registry
and from the bean that is handed over or was just made. All that a codec puts together for
a type comes from there, so it is `Typed`: it makes beans of that type, and what it sets
on a bean leaves the type alone.

A draft is so from the start, binding keeps it so, and building does. Then every loop over
a document keeps the type of the bean because each of its steps does, and what is created
in the end is of the type that the deserializer was built for (`Typed.type_of_create`).
-/

namespace BeanBinding

variable {σ : Type}

/-! ## Setting keeps the type -/

/-- A bean has the same type after a successful write. -/
def KeepsType (write : WriteAccess σ) : Prop :=
  ∀ value bean bean', write value bean = .ok () bean' → bean'.type = bean.type

namespace Property

/-- A property that some sequence of declarations makes. -/
inductive Declared : Property σ → Prop where
  | declare (owner : BeanType) (name : String) (type : ValueType) :
      Declared (declare owner name type)
  | getter {p : Property σ} (h : Declared p) (get : σ → Tree) (source : Source) :
      Declared (p.getter get source)
  | getterOpt {p : Property σ} (h : Declared p) (get : σ → Option Tree) (source : Source) :
      Declared (p.getterOpt get source)
  | getterOwned {p : Property σ} (h : Declared p) (get : σ → Tree) : Declared (p.getterOwned get)
  | trySetter {p : Property σ} (h : Declared p) (set : Tree → EStateM AccessError σ Unit) :
      Declared (p.trySetter set)
  | setter {p : Property σ} (h : Declared p) (set : σ → Tree → σ) : Declared (p.setter set)
  | setterOpt {p : Property σ} (h : Declared p) (set : σ → Option Tree → σ) :
      Declared (p.setterOpt set)
  | withNullable {p : Property σ} (h : Declared p) (nullable : Bool) :
      Declared (p.withNullable nullable)
  | withAnnotations {p : Property σ} (h : Declared p) (annotations : Annotations) :
      Declared (p.withAnnotations annotations)

variable {p : Property σ}

theorem keepsType_trySetter (p : Property σ) (set : Tree → EStateM AccessError σ Unit) :
    KeepsType (p.trySetter set).write := by
  intro value bean bean' h
  cases value with
  | none =>
    obtain ⟨_, _, _, hthrow⟩ := change_bind_eq_ok_iff.mp h
    cases hthrow
  | some v =>
    obtain ⟨_, next, howner, h⟩ := change_bind_eq_ok_iff.mp h
    obtain ⟨t, next', hcontent, hset⟩ := change_bind_eq_ok_iff.mp h
    obtain ⟨-, rfl⟩ := checkOwner_eq_ok_iff.mp howner
    obtain ⟨-, rfl⟩ := content_eq_ok_iff.mp hcontent
    split at hset
    · cases hset
      rfl
    · cases hset

theorem keepsType_setterOpt (p : Property σ) (set : σ → Option Tree → σ) :
    KeepsType (p.setterOpt set).write := by
  intro value bean bean' h
  cases value with
  | none =>
    obtain ⟨-, rfl⟩ := write_setterOpt_none_eq_ok_iff.mp h
    rfl
  | some v =>
    obtain ⟨_, next, howner, h⟩ := change_bind_eq_ok_iff.mp h
    obtain ⟨t, next', hcontent, hset⟩ := change_bind_eq_ok_iff.mp h
    obtain ⟨-, rfl⟩ := checkOwner_eq_ok_iff.mp howner
    obtain ⟨t', next'', hcontent, hsome⟩ := change_bind_eq_ok_iff.mp hcontent
    obtain ⟨-, rfl⟩ := content_eq_ok_iff.mp hcontent
    cases hsome
    cases hset
    rfl

/-- **No declared property changes the type of a bean.** -/
theorem Declared.keepsType (h : p.Declared) : KeepsType p.write := by
  induction h with
  | declare owner name type =>
    intro value bean bean' hwrite
    cases hwrite
  | setter _ set =>
    intro value bean bean' hwrite
    obtain ⟨-, v, t, -, -, rfl⟩ := write_setter_eq_ok_iff.mp hwrite
    rfl
  | trySetter _ set => exact keepsType_trySetter _ set
  | setterOpt _ set => exact keepsType_setterOpt _ set
  -- what is declared about reading and the like leaves the setter alone
  | getter _ _ _ ih | getterOpt _ _ _ ih | getterOwned _ _ ih => exact ih
  | withNullable _ _ ih | withAnnotations _ _ ih => exact ih

/-- What calls declare, declarations make. -/
theorem declared_declaredBy (owner : BeanType) (name : String) (type : ValueType)
    (calls : List (Call σ)) : (declaredBy owner name type calls).Declared := by
  induction calls using List.reverseRecOn with
  | nil => exact .declare owner name type
  | append_singleton calls c ih =>
    rw [declaredBy_concat]
    cases c with
    | getter get source => exact ih.getter get source
    | getterOpt get source => exact ih.getterOpt get source
    | getterOwned get => exact ih.getterOwned get
    | setter set => exact ih.setter set
    | setterOpt set => exact ih.setterOpt set
    | trySetter set => exact ih.trySetter set
    | nullable b => exact ih.withNullable b
    | annotations as => exact ih.withAnnotations as

end Property

theorem Part.declared_property (part : Part σ) (owner : BeanType) (name : String)
    (type : ValueType) (annotations : Annotations) :
    (part.property owner name type annotations).Declared :=
  (((Property.Declared.declare owner name type).getter _ _).setter _).withAnnotations _

theorem keepsType_pure : KeepsType (σ := σ) fun _ => pure () := by
  intro value bean bean' h
  cases h
  rfl

namespace Settable

theorem keepsType_ofMember {m : Member σ} (hm : KeepsType m.property.write) {s : Settable σ}
    (hs : ofMember m = some s) : KeepsType s.set := by
  unfold ofMember at hs
  split at hs
  · obtain ⟨kind, -, rfl⟩ := Option.map_eq_some_iff.mp hs
    exact hm
  · cases hs

theorem keepsType_virtual {p : Property σ} (hp : KeepsType p.write) :
    KeepsType (virtual p).set := by
  intro value bean bean' h
  unfold virtual at h
  dsimp only at h
  split at h
  · exact keepsType_pure value bean bean' h
  · exact hp value bean bean' h

variable {i : Introspection σ}

theorem keepsType_creator (hi : ∀ p ∈ i.properties, KeepsType p.write) (a : Argument) :
    KeepsType (creator i a).set := by
  cases hb : behind i a with
  | some p =>
    obtain ⟨hfound, -⟩ := Option.filter_eq_some_iff.mp hb
    rw [set_creator hb]
    exact hi p (Introspection.property_mem hfound).1
  | none =>
    have hset : (creator i a).set = fun _ => pure () := by
      funext value
      simp [creator, hb]
    rw [hset]
    exact keepsType_pure

theorem keepsType_bind (hi : ∀ p ∈ i.properties, KeepsType p.write) {s : Settable σ}
    (hs : KeepsType s.set) : KeepsType (DeserializationBinder.bind i s).set := by
  unfold DeserializationBinder.bind
  split
  · exact hs
  · split
    · rename_i p hp
      exact hi p (Introspection.property_mem hp).1
    · exact hs

end Settable

/-! ## Drafts of a type -/

/-- Whatever the draft makes and sets is of a type. -/
structure DeserializerDraft.Typed (draft : DeserializerDraft σ) (type : BeanType) : Prop where
  bean : draft.bean = type
  properties : ∀ s ∈ draft.properties, KeepsType s.set
  creators : ∀ s ∈ draft.instantiator.creators, KeepsType s.set
  make : ∀ made, draft.instantiator.make = .ok made → made.type = type
  makeWith : ∀ values made, draft.instantiator.makeWith values = .ok made → made.type = type

namespace Introspection

variable {i : Introspection σ} {made : Bean σ}

theorem type_of_construct {k : Constructor σ} {values : List (Option Value)}
    (h : i.construct k values = .ok made) : made.type = i.type := by
  unfold construct at h
  split at h
  · cases h
    rfl
  · cases h

/-- An introspection makes beans of its own type, without arguments and with them. -/
theorem type_of_instantiate (h : i.instantiate = .ok made) : made.type = i.type := by
  unfold instantiate at h
  split at h
  · cases h
    rfl
  · split at h
    · exact type_of_construct h
    · cases h
  · cases h

theorem type_of_instantiateWith {values : List (Option Value)}
    (h : i.instantiateWith values = .ok made) : made.type = i.type := by
  unfold instantiateWith at h
  split at h
  · cases h
  · split at h
    · cases h
    · exact type_of_construct h

end Introspection

namespace DeserializerDraft

theorem typed_empty (type : BeanType) (config : Config) :
    (empty type config : DeserializerDraft σ).Typed type where
  bean := rfl
  properties := by simp [empty]
  creators := by simp [empty, Instantiator.none]
  make made h := by cases h
  makeWith values made h := by cases h

theorem typed_ofDescription {d : Description σ} (hd : ∀ m ∈ d.members, KeepsType m.property.write)
    (config : Config) : (ofDescription d config).Typed d.bean where
  bean := rfl
  properties s hs := by
    obtain ⟨m, hm, hof⟩ := List.mem_filterMap.mp hs
    exact Settable.keepsType_ofMember (hd m hm) hof
  creators s hs := by cases hs
  make made h := by
    cases hfresh : d.fresh with
    | none => simp [ofDescription, Instantiator.ofDescription, Description.make, hfresh] at h
    | some state =>
      simp [ofDescription, Instantiator.ofDescription, Description.make, hfresh] at h
      rw [← h]
  makeWith values made h := by cases h

/-- Binding a draft to an introspection of its type keeps it of that type. -/
theorem Typed.bound {draft : DeserializerDraft σ} {i : Introspection σ}
    (h : draft.Typed i.type) (hi : ∀ p ∈ i.properties, KeepsType p.write) :
    (draft.bound i).Typed i.type where
  bean := h.bean
  properties s hs := by
    have hs : s ∈ DeserializationBinder.adjust i draft.properties := hs
    unfold DeserializationBinder.adjust at hs
    split at hs
    · obtain ⟨p, hp, rfl⟩ := List.mem_map.mp hs
      exact Settable.keepsType_virtual (hi p hp)
    · obtain ⟨s', hs', rfl⟩ := List.mem_map.mp hs
      exact Settable.keepsType_bind hi (h.properties s' hs')
  creators s hs := by
    obtain ⟨a, -, rfl⟩ := List.mem_map.mp hs
    exact Settable.keepsType_creator hi a
  make _ := Introspection.type_of_instantiate
  makeWith _ _ := Introspection.type_of_instantiateWith

end DeserializerDraft

/-! ## Modifiers, one after the other -/

section Modifying

variable {registry : Registry σ} {config : Config} {type : BeanType}

/-- What each modifier keeps is kept by all of them. -/
theorem modifyDraft_keeps {D : Type} (kept : D → Prop) {ms : List (DraftModifier σ D)}
    (h : ∀ m ∈ ms, ∀ draft, kept draft → kept (m registry config type draft).value)
    {draft : D} (hdraft : kept draft) :
    kept (modifyDraft registry config type ms draft).value := by
  induction ms generalizing draft with
  | nil => exact hdraft
  | cons m ms ih =>
    exact ih (fun m' hm' => h m' (List.mem_cons_of_mem m hm')) (h m List.mem_cons_self draft hdraft)

theorem Registry.type_of_find {i : Introspection σ} (h : registry.find type = some i) :
    i.type = type := by
  simpa using List.find?_some h

theorem bean_bindSerializers (draft : SerializerDraft σ) (h : draft.bean = type) :
    (bindSerializers registry config type draft).value.bean = type := by
  cases hfind : registry.find type with
  | none =>
    rw [bindSerializers, hfind]
    exact h
  | some i =>
    rw [bindSerializers_of_find hfind]
    exact h

theorem typed_bindDeserializers
    (hregistry : ∀ i ∈ registry.introspections, ∀ p ∈ i.properties, KeepsType p.write)
    (draft : DeserializerDraft σ) (h : draft.Typed type) :
    (bindDeserializers registry config type draft).value.Typed type := by
  cases hfind : registry.find type with
  | none =>
    rw [bindDeserializers, hfind]
    exact h
  | some i =>
    rw [bindDeserializers_of_find hfind]
    obtain rfl := Registry.type_of_find hfind
    exact h.bound (hregistry i (List.mem_of_find?_eq_some hfind))

end Modifying

/-! ## What is built for a type -/

/-- Whatever the deserializer makes and sets is of a type. -/
structure Deserializer.Typed (d : Deserializer σ) (type : BeanType) : Prop where
  bean : d.bean = type
  settables : ∀ s, s ∈ d.properties ∨ s ∈ d.creators → KeepsType s.set
  make : ∀ made, d.instantiator.make = .ok made → made.type = type
  makeWith : ∀ values made, d.instantiator.makeWith values = .ok made → made.type = type

theorem DeserializerDraft.Typed.build {draft : DeserializerDraft σ} {type : BeanType}
    (h : draft.Typed type) {d : Deserializer σ} (hd : draft.build = .ok d) : d.Typed type := by
  obtain ⟨hkeeps, -⟩ := indexed_of_build hd
  refine ⟨hkeeps.bean.trans h.bean, ?_, ?_, ?_⟩
  · rw [hkeeps.properties, hkeeps.creators]
    rintro s (hs | hs)
    · exact h.properties s hs
    · unfold DeserializerDraft.creators at hs
      split at hs
      · exact h.creators s hs
      · cases hs
  · rw [hkeeps.instantiator]
    exact h.make
  · rw [hkeeps.instantiator]
    exact h.makeWith

namespace Codec

variable {config : Config} {ds : List (Description σ)} {copies : Nat} {registry : Registry σ}
  {type : BeanType}

theorem description_withCopies {d : Description σ}
    (h : (withCopies config ds copies).description type = some d) : d ∈ ds ∧ d.bean = type := by
  refine ⟨?_, by simpa using List.find?_some h⟩
  rcases mem_foldl_putDescription (List.mem_of_find?_eq_some h) with hd | hd
  · exact hd
  · cases hd

/-- All modifiers are binders. -/
theorem eq_of_mem_modifiers_withCopies :
    (∀ m ∈ (withCopies config ds copies).modifiers.serializer, m = bindSerializers) ∧
      ∀ m ∈ (withCopies config ds copies).modifiers.deserializer, m = bindDeserializers := by
  rw [modifiers_withCopies]
  split
  · exact ⟨fun _ => List.eq_of_mem_replicate, fun _ => List.eq_of_mem_replicate⟩
  · exact ⟨by simp [Modifiers.none], by simp [Modifiers.none]⟩

/-- A serializer that is built for a type writes beans of that type. -/
theorem bean_of_buildSerializer {s : Serializer σ}
    (h : ((withCopies config ds copies).buildSerializer registry type).value = .ok s) :
    s.bean = type := by
  let c := withCopies config ds copies
  have hdraft : (c.draftSerializer type).value.bean = type := by
    unfold draftSerializer
    split
    · rename_i d hd
      exact (description_withCopies hd).2
    · rfl
  have hbean : (modifyDraft registry config type c.modifiers.serializer
      (c.draftSerializer type).value).value.bean = type := by
    refine modifyDraft_keeps (fun draft : SerializerDraft σ => draft.bean = type) ?_ hdraft
    intro m hm draft hkept
    rw [eq_of_mem_modifiers_withCopies.1 m hm]
    exact bean_bindSerializers draft hkept
  have hbuild : (modifyDraft registry config type c.modifiers.serializer
      (c.draftSerializer type).value).value.build = .ok s := h
  rw [(SerializerDraft.build_eq_ok_iff.mp hbuild).1]
  exact hbean

/-- A deserializer that is built for a type makes and changes beans of that type. -/
theorem typed_of_buildDeserializer
    (hds : ∀ d ∈ ds, ∀ m ∈ d.members, KeepsType m.property.write)
    (hregistry : ∀ i ∈ registry.introspections, ∀ p ∈ i.properties, KeepsType p.write)
    {d : Deserializer σ}
    (h : ((withCopies config ds copies).buildDeserializer registry type).value = .ok d) :
    d.Typed type := by
  let c := withCopies config ds copies
  have hdraft : (c.draftDeserializer type).Typed type := by
    unfold draftDeserializer
    split
    · rename_i e he
      obtain ⟨hmem, rfl⟩ := description_withCopies he
      exact DeserializerDraft.typed_ofDescription (hds e hmem) _
    · exact DeserializerDraft.typed_empty type _
  have htyped : (modifyDraft registry config type c.modifiers.deserializer
      (c.draftDeserializer type)).value.Typed type := by
    refine modifyDraft_keeps (DeserializerDraft.Typed · type) ?_ hdraft
    intro m hm draft hkept
    rw [eq_of_mem_modifiers_withCopies.2 m hm]
    exact typed_bindDeserializers hregistry draft hkept
  exact htyped.build h

end Codec

/-! ## Beans that are made -/

namespace Deserializer

variable {d : Deserializer σ} {type : BeanType} {r : Position} {ending : Option Fault}

/-- Handing over a value keeps the type. -/
theorem type_of_hand {s : Settable σ} (hs : KeepsType s.set)
    {value : Except ReadError (Option Value)} {rest : Except ReadError Unit}
    {bean bean' : Bean σ} (h : d.hand s value rest bean = .ok () bean') :
    bean'.type = bean.type := by
  rw [hand_eq] at h
  cases value with
  | error e => cases h
  | ok v =>
    dsimp only at h
    cases hset : s.set v bean with
    | error cause left =>
      rw [hset] at h
      cases h
    | ok a next =>
      rw [hset] at h
      cases rest with
      | error e => cases h
      | ok u =>
        cases h
        exact hs v bean bean' hset

theorem type_of_handEntry {find : String → Option (Settable σ)}
    (hfind : ∀ name s, find name = some s → KeepsType s.set) {e : Entry} {bean bean' : Bean σ}
    (h : d.handEntry find r e bean = .ok () bean') : bean'.type = bean.type := by
  obtain ⟨name, next, hlift, h⟩ := change_bind_eq_ok_iff.mp h
  obtain ⟨-, rfl⟩ := lift_eq_ok_iff.mp hlift
  cases hs : find name with
  | some s =>
    rw [hs] at h
    exact type_of_hand (hfind name s hs) h
  | none =>
    rw [hs] at h
    obtain ⟨-, rfl⟩ := lift_eq_ok_iff.mp h
    rfl

/-- Filling a bean from entries keeps its type. -/
theorem type_of_entries {find : String → Option (Settable σ)}
    (hfind : ∀ name s, find name = some s → KeepsType s.set) {es : List Entry}
    {bean bean' : Bean σ}
    (h : d.handEntries find r ending es bean = .ok () bean') : bean'.type = bean.type := by
  obtain ⟨_, next, hentries, hending⟩ := change_bind_eq_ok_iff.mp h
  obtain ⟨-, rfl⟩ := lift_eq_ok_iff.mp hending
  exact forM_preserves
    (fun e _ bean bean' he => type_of_handEntry hfind he) hentries

theorem type_of_items {slots : List (Slot × Settable σ)}
    (hslots : ∀ x ∈ slots, KeepsType x.2.set) {items : List Item} {bean bean' : Bean σ}
    (h : d.updateItems r ending slots items bean = .ok () bean') : bean'.type = bean.type := by
  rw [updateItems_eq_forM] at h
  obtain ⟨_, next, hitems, hending⟩ := change_bind_eq_ok_iff.mp h
  obtain ⟨-, rfl⟩ := lift_eq_ok_iff.mp hending
  refine forM_preserves (fun x hx bean bean' he => ?_) hitems
  obtain ⟨slot, hslot, he'⟩ := List.mem_map.mp (List.of_mem_zip hx).1
  refine type_of_hand ?_ he
  rw [← he']
  exact hslots slot hslot

theorem type_of_setAll {xs : List (Settable σ × Option Value)}
    (hxs : ∀ x ∈ xs, KeepsType x.1.set) {bean bean' : Bean σ}
    (h : d.setAll xs bean = .ok () bean') : bean'.type = bean.type := by
  rw [setAll_eq_forM] at h
  refine forM_preserves (fun x hx bean bean' he => ?_) h
  exact hxs x hx x.2 bean bean' (set_eq_ok_iff.mp he)

/-! ### Values that wait for the bean -/

/-- All values that wait are for settable properties of the deserializer. -/
def BuffersOwn (d : Deserializer σ) (p : Pending σ) : Prop :=
  ∀ x ∈ p.buffered, x.1 ∈ d.properties ∨ x.1 ∈ d.creators

theorem BuffersOwn.buffer {p : Pending σ} (h : d.BuffersOwn p) {s : Settable σ}
    (hs : s ∈ d.properties ∨ s ∈ d.creators) (value : Option Value) :
    d.BuffersOwn (p.buffer s value) := by
  intro x hx
  rcases List.mem_append.mp hx with hx | hx
  · exact h x hx
  · rw [List.mem_singleton.mp hx]
    exact hs

theorem BuffersOwn.collectEntry {e : Entry} {p q : Pending σ} (hp : d.BuffersOwn p)
    (h : d.collectEntry r e p = .ok q) : d.BuffersOwn q :=
  -- an argument goes to its slot and does not wait
  collectEntry_keeps (fun _ _ _ hp => hp) (fun _ hs value _ _ hp => hp.buffer (.inl hs) value) hp h

theorem BuffersOwn.collectEntries {es : List Entry} {p q : Pending σ} (hp : d.BuffersOwn p)
    (h : d.collectEntries r ending es p = .ok q) : d.BuffersOwn q :=
  collectEntries_keeps (fun _ _ _ hp he => hp.collectEntry he) hp h

theorem BuffersOwn.collectItems {slots : List (Slot × Settable σ)}
    (hslots : ∀ x ∈ slots, x.2 ∈ d.properties ∨ x.2 ∈ d.creators) {items : List Item}
    {p q : Pending σ} (hp : d.BuffersOwn p)
    (h : d.collectItems r ending slots items p = .ok q) : d.BuffersOwn q := by
  refine collectItems_keeps (fun _ _ _ _ _ hp => hp) (fun index s hs value _ _ hp => ?_) hp h
  exact hp.buffer (hslots (.property index, s) hs) value

/-! ### New beans -/

theorem type_of_instantiate (h : d.Typed type) {change : ChangeM ReadError σ Unit}
    (hchange : ∀ made bean, change made = .ok () bean → bean.type = made.type) {bean : Bean σ}
    (hbean : fill d.instantiate change = .ok bean) : bean.type = type := by
  obtain ⟨made, hmade, hrun⟩ := fill_eq_ok_iff.mp hbean
  rw [hchange made bean hrun]
  exact h.make made (mapError_eq_ok_iff.mp hmade)

theorem type_of_complete (h : d.Typed type) {p : Pending σ} (hp : d.BuffersOwn p) {bean : Bean σ}
    (hbean : d.complete p = .ok bean) : bean.type = type := by
  unfold complete at hbean
  split at hbean
  · cases hbean
  · obtain ⟨made, hmade, hrun⟩ := fill_eq_ok_iff.mp hbean
    rw [type_of_setAll (fun x hx => h.settables x.1 (hp x hx)) hrun]
    exact h.makeWith p.arguments made (mapError_eq_ok_iff.mp hmade)

/-- **A bean that is created is of the type that the deserializer was built for.** -/
theorem Typed.type_of_create (h : d.Typed type) {document : Document} {bean : Bean σ}
    (hbean : d.create document = .ok bean) : bean.type = type := by
  have hnew : d.BuffersOwn d.pending := fun x hx => by cases hx
  have helements : ∀ x ∈ d.elements, x.2 ∈ d.properties ∨ x.2 ∈ d.creators :=
    fun x hx => mem_of_mem_elements (List.mem_map.mpr ⟨x, hx, rfl⟩)
  unfold create at hbean
  dsimp only at hbean
  split at hbean
  · split at hbean
    · obtain ⟨p, hp, hbean⟩ := bind_eq_ok_iff.mp hbean
      exact type_of_complete h (hnew.collectEntries hp) hbean
    · rw [fillEntries_eq_handed] at hbean
      refine type_of_instantiate h (fun _ _ => type_of_entries ?_) hbean
      exact fun name s hs => h.settables s (.inl (mem_of_property hs))
  · split at hbean
    · obtain ⟨p, hp, hbean⟩ := bind_eq_ok_iff.mp hbean
      exact type_of_complete h (hnew.collectItems helements hp) hbean
    · rw [fillItems_eq_updateItems] at hbean
      refine type_of_instantiate h (fun _ _ => type_of_items ?_) hbean
      exact fun x hx => h.settables x.2 (helements x hx)
  · cases hbean

end Deserializer

end BeanBinding
