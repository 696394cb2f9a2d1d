import BeanBinding.Proofs.Collecting
import BeanBinding.Proofs.Creating
import BeanBinding.Proofs.Placeholders

/-!
# The tables of a deserializer

Building a deserializer looks up its own names once and keeps what it finds: where each
property and creator stands, which argument slot a creator fills, and what the elements of
a list are for. Reading then goes from table to table by index alone.

So the tables have to fit each other. A name leads to the position that has it and to no
other. The order of elements has each creator once, and each property that no creator
stands in for: first a slot for each property, then the creators that share no name with
a property. And an index that is read from one table lies inside the next, up to the
arguments that are collected for a constructor, whose number never changes.
-/

namespace BeanBinding

variable {σ : Type}

/-! ## What the tables say -/

/-- What a deserializer's tables say about its properties and creators. -/
structure Deserializer.Tabulates (d : Deserializer σ) : Prop where
  /-- The names of properties lead to their positions, and no other name leads anywhere. -/
  propertyIndex : ∀ name i, d.propertyIndex.lookup name = some i ↔
    ∃ s, d.properties[i]? = some s ∧ s.name = name
  /-- The names of creators lead to their positions, and no other name leads anywhere. -/
  creatorIndex : ∀ name k, d.creatorIndex.lookup name = some k ↔
    ∃ c, d.creators[k]? = some c ∧ c.name = name
  /-- There is an argument slot for each creator. -/
  length_creatorSlots : d.creatorSlots.length = d.creators.length
  /-- Argument slots lie below the number of creators. -/
  creatorSlots_lt : ∀ slot ∈ d.creatorSlots, slot < d.creators.length
  /-- No slot of an element occurs twice. -/
  nodup : d.elementOrder.Nodup
  /-- Each creator has a slot. -/
  creator_mem : ∀ k, .creator k ∈ d.elementOrder ↔ k < d.creators.length
  /-- Exactly the properties that share no name with a creator have a slot. -/
  property_mem : ∀ i, .property i ∈ d.elementOrder ↔
    ∃ s, d.properties[i]? = some s ∧ ∀ c ∈ d.creators, c.name ≠ s.name
  /-- The slot at a property's place is its own, or that of the creator of its name. -/
  at_property : ∀ (i : Nat) (s : Settable σ), d.properties[i]? = some s →
    (∃ (k : Nat) (c : Settable σ), d.creators[k]? = some c ∧ c.name = s.name ∧
      d.elementOrder[i]? = some (.creator k)) ∨
      (∀ c ∈ d.creators, c.name ≠ s.name) ∧ d.elementOrder[i]? = some (.property i)
  /-- The creators that stand in for no property follow in their order. -/
  after_properties : d.elementOrder.drop d.properties.length =
    (d.creators.zipIdx.filter fun e => e.1.name ∉ d.properties.map (·.name)).map (.creator ·.2)

/-! ## The slots of properties -/

namespace DeserializerDraft

variable (table : NameTable) {properties : List (Settable σ)}

/-- The slot at the place of a property. -/
theorem getElem?_propertySlots {i : Nat} {s : Settable σ} (hs : properties[i]? = some s) :
    (propertySlots table properties)[i]? =
      some (((table.lookup s.name).map Slot.creator).getD (.property i)) := by
  rw [propertySlots, List.getElem?_map, List.getElem?_zipIdx, hs]
  cases hlookup : table.lookup s.name with
  | some k => simp [hlookup]
  | none => simp [hlookup]

theorem creator_mem_propertySlots_iff {k : Nat} :
    .creator k ∈ propertySlots table properties ↔
      ∃ s ∈ properties, table.lookup s.name = some k := by
  constructor
  · intro hk
    obtain ⟨⟨s, i⟩, hentry, hslot⟩ := List.mem_map.mp hk
    dsimp only at hslot
    split at hslot
    · rename_i k' hlookup
      cases hslot
      exact ⟨s, List.mem_of_getElem? (List.mem_zipIdx_iff_getElem?.mp hentry), hlookup⟩
    · cases hslot
  · rintro ⟨s, hs, hlookup⟩
    obtain ⟨i, hi⟩ := List.mem_iff_getElem?.mp hs
    have hslot := getElem?_propertySlots table hi
    rw [hlookup] at hslot
    exact List.mem_of_getElem? hslot

theorem property_mem_propertySlots_iff {i : Nat} :
    .property i ∈ propertySlots table properties ↔
      ∃ s, properties[i]? = some s ∧ table.lookup s.name = none := by
  constructor
  · intro hi
    obtain ⟨⟨s, i'⟩, hentry, hslot⟩ := List.mem_map.mp hi
    dsimp only at hslot
    split at hslot
    · cases hslot
    · rename_i hlookup
      cases hslot
      exact ⟨s, List.mem_zipIdx_iff_getElem?.mp hentry, hlookup⟩
  · rintro ⟨s, hs, hlookup⟩
    have hslot := getElem?_propertySlots table hs
    rw [hlookup] at hslot
    exact List.mem_of_getElem? hslot

end DeserializerDraft

namespace Deserializer.Indexed

variable {d : Deserializer σ} (h : d.Indexed)

include h

theorem creatorIndex_lookup_eq_none_iff {name : String} :
    d.creatorIndex.lookup name = none ↔ ∀ c ∈ d.creators, c.name ≠ name := by
  rw [Option.eq_none_iff_forall_not_mem]
  simp only [Option.mem_def, h.creatorIndex_lookup_eq_some_iff, List.mem_iff_getElem?]
  grind

theorem propertyIndex_lookup_eq_some_iff {name : String} {i : Nat} :
    d.propertyIndex.lookup name = some i ↔ ∃ s, d.properties[i]? = some s ∧ s.name = name := by
  rw [h.propertyIndex, lookup_zipIdx_eq_some_iff h.propertyNames, List.getElem?_map,
    Option.map_eq_some_iff]

/-- Two properties never share a slot: they would both have the name of its creator. -/
theorem nodup_propertySlots :
    (DeserializerDraft.propertySlots d.creatorIndex d.properties).Nodup := by
  have hpositions : (d.properties.zipIdx.map (·.2)).Nodup := by
    rw [List.zipIdx_map_snd]
    exact List.nodup_range'
  refine List.Nodup.map_on ?_ hpositions.of_map
  rintro ⟨s, i⟩ hs ⟨s', i'⟩ hs' hslot
  rw [List.mem_zipIdx_iff_getElem?] at hs hs'
  dsimp only at hs hs' hslot
  split at hslot
  · rename_i k hlookup
    split at hslot
    · rename_i k' hlookup'
      cases hslot
      obtain ⟨c, hc, hname⟩ := h.creatorIndex_lookup_eq_some_iff.mp hlookup
      obtain ⟨c', hc', hname'⟩ := h.creatorIndex_lookup_eq_some_iff.mp hlookup'
      rw [hc] at hc'
      cases hc'
      have hsame : s = s' := List.inj_on_of_nodup_map h.propertyNames (List.mem_of_getElem? hs)
        (List.mem_of_getElem? hs') (hname.symm.trans hname')
      have hat := h.propertyIndex_lookup_eq_some_iff.mpr ⟨s, hs, rfl⟩
      have hat' := h.propertyIndex_lookup_eq_some_iff.mpr ⟨s', hs', rfl⟩
      rw [← hsame, hat] at hat'
      cases hat'
      rw [hsame]
    · cases hslot
  · split at hslot
    · cases hslot
    · cases hslot
      rw [hs] at hs'
      cases hs'
      rfl

/-! ## The order of elements -/

theorem nodup_elementOrder : d.elementOrder.Nodup := by
  rw [h.elementOrder, DeserializerDraft.elementOrder]
  refine h.nodup_propertySlots.append ?_ ?_
  · refine List.Nodup.filter _ (List.nodup_range.map ?_)
    intro k k' hk
    exact Slot.creator.inj hk
  · intro slot hslot hslot'
    exact absurd hslot (by simpa using (List.mem_filter.mp hslot').2)

/-- Every creator has a slot, and no slot is that of another one. -/
theorem creator_mem_elementOrder_iff {k : Nat} :
    .creator k ∈ d.elementOrder ↔ k < d.creators.length := by
  constructor
  · intro hk
    have hin := h.inSlot_isSome hk
    simpa [inSlot] using hin
  · intro hk
    rw [h.elementOrder, DeserializerDraft.elementOrder, List.mem_append]
    by_cases hslot : .creator k ∈ DeserializerDraft.propertySlots d.creatorIndex d.properties
    · exact .inl hslot
    · refine .inr (List.mem_filter.mpr ⟨List.mem_map_of_mem (List.mem_range.mpr hk), ?_⟩)
      simpa using hslot

theorem property_mem_elementOrder_iff {i : Nat} :
    .property i ∈ d.elementOrder ↔
      ∃ s, d.properties[i]? = some s ∧ ∀ c ∈ d.creators, c.name ≠ s.name := by
  simp only [← h.creatorIndex_lookup_eq_none_iff]
  rw [← DeserializerDraft.property_mem_propertySlots_iff, h.elementOrder,
    DeserializerDraft.elementOrder, List.mem_append]
  refine or_iff_left fun hslot => ?_
  -- only creators follow the slots of properties
  obtain ⟨k, -, hk⟩ := List.mem_map.mp (List.mem_filter.mp hslot).1
  cases hk

theorem getElem?_elementOrder {i : Nat} {s : Settable σ} (hs : d.properties[i]? = some s) :
    (∃ (k : Nat) (c : Settable σ), d.creators[k]? = some c ∧ c.name = s.name ∧
      d.elementOrder[i]? = some (.creator k)) ∨
      (∀ c ∈ d.creators, c.name ≠ s.name) ∧ d.elementOrder[i]? = some (.property i) := by
  have hslot := DeserializerDraft.getElem?_propertySlots d.creatorIndex hs
  have horder : d.elementOrder[i]? =
      (DeserializerDraft.propertySlots d.creatorIndex d.properties)[i]? := by
    rw [h.elementOrder, DeserializerDraft.elementOrder]
    exact List.getElem?_append_left (List.getElem?_eq_some_iff.mp hslot).1
  rw [horder, hslot]
  cases hlookup : d.creatorIndex.lookup s.name with
  | some k =>
    obtain ⟨c, hc, hname⟩ := h.creatorIndex_lookup_eq_some_iff.mp hlookup
    exact .inl ⟨k, c, hc, hname, rfl⟩
  | none => exact .inr ⟨h.creatorIndex_lookup_eq_none_iff.mp hlookup, rfl⟩

/-- What follows the slots of properties are the creators whose names no property has. -/
theorem drop_elementOrder :
    d.elementOrder.drop d.properties.length =
      (d.creators.zipIdx.filter fun e => e.1.name ∉ d.properties.map (·.name)).map
        (.creator ·.2) := by
  have hlength : (DeserializerDraft.propertySlots d.creatorIndex d.properties).length =
      d.properties.length := by
    rw [DeserializerDraft.propertySlots, List.length_map, List.length_zipIdx]
  have hrange : (List.range d.creators.length).map Slot.creator =
      d.creators.zipIdx.map (.creator ·.2) := by
    rw [List.range_eq_range', ← List.zipIdx_map_snd 0 d.creators, List.map_map]
    rfl
  rw [h.elementOrder, DeserializerDraft.elementOrder, ← hlength, List.drop_left, hrange,
    List.filter_map]
  refine congrArg _ (List.filter_congr ?_)
  rintro ⟨c, k⟩ hc
  rw [List.mem_zipIdx_iff_getElem?] at hc
  -- the creator has a slot among those of the properties if one of them has its name
  have hiff : .creator k ∈ DeserializerDraft.propertySlots d.creatorIndex d.properties ↔
      c.name ∈ d.properties.map (·.name) := by
    rw [DeserializerDraft.creator_mem_propertySlots_iff, List.mem_map]
    refine exists_congr fun s => and_congr_right fun _ => ?_
    rw [h.creatorIndex_lookup_eq_some_iff]
    constructor
    · rintro ⟨c', hc', hname⟩
      rw [hc] at hc'
      cases hc'
      exact hname.symm
    · intro hname
      exact ⟨c, hc, hname.symm⟩
  simp only [Function.comp_apply, hiff]

/-- **The tables fit the properties and creators.** -/
theorem tabulates : d.Tabulates where
  propertyIndex _ _ := h.propertyIndex_lookup_eq_some_iff
  creatorIndex _ _ := h.creatorIndex_lookup_eq_some_iff
  length_creatorSlots := by rw [h.creatorSlots, List.length_map, List.length_zipIdx]
  creatorSlots_lt slot hslot := by
    rw [h.creatorSlots] at hslot
    obtain ⟨entry, hentry, rfl⟩ := List.mem_map.mp hslot
    exact h.slot_lt entry hentry
  nodup := h.nodup_elementOrder
  creator_mem _ := h.creator_mem_elementOrder_iff
  property_mem _ := h.property_mem_elementOrder_iff
  at_property _ _ := h.getElem?_elementOrder
  after_properties := h.drop_elementOrder

end Deserializer.Indexed

/-! ## What is collected -/

namespace Deserializer

variable {d : Deserializer σ} {r : Position}

/-- There is an argument, and a note of its presence, for each creator. -/
structure Pending.Fits (d : Deserializer σ) (p : Pending σ) : Prop where
  arguments : p.arguments.length = d.creators.length
  present : p.present.length = d.creators.length

theorem fits_pending : d.pending.Fits d := by
  constructor
  · exact List.length_replicate
  · exact List.length_replicate

theorem Pending.Fits.argument {p : Pending σ} (h : p.Fits d) (slot : Nat) (value : Option Value) :
    (p.argument slot value).Fits d := by
  constructor
  · rw [Pending.argument, List.length_set, h.arguments]
  · rw [Pending.argument, List.length_set, h.present]

theorem Pending.Fits.buffer {p : Pending σ} (h : p.Fits d) (s : Settable σ)
    (value : Option Value) : (p.buffer s value).Fits d :=
  ⟨h.arguments, h.present⟩

/-- What can have been collected while a document was read, after any number of steps. -/
inductive Collects (d : Deserializer σ) : Pending σ → Prop
  | start : d.Collects d.pending
  | entry {r : Position} {e : Entry} {p q : Pending σ} :
    d.Collects p → d.collectEntry r e p = .ok q → d.Collects q
  | item {e : Slot × Settable σ} {p : Pending σ} (value : Option Value) :
    d.Collects p → e ∈ d.elements → d.Collects (d.keep e value p)

theorem Pending.Fits.collectEntry {e : Entry} {p q : Pending σ} (hp : p.Fits d)
    (h : d.collectEntry r e p = .ok q) : q.Fits d :=
  collectEntry_keeps (fun slot value _ hp => hp.argument slot value)
    (fun s _ value _ _ hp => hp.buffer s value) hp h

theorem Pending.Fits.keep {p : Pending σ} (hp : p.Fits d) (e : Slot × Settable σ)
    (value : Option Value) : (d.keep e value p).Fits d := by
  obtain ⟨slot, s⟩ := e
  cases slot with
  | creator k => exact hp.argument _ value
  | property i => exact hp.buffer s value

/-- **Whatever is collected, the arguments stay as many as there are creators.** -/
theorem Collects.fits {p : Pending σ} (h : d.Collects p) : p.Fits d := by
  induction h with
  | start => exact fits_pending
  | entry _ hstep ih => exact ih.collectEntry hstep
  | item value _ _ ih => exact ih.keep _ value

/-- Reading entries takes no other steps. -/
theorem Collects.collectEntries {ending : Option Fault} {es : List Entry} {p q : Pending σ}
    (hp : d.Collects p) (h : d.collectEntries r ending es p = .ok q) : d.Collects q :=
  collectEntries_keeps (fun _ _ _ hp he => hp.entry he) hp h

/-- Reading items takes no other steps. -/
theorem Collects.collectItems {ending : Option Fault} {slots : List (Slot × Settable σ)}
    {items : List Item} {p q : Pending σ} (hslots : ∀ e ∈ slots, e ∈ d.elements)
    (hp : d.Collects p) (h : d.collectItems r ending slots items p = .ok q) : d.Collects q :=
  collectItems_keeps
    (fun position s hs value _ hp => hp.item value (hslots (.creator position, s) hs))
    (fun index s hs value _ _ hp => hp.item value (hslots (.property index, s) hs)) hp h

/-! ## Indices in range -/

/-- Every index that reading takes from one table lies inside the next. -/
structure InRange (d : Deserializer σ) : Prop where
  /-- Where a name leads, there is a property. -/
  property : ∀ name i, d.propertyIndex.lookup name = some i → i < d.properties.length
  /-- Where a name leads, there is a creator, and its slot. -/
  creator : ∀ name k, d.creatorIndex.lookup name = some k →
    k < d.creators.length ∧ k < d.creatorSlots.length
  /-- The slot of an element is taken, in order and without a gap. -/
  element : d.elements.map (·.1) = d.elementOrder
  /-- The slot of a creator lies among the arguments, whatever has been collected. -/
  argument : ∀ k < d.creators.length, ∃ slot, d.creatorSlots[k]? = some slot ∧
    ∀ p, d.Collects p → slot < p.arguments.length ∧ slot < p.present.length

theorem Indexed.map_elements (h : d.Indexed) : d.elements.map (·.1) = d.elementOrder := by
  have hall : ∀ slot ∈ d.elementOrder, ((d.inSlot slot).map (slot, ·)).map (·.1) = some slot := by
    intro slot hslot
    obtain ⟨s, hs⟩ := Option.isSome_iff_exists.mp (h.inSlot_isSome hslot)
    rw [hs]
    rfl
  rw [elements, List.map_filterMap, List.filterMap_congr hall, List.filterMap_some]

theorem Tabulates.inRange (ht : d.Tabulates) (helement : d.elements.map (·.1) = d.elementOrder) :
    d.InRange where
  property name i hi := by
    obtain ⟨s, hs, -⟩ := (ht.propertyIndex name i).mp hi
    exact (List.getElem?_eq_some_iff.mp hs).1
  creator name k hk := by
    obtain ⟨c, hc, -⟩ := (ht.creatorIndex name k).mp hk
    have hlt := (List.getElem?_eq_some_iff.mp hc).1
    exact ⟨hlt, by rw [ht.length_creatorSlots]; exact hlt⟩
  element := helement
  argument k hk := by
    rw [← ht.length_creatorSlots] at hk
    refine ⟨_, List.getElem?_eq_getElem hk, fun p hp => ?_⟩
    rw [hp.fits.arguments, hp.fits.present]
    have hlt := ht.creatorSlots_lt _ (List.getElem_mem hk)
    exact ⟨hlt, hlt⟩

end Deserializer

/-! ## Built deserializers -/

/--
**A deserializer that can be built has tables that fit.**

It keeps the properties and creators of its draft. The tables of names lead exactly to
their positions, each creator has an argument slot below the number of creators, and the
order of elements has each creator once and each property whose name no creator has: the
slots of properties in their order, then the other creators in theirs. So no index is out
of range while a bean is created or updated, where collecting entries or items goes
through the steps that are said here, from the beginning to the end.
-/
theorem built_tables_fit {draft : DeserializerDraft σ} {d : Deserializer σ}
    (h : draft.build = .ok d) :
    draft.Keeps d ∧ d.Tabulates ∧ d.InRange ∧
      (∀ r ending es p, d.collectEntries r ending es d.pending = .ok p → d.Collects p) ∧
      (∀ r ending items p, d.collectItems r ending d.elements items d.pending = .ok p →
        d.Collects p) := by
  obtain ⟨hkeeps, hindexed⟩ := DeserializerDraft.indexed_of_build h
  refine ⟨hkeeps, hindexed.tabulates, hindexed.tabulates.inRange hindexed.map_elements, ?_, ?_⟩
  · intro r ending es p hp
    exact Deserializer.Collects.start.collectEntries hp
  · intro r ending items p hp
    exact Deserializer.Collects.start.collectItems (fun e he => he) hp

/-! ### Labels that are given when a number is made -/

namespace Labelled

/-- The introspection of labelled numbers that are made from a hint and a label. -/
def hinted : Introspection (Tree × Option Tree) :=
  (((introspection label).withArgument (.declare "hint" text)).withArgument
    (.declare "label" text)).withConstructor (do
      let t ← Arguments.takeOpt 1 text
      return (.int .i64 0, t))

/-- A draft with two properties, for beans that are made from two arguments. -/
def hintedDraft : DeserializerDraft (Tree × Option Tree) :=
  ⟨type, .array, true, [.virtual number, .virtual label], .ofIntrospection hinted⟩

end Labelled

/-- The argument of the label stands in its place, and the hint comes last. -/
theorem hinted_tables_fit :
    ∃ d, Labelled.hintedDraft.build = .ok d ∧
      d.elementOrder = [.property 0, .creator 1, .creator 0] ∧ d.Tabulates ∧ d.InRange := by
  have hbuild : ∃ d, Labelled.hintedDraft.build = .ok d ∧
      d.elementOrder = [.property 0, .creator 1, .creator 0] := ⟨_, rfl, rfl⟩
  obtain ⟨d, hd, horder⟩ := hbuild
  obtain ⟨-, htabulates, hrange, -⟩ := built_tables_fit hd
  exact ⟨d, hd, horder, htabulates, hrange⟩

end BeanBinding
