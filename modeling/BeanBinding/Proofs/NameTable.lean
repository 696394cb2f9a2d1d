import BeanBinding.Deserializer.Draft
import Mathlib.Data.List.Nodup

/-!
# What building establishes about tables of names

A deserializer finds properties and creators by name, in tables of positions that
were filled once, when its draft was built. Everything said later about a document
goes through these tables, so this file says what is in them:

* filling succeeds exactly if no name occurs twice, and then the table holds each
  name with its position;
* hence a look-up by name finds the one property, or creator, of that name;
* creators have argument slots below their number.

`Deserializer.Indexed` collects this, and `indexed_of_build` is the one place where
the code that fills the tables is opened.
-/

namespace BeanBinding

variable {σ : Type}

/-! ## Looking up a position -/

theorem lookup_eq_some_iff_mem {α : Type} {table : List (String × α)} {name : String} {a : α}
    (h : (table.map (·.1)).Nodup) : table.lookup name = some a ↔ (name, a) ∈ table := by
  induction table with
  | nil => simp
  | cons entry table ih =>
    obtain ⟨key, b⟩ := entry
    rw [List.map_cons, List.nodup_cons] at h
    rw [List.lookup_cons, List.mem_cons]
    by_cases hk : name = key
    · subst hk
      have hnot : ∀ c, (name, c) ∉ table := fun c hm => h.1 (List.mem_map.mpr ⟨(name, c), hm, rfl⟩)
      simp [hnot, eq_comm]
    · have hb : (name == key) = false := beq_eq_false_iff_ne.mpr hk
      simp [hb, hk, ih h.2]

/-- The table of a list without repetition finds a name at its position, and nowhere else. -/
theorem lookup_zipIdx_eq_some_iff {names : List String} {name : String} {k : Nat}
    (h : names.Nodup) : names.zipIdx.lookup name = some k ↔ names[k]? = some name := by
  rw [lookup_eq_some_iff_mem (by simpa using h), List.mem_zipIdx_iff_getElem?]

/-! ## Filling the tables -/

namespace DeserializerDraft

/-- No name of `names` is in a table to which `name` has been added. -/
theorem lookup_snoc_eq_none_iff {table : NameTable} {name other : String} {position : Nat} :
    (table ++ [(name, position)]).lookup other = none ↔
      table.lookup other = none ∧ other ≠ name := by
  rw [List.lookup_append, Option.or_eq_none_iff]
  simp

theorem indexNames_eq_ok_iff {names : List String} {position : Nat} {table t : NameTable} :
    indexNames names position table = .ok t ↔
      names.Nodup ∧ (∀ name ∈ names, table.lookup name = none) ∧
        table ++ names.zipIdx position = t := by
  induction names generalizing position table with
  | nil => simp [indexNames]
  | cons name names ih =>
    rw [indexNames]
    cases hl : table.lookup name with
    | some k =>
      constructor
      · intro h; cases h
      · -- the name is taken, though the right side says it is free
        rintro ⟨-, hfree, -⟩
        rw [hfree name List.mem_cons_self] at hl
        cases hl
    | none =>
      simp only [Option.isSome_none, Bool.false_eq_true, if_false, ih, List.nodup_cons,
        List.mem_cons, forall_eq_or_imp, hl, lookup_snoc_eq_none_iff, List.zipIdx_cons,
        List.append_assoc, List.singleton_append, true_and]
      grind

theorem indexCreators_eq_ok_iff {count : Nat} {ss : List (Settable σ)} {position : Nat}
    {table t : NameTable} {slots filled : List Nat} :
    indexCreators count ss position table slots = .ok (t, filled) ↔
      (∀ entry ∈ ss.zipIdx position, slotAt entry.1 entry.2 < count) ∧
        (ss.map (·.name)).Nodup ∧ (∀ s ∈ ss, table.lookup s.name = none) ∧
        table ++ (ss.map (·.name)).zipIdx position = t ∧
        slots ++ (ss.zipIdx position).map (fun entry => slotAt entry.1 entry.2) = filled := by
  induction ss generalizing position table slots with
  | nil => simp [indexCreators]
  | cons s ss ih =>
    rw [indexCreators]
    by_cases hc : count ≤ slotAt s position
    · have hn : ¬ slotAt s position < count := by omega
      simp [hc, hn]
    · have hlt : slotAt s position < count := by omega
      cases hl : table.lookup s.name with
      | some k =>
        constructor
        · intro h; rw [if_neg hc] at h; cases h
        · rintro ⟨-, -, hfree, -⟩
          rw [hfree s List.mem_cons_self] at hl
          cases hl
      | none =>
        simp only [if_neg hc, Option.isSome_none, Bool.false_eq_true, if_false, ih,
          List.zipIdx_cons, List.mem_cons, forall_eq_or_imp, hlt, true_and, List.map_cons,
          List.nodup_cons, hl, lookup_snoc_eq_none_iff, List.append_assoc,
          List.singleton_append]
        grind

end DeserializerDraft

/-! ## Built deserializers -/

/-- What a deserializer knows about its names and slots once it has been built. -/
structure Deserializer.Indexed (d : Deserializer σ) : Prop where
  /-- No two properties share a name. -/
  propertyNames : (d.properties.map (·.name)).Nodup
  /-- The names of the properties stand at their positions. -/
  propertyIndex : d.propertyIndex = (d.properties.map (·.name)).zipIdx
  /-- No two creators share a name. -/
  creatorNames : (d.creators.map (·.name)).Nodup
  /-- The names of the creators stand at their positions. -/
  creatorIndex : d.creatorIndex = (d.creators.map (·.name)).zipIdx
  /-- Each creator has its own slot, or its position for one. -/
  creatorSlots : d.creatorSlots =
    d.creators.zipIdx.map fun entry => DeserializerDraft.slotAt entry.1 entry.2
  /-- Slots lie among the arguments. -/
  slot_lt : ∀ entry ∈ d.creators.zipIdx,
    DeserializerDraft.slotAt entry.1 entry.2 < d.creators.length
  /-- The order of elements follows from the tables. -/
  elementOrder : d.elementOrder =
    DeserializerDraft.elementOrder d.creatorIndex d.properties d.creators.length

namespace DeserializerDraft

/-- A built deserializer keeps everything its draft says. -/
structure Keeps (draft : DeserializerDraft σ) (d : Deserializer σ) : Prop where
  bean : d.bean = draft.bean
  shape : d.shape = draft.shape
  failOnUnknown : d.failOnUnknown = draft.failOnUnknown
  properties : d.properties = draft.properties
  creators : d.creators = draft.creators
  instantiator : d.instantiator = draft.instantiator

/-- **Building fills the tables.** -/
theorem indexed_of_build {draft : DeserializerDraft σ} {d : Deserializer σ}
    (h : draft.build = .ok d) : draft.Keeps d ∧ d.Indexed := by
  simp only [build] at h
  split at h
  · cases h
  · split at h
    · cases h
    · rename_i propertyIndex hp
      split at h
      · cases h
      · rename_i creatorIndex creatorSlots hc
        cases h
        obtain ⟨hpn, -, hpi⟩ := indexNames_eq_ok_iff.mp hp
        obtain ⟨hlt, hcn, -, hci, hcs⟩ := indexCreators_eq_ok_iff.mp hc
        exact ⟨⟨rfl, rfl, rfl, rfl, rfl, rfl⟩, ⟨hpn, hpi.symm, hcn, hci.symm, hcs.symm, hlt, rfl⟩⟩

/-- A draft builds if it makes beans, repeats no name and has a slot for each creator. -/
theorem exists_build {draft : DeserializerDraft σ} (hm : draft.instantiator.makesBeans)
    (hp : (draft.properties.map (·.name)).Nodup) (hc : (draft.creators.map (·.name)).Nodup)
    (hlt : ∀ entry ∈ draft.creators.zipIdx, slotAt entry.1 entry.2 < draft.creators.length) :
    ∃ d, draft.build = .ok d := by
  have hnames := indexNames_eq_ok_iff.mpr
    ⟨hp, fun _ _ => List.lookup_nil, (rfl : [] ++ (draft.properties.map (·.name)).zipIdx = _)⟩
  have hcreators := indexCreators_eq_ok_iff.mpr
    ⟨hlt, hc, fun _ _ => List.lookup_nil, (rfl : [] ++ (draft.creators.map (·.name)).zipIdx = _),
      (rfl : [] ++ draft.creators.zipIdx.map (fun entry => slotAt entry.1 entry.2) = _)⟩
  simp only [build, hm, hnames, hcreators]
  exact ⟨_, rfl⟩

/-- A deserializer that cannot be built is refused for that reason. -/
theorem exists_problem_of_build {draft : DeserializerDraft σ} {e : CodecError}
    (h : draft.build = .error e) : ∃ p, e = .build draft.bean.name p := by
  simp only [build] at h
  split at h
  · cases h
    exact ⟨_, rfl⟩
  · split at h
    · cases h
      exact ⟨_, rfl⟩
    · split at h
      · cases h
        exact ⟨_, rfl⟩
      · cases h

end DeserializerDraft

/-! ## Finding by name -/

namespace Deserializer

variable {d : Deserializer σ}

/-- The property of a name is the one that has it. -/
theorem Indexed.property_eq_some_iff (h : d.Indexed) {name : String} {s : Settable σ} :
    d.property name = some s ↔ s ∈ d.properties ∧ s.name = name := by
  rw [property, h.propertyIndex, Option.bind_eq_some_iff]
  simp only [lookup_zipIdx_eq_some_iff h.propertyNames, List.getElem?_map,
    Option.map_eq_some_iff, List.mem_iff_getElem?]
  grind

theorem Indexed.property_eq_none_iff (h : d.Indexed) {name : String} :
    d.property name = none ↔ ∀ s ∈ d.properties, s.name ≠ name := by
  rw [Option.eq_none_iff_forall_not_mem]
  simp only [Option.mem_def, h.property_eq_some_iff]
  grind

/-- The creator of a name is the one that has it, found with its position. -/
theorem Indexed.creator_eq_some_iff (h : d.Indexed) {name : String} {k : Nat} {s : Settable σ} :
    d.creator name = some (k, s) ↔ d.creators[k]? = some s ∧ s.name = name := by
  rw [creator, h.creatorIndex, Option.bind_eq_some_iff]
  simp only [lookup_zipIdx_eq_some_iff h.creatorNames, List.getElem?_map,
    Option.map_eq_some_iff, Prod.mk.injEq]
  grind

theorem Indexed.creator_eq_none_iff (h : d.Indexed) {name : String} :
    d.creator name = none ↔ ∀ s ∈ d.creators, s.name ≠ name := by
  rw [Option.eq_none_iff_forall_not_mem]
  simp only [Option.mem_def, Prod.forall, h.creator_eq_some_iff, List.mem_iff_getElem?]
  grind

/-- The table of creators leads to the position of the creator that has the name. -/
theorem Indexed.creatorIndex_lookup_eq_some_iff (h : d.Indexed) {name : String} {position : Nat} :
    d.creatorIndex.lookup name = some position ↔
      ∃ c, d.creators[position]? = some c ∧ c.name = name := by
  rw [h.creatorIndex, lookup_zipIdx_eq_some_iff h.creatorNames, List.getElem?_map,
    Option.map_eq_some_iff]

/-! ## Argument slots -/

/-- The argument slots are those of the creators, in order. -/
theorem Indexed.creatorSlots_eq (h : d.Indexed) :
    d.creatorSlots = (List.range d.creators.length).map d.slotOf := by
  have hlength : d.creatorSlots.length = d.creators.length := by
    rw [h.creatorSlots, List.length_map, List.length_zipIdx]
  refine List.ext_getElem (by rw [hlength, List.length_map, List.length_range]) ?_
  intro k hk _
  rw [List.getElem_map, List.getElem_range, slotOf, List.getElem?_eq_getElem hk, Option.getD_some]

end Deserializer

end BeanBinding
