import BeanBinding.Proofs.Elements
import BeanBinding.Proofs.Writing

/-!
# Which member an element belongs to

A description gives rise to two drafts, and both drop the names when beans are arrays:
then the place of an element alone says which member it belongs to. The serializer puts
its writers into the order of the declared indices. The deserializer leaves its
properties as they are listed.

So the two agree on the places exactly for descriptions that list their members in the
order of the indices, and an array comes back permuted for all others.
-/

namespace BeanBinding

variable {σ : Type}

/-- The key by which a member is placed among those that are written. -/
def Member.rank (m : Member σ) : Int := m.metadata.index.getD IntKind.i64.highest

/-- The members stand in the order of their declared indices, those without one last. -/
def Description.Ordered (d : Description σ) : Prop :=
  d.members.Pairwise fun m n => m.rank ≤ n.rank

/-- The members in the order in which they are written. -/
def Description.ranked (d : Description σ) : List (Member σ) :=
  d.members.mergeSort fun m n => m.rank ≤ n.rank

namespace Description

theorem ranked_perm (d : Description σ) : d.ranked.Perm d.members :=
  List.mergeSort_perm _ _

theorem ranked_ordered (d : Description σ) : d.ranked.Pairwise fun m n => m.rank ≤ n.rank := by
  have h : d.ranked.Pairwise fun m n => decide (m.rank ≤ n.rank) = true := by
    apply List.pairwise_mergeSort
    · intro a b c hab hbc
      rw [decide_eq_true_eq] at hab hbc ⊢
      omega
    · intro a b
      rw [Bool.or_eq_true, decide_eq_true_eq, decide_eq_true_eq]
      omega
  simpa using h

/-- Ordering leaves the members in their places exactly if they were in order. -/
theorem ranked_eq_iff {d : Description σ} : d.ranked = d.members ↔ d.Ordered := by
  constructor
  · intro h
    have hp := d.ranked_ordered
    rwa [h] at hp
  · intro h
    refine List.mergeSort_of_pairwise (List.Pairwise.imp ?_ h)
    intro m n hmn
    simpa using hmn

end Description

/-! ## The two drafts of a description -/

theorem orderKey_writerOf (config : Config) (m : Member σ) :
    SerializerDraft.orderKey (SerializerDraft.writerOf config m) = m.rank := by
  unfold SerializerDraft.orderKey SerializerDraft.writerOf Writer.withInclusion
  cases m.inclusion.getD config.inclusion with
  | always | nonNull | nonEmpty | nonDefault => rfl

/-- A writer is put before one with a larger key. -/
theorem sortByKey_pair {v w : Writer σ}
    (h : SerializerDraft.orderKey w < SerializerDraft.orderKey v) :
    SerializerDraft.sortByKey [v, w] = [w, v] := by
  simp [SerializerDraft.sortByKey, List.mergeSort, List.MergeSort.Internal.splitInTwo, h]

theorem name_writerOf (config : Config) (m : Member σ) :
    (SerializerDraft.writerOf config m).name = m.name := by
  unfold SerializerDraft.writerOf Writer.withInclusion
  cases m.inclusion.getD config.inclusion with
  | always | nonNull | nonEmpty | nonDefault => rfl

theorem name_ofMember {m : Member σ} {c : Settable σ} (h : Settable.ofMember m = some c) :
    c.name = m.name := by
  unfold Settable.ofMember at h
  split at h
  · obtain ⟨kind, -, rfl⟩ := Option.map_eq_some_iff.mp h
    rfl
  · cases h

theorem isSome_ofMember {m : Member σ} (h : m.isSettable = true) :
    (Settable.ofMember m).isSome = true := by
  rw [Settable.ofMember, if_pos h, Option.isSome_map]
  cases hk : m.kind with
  | method => rfl
  | field => rfl
  | computed => simp [Member.isSettable, hk] at h

/-- Ordering the writers of some members is ordering the members. -/
theorem sortByKey_map_writerOf (config : Config) (ms : List (Member σ)) :
    SerializerDraft.sortByKey (ms.map (SerializerDraft.writerOf config)) =
      (ms.mergeSort fun m n => m.rank ≤ n.rank).map (SerializerDraft.writerOf config) := by
  symm
  apply List.map_mergeSort
  intro m _ n _
  rw [orderKey_writerOf, orderKey_writerOf]

/-- The members are written in their order, if all of them can be read. -/
theorem writers_ofDescription {d : Description σ} (config : Config)
    (h : ∀ m ∈ d.members, m.property.isReadable = true) :
    (SerializerDraft.ofDescription d config).writers =
      d.ranked.map (SerializerDraft.writerOf config) := by
  have hreadable : SerializerDraft.readableMembers d = d.members := List.filter_eq_self.mpr h
  show SerializerDraft.sortByKey _ = _
  rw [hreadable, sortByKey_map_writerOf]
  rfl

/-- A list that is filtered without loss keeps its places. -/
theorem getElem?_filterMap_of_isSome {α β : Type} {f : α → Option β} {l : List α}
    (h : ∀ a ∈ l, (f a).isSome = true) (k : Nat) : (l.filterMap f)[k]? = l[k]?.bind f := by
  induction l generalizing k with
  | nil => simp
  | cons a l ih =>
    obtain ⟨b, hb⟩ := Option.isSome_iff_exists.mp (h a List.mem_cons_self)
    rw [List.filterMap_cons_some hb]
    cases k with
    | zero => simp [hb]
    | succ k => simpa using ih (fun x hx => h x (List.mem_cons_of_mem a hx)) k

/-- A described bean is made without creators, so its elements are its settable members. -/
theorem elements_ofDescription {d : Description σ} {config : Config} {e : Deserializer σ}
    (h : (DeserializerDraft.ofDescription d config).build = .ok e) :
    e.creators = [] ∧ e.elements.map (·.2) = d.members.filterMap Settable.ofMember := by
  obtain ⟨hk, hi⟩ := DeserializerDraft.indexed_of_build h
  have hc : e.creators = [] := hk.creators
  refine ⟨hc, ?_⟩
  rw [hi.elements_eq_properties hc, hk.properties]
  rfl

/-- As many elements are written as are read, one for each member. -/
theorem length_elements_eq {d : Description σ} {config : Config}
    (hread : ∀ m ∈ d.members, m.property.isReadable = true)
    (hset : ∀ m ∈ d.members, m.isSettable = true) {s : Serializer σ} {e : Deserializer σ}
    (hs : (SerializerDraft.ofDescription d config).build = .ok s)
    (he : (DeserializerDraft.ofDescription d config).build = .ok e) :
    e.elements.length = s.writers.length := by
  have hwriters : s.writers.length = d.members.length := by
    rw [(SerializerDraft.build_eq_ok_iff.mp hs).1]
    show (SerializerDraft.ofDescription d config).writers.length = _
    rw [writers_ofDescription config hread, List.length_map, d.ranked_perm.length_eq]
  have hall : d.members.countP (fun m => (Settable.ofMember m).isSome) = d.members.length :=
    List.countP_eq_length.mpr fun m hm => isSome_ofMember (hset m hm)
  rw [hwriters, ← List.length_map (·.2), (elements_ofDescription he).2,
    List.length_filterMap_eq_countP, hall]

/-! ## Alignment -/

/-- Whatever stands at one place among the writers and the elements is made from one member. -/
def Aligned (d : Description σ) (config : Config) (s : Serializer σ) (e : Deserializer σ) : Prop :=
  ∀ (k : Nat) (w : Writer σ) (c : Settable σ),
    s.writers[k]? = some w → (e.elements[k]?).map (·.2) = some c →
      ∃ m ∈ d.members, w = SerializerDraft.writerOf config m ∧ Settable.ofMember m = some c

/-- Places agree exactly if ordering the members moves none of them. -/
theorem aligned_iff {d : Description σ} {config : Config}
    (hread : ∀ m ∈ d.members, m.property.isReadable = true)
    (hset : ∀ m ∈ d.members, m.isSettable = true) {s : Serializer σ} {e : Deserializer σ}
    (hs : (SerializerDraft.ofDescription d config).build = .ok s)
    (he : (DeserializerDraft.ofDescription d config).build = .ok e) :
    Aligned d config s e ↔ d.Ordered := by
  obtain ⟨rfl, hnames, -⟩ := SerializerDraft.build_eq_ok_iff.mp hs
  obtain ⟨-, helements⟩ := elements_ofDescription he
  have hwriters := writers_ofDescription config hread
  have hnodup : (d.members.map (·.name)).Nodup := by
    rw [hwriters, List.map_map] at hnames
    have hsame : (fun w : Writer σ => w.name) ∘ SerializerDraft.writerOf config =
        fun m : Member σ => m.name := funext (name_writerOf config)
    rw [hsame] at hnames
    exact (d.ranked_perm.map _).nodup_iff.mp hnames
  have hplace : ∀ k : Nat, (e.elements[k]?).map (·.2) = d.members[k]?.bind Settable.ofMember := by
    intro k
    have h := getElem?_filterMap_of_isSome (fun m hm => isSome_ofMember (hset m hm)) k
    rwa [← helements, List.getElem?_map] at h
  rw [← Description.ranked_eq_iff]
  constructor
  · -- one place after the other: aligned places hold one member
    intro h
    refine List.ext_getElem d.ranked_perm.length_eq ?_
    intro k hk hk'
    have hm : d.members[k] ∈ d.members := List.getElem_mem hk'
    obtain ⟨c, hc⟩ := Option.isSome_iff_exists.mp (isSome_ofMember (hset _ hm))
    obtain ⟨m, -, hw, hmc⟩ := h k (SerializerDraft.writerOf config d.ranked[k]) c
      (by rw [hwriters, List.getElem?_map, List.getElem?_eq_getElem hk]; rfl)
      (by rw [hplace, List.getElem?_eq_getElem hk']; exact hc)
    -- what is written and what is read there has one name, which only one member has
    have hname : d.ranked[k].name = d.members[k].name := by
      rw [← name_writerOf config, hw, name_writerOf, ← name_ofMember hmc, name_ofMember hc]
    exact List.inj_on_of_nodup_map hnodup
      (d.ranked_perm.mem_iff.mp (List.getElem_mem hk)) hm hname
  · intro h k w c hw hc
    rw [hplace] at hc
    obtain ⟨m, hm, hmc⟩ := Option.bind_eq_some_iff.mp hc
    refine ⟨m, List.mem_of_getElem? hm, ?_, hmc⟩
    rw [hwriters, h, List.getElem?_map, hm] at hw
    exact (Option.some.inj hw).symm

/--
**A list is read back into the members it was written from exactly if these are in order.**

Every element is written by the writer at its place, and an element that is read goes to
the settable property at its place, in creating and in updating alike. The two are of one
member at every place if the members are listed in the order of their declared indices,
and only then.
-/
theorem list_aligned_iff_ordered {d : Description σ} {config : Config}
    (hshape : d.shape.getD config.shape = .array)
    (hread : ∀ m ∈ d.members, m.property.isReadable = true)
    (hset : ∀ m ∈ d.members, m.isSettable = true) {s : Serializer σ} {e : Deserializer σ}
    (hs : (SerializerDraft.ofDescription d config).build = .ok s)
    (he : (DeserializerDraft.ofDescription d config).build = .ok e) :
    (∀ bean j, s.serialize bean = .ok j →
      ∃ js, j = .list js ∧ List.Forall₂ (fun w j => w.element bean = .ok j) s.writers js) ∧
    e.elements.length = s.writers.length ∧
    (∀ r js, js.length ≤ e.elements.length →
      let received := e.receiveAll r .noListSeparator ((e.elements.map (·.2)).zip js)
      e.create (.ofList r js) = Deserializer.fill e.instantiate received ∧
        ∀ bean, bean.type = d.bean → e.update (.ofList r js) bean = received bean) ∧
    (Aligned d config s e ↔ d.Ordered) := by
  have hss : s.shape = .array := by rw [(SerializerDraft.build_eq_ok_iff.mp hs).1]; exact hshape
  obtain ⟨hk, -⟩ := DeserializerDraft.indexed_of_build he
  have hes : e.shape = .array := hk.shape.trans hshape
  obtain ⟨hcreators, -⟩ := elements_ofDescription he
  refine ⟨fun bean j h => Serializer.serialize_list hss h, length_elements_eq hread hset hs he,
    ?_, aligned_iff hread hset hs he⟩
  intro r js hjs
  refine ⟨Deserializer.create_ofList hes hcreators hjs, fun bean hbean => ?_⟩
  exact Deserializer.update_ofList hes (hbean.trans hk.bean.symm) hjs

/-! ### Pairs whose sides declare indices -/

namespace Pair

/-- The annotations that declare a place. -/
def placed (index : Int) : Annotations :=
  Annotations.empty.set Annotations.Kind.property Annotations.Attribute.index (.int index)

/-- A pair, written as a list, whose sides declare their places. -/
def described (leftIndex rightIndex : Int) : Description (Tree × Tree) where
  bean := type
  members := [.declare .method (leftProperty (placed leftIndex)),
    .declare .method (rightProperty (placed rightIndex))]
  fresh := some (of 0 0).state
  shape := some .array

theorem described_readable (leftIndex rightIndex : Int) :
    ∀ m ∈ (described leftIndex rightIndex).members, m.property.isReadable = true := by
  intro m hm
  rcases List.mem_pair.mp hm with rfl | rfl
  · rfl
  · rfl

theorem described_settable (leftIndex rightIndex : Int) :
    ∀ m ∈ (described leftIndex rightIndex).members, m.isSettable = true := by
  intro m hm
  rcases List.mem_pair.mp hm with rfl | rfl
  · rfl
  · rfl

end Pair

/-- A pair whose sides are listed in order is read back as it was written. -/
theorem list_aligned_in_order :
    ∃ s e, (SerializerDraft.ofDescription (Pair.described 0 1) .default).build = .ok s ∧
      (DeserializerDraft.ofDescription (Pair.described 0 1) .default).build = .ok e ∧
      Aligned (Pair.described 0 1) .default s e := by
  have hordered : (Pair.described 0 1).Ordered := List.pairwise_pair.mpr (by decide)
  have hs : ∃ s, (SerializerDraft.ofDescription (Pair.described 0 1) .default).build = .ok s := by
    refine ⟨_, SerializerDraft.build_eq_ok_iff.mpr ⟨rfl, ?_⟩⟩
    rw [writers_ofDescription .default (Pair.described_readable 0 1),
      Description.ranked_eq_iff.mpr hordered]
    decide
  obtain ⟨s, hs⟩ := hs
  obtain ⟨e, he⟩ :
      ∃ e, (DeserializerDraft.ofDescription (Pair.described 0 1) .default).build = .ok e :=
    ⟨_, rfl⟩
  have h := list_aligned_iff_ordered rfl (Pair.described_readable 0 1)
    (Pair.described_settable 0 1) hs he
  exact ⟨s, e, hs, he, h.2.2.2.mpr hordered⟩

/-- A pair whose sides are listed against their order comes back with its sides exchanged. -/
theorem list_read_back_crossed :
    let written := [.number (.ofInt 2), .number (.ofInt 1)]
    (∀ m ∈ (Pair.described 1 0).members, m.property.isReadable = true ∧ m.isSettable = true) ∧
      ((Pair.described 1 0).members.map (·.name)).Nodup ∧
      ∃ s e, (SerializerDraft.ofDescription (Pair.described 1 0) .default).build = .ok s ∧
        (DeserializerDraft.ofDescription (Pair.described 1 0) .default).build = .ok e ∧
        s.serialize (Pair.of 1 2) = .ok (.list written) ∧
        e.create (.ofList (.start .streamed) written) = .ok (Pair.of 2 1) ∧
        e.update (.ofList (.start .streamed) written) (Pair.of 1 2) = .ok () (Pair.of 2 1) := by
  intro written
  -- the writer of the right side comes first
  have hwriters : (SerializerDraft.ofDescription (Pair.described 1 0) .default).writers =
      [SerializerDraft.writerOf .default (.declare .method (Pair.rightProperty (Pair.placed 0))),
        SerializerDraft.writerOf .default (.declare .method (Pair.leftProperty (Pair.placed 1)))] :=
    sortByKey_pair (by decide)
  refine ⟨fun m hm => ⟨Pair.described_readable 1 0 m hm, Pair.described_settable 1 0 m hm⟩,
    by decide, _, _, SerializerDraft.build_eq_ok_iff.mpr ⟨rfl, ?_⟩, rfl, ?_, rfl, rfl⟩
  · rw [hwriters]
    decide
  · rw [hwriters]
    rfl

end BeanBinding
