import BeanBinding.Proofs.Reordering
import BeanBinding.Proofs.Tables

/-!
# Who owns an argument slot

A creator says which argument slot is its own, or takes the one at its position. Building a
deserializer checks that there is such a slot, and that no two creators have one name. It
does not check that no two creators have one slot.

So whether creators own their slots is up to what they declare: no two may declare one
index, and none may declare the position of a creator that declares nothing. As there are
as many slots as creators, this is at the same time what it takes for every slot to have a
creator, and for no argument to overwrite another one. Then each creator finds in its slot
the last value under its name, whatever else the document holds. The creators for the
arguments of a constructor declare their positions, and have nothing to fear.
-/

namespace BeanBinding

variable {σ : Type}

/-! ## Slots of creators -/

/-- No two creators have one argument slot. -/
def Deserializer.SlotsApart (d : Deserializer σ) : Prop :=
  ∀ j < d.creators.length, ∀ k < d.creators.length, d.slotOf j = d.slotOf k → j = k

/-- What some creators declare gives each of them a slot of its own. -/
structure Settable.DeclareApart (ss : List (Settable σ)) : Prop where
  /-- No two declare one index. -/
  declared : ∀ (j k : Nat) (s t : Settable σ) (index : Nat), ss[j]? = some s → ss[k]? = some t →
    s.creatorIndex = some index → t.creatorIndex = some index → j = k
  /-- None declares the position of one that declares nothing. -/
  undeclared : ∀ (j k : Nat) (s t : Settable σ), ss[j]? = some s → ss[k]? = some t →
    s.creatorIndex = some k → t.creatorIndex ≠ none

namespace Deserializer

variable {d : Deserializer σ}

namespace Indexed

variable (h : d.Indexed)

include h

/-- The slot of a creator is the one that it declares, or that at its position. -/
theorem slotOf_eq {k : Nat} {c : Settable σ} (hk : d.creators[k]? = some c) :
    d.slotOf k = c.creatorIndex.getD k := by
  rw [slotOf, h.creatorSlots, List.getElem?_map, List.getElem?_zipIdx, hk]
  simp [DeserializerDraft.slotAt]

/-- There is a slot for each creator. -/
theorem slotOf_lt {k : Nat} (hk : k < d.creators.length) : d.slotOf k < d.creators.length := by
  refine h.tabulates.creatorSlots_lt _ ?_
  rw [h.creatorSlots_eq]
  exact List.mem_map_of_mem (List.mem_range.mpr hk)

/-- Creators own their slots exactly if they declare apart what they declare. -/
theorem slotsApart_iff_declareApart : d.SlotsApart ↔ Settable.DeclareApart d.creators := by
  constructor
  · intro hapart
    have hsame : ∀ (j k : Nat) (s t : Settable σ), d.creators[j]? = some s →
        d.creators[k]? = some t → s.creatorIndex.getD j = t.creatorIndex.getD k → j = k := by
      intro j k s t hj hk hslot
      rw [← h.slotOf_eq hj, ← h.slotOf_eq hk] at hslot
      exact hapart j (List.getElem?_eq_some_iff.mp hj).1 k (List.getElem?_eq_some_iff.mp hk).1 hslot
    constructor
    · intro j k s t index hj hk hs ht
      exact hsame j k s t hj hk (by rw [hs, ht]; rfl)
    · intro j k s t hj hk hs ht
      cases hsame j k s t hj hk (by rw [hs, ht]; rfl)
      rw [hj] at hk
      cases hk
      rw [hs] at ht
      cases ht
  · intro hapart j hj k hk hslot
    have hj' := List.getElem?_eq_getElem hj
    have hk' := List.getElem?_eq_getElem hk
    rw [h.slotOf_eq hj', h.slotOf_eq hk'] at hslot
    cases hs : d.creators[j].creatorIndex with
    | some index =>
      cases ht : d.creators[k].creatorIndex with
      | some index' =>
        rw [hs, ht] at hslot
        cases (hslot : index = index')
        exact hapart.declared j k _ _ index hj' hk' hs ht
      | none =>
        rw [hs, ht] at hslot
        cases (hslot : index = k)
        exact absurd ht (hapart.undeclared j k _ _ hj' hk' hs)
    | none =>
      cases ht : d.creators[k].creatorIndex with
      | some index =>
        rw [hs, ht] at hslot
        cases (hslot : j = index)
        exact absurd hs (hapart.undeclared k j _ _ hk' hj' ht)
      | none =>
        rw [hs, ht] at hslot
        exact hslot

theorem slotsApart_iff_nodup : d.SlotsApart ↔ d.creatorSlots.Nodup := by
  rw [h.creatorSlots_eq, List.nodup_map_iff_inj_on List.nodup_range]
  simp only [List.mem_range]
  rfl

/-- The slots are all there are, in some order, exactly if no two are the same. -/
theorem slotsApart_iff_perm :
    d.SlotsApart ↔ d.creatorSlots.Perm (List.range d.creators.length) := by
  rw [h.slotsApart_iff_nodup]
  constructor
  · intro hnodup
    have hlength : (List.range d.creators.length).length = d.creatorSlots.length := by
      rw [List.length_range, h.tabulates.length_creatorSlots]
    have hsub : d.creatorSlots ⊆ List.range d.creators.length := by
      intro slot hslot
      exact List.mem_range.mpr (h.tabulates.creatorSlots_lt slot hslot)
    exact (List.subperm_of_subset hnodup hsub).perm_of_length_le (Nat.le_of_eq hlength)
  · intro hperm
    exact hperm.nodup_iff.mpr List.nodup_range

/-- No slot is without a creator exactly if no slot has two. -/
theorem slotsApart_iff_surjective :
    d.SlotsApart ↔
      ∀ slot < d.creators.length, ∃ k < d.creators.length, d.slotOf k = slot := by
  have hmem : ∀ slot, slot ∈ d.creatorSlots ↔ ∃ k < d.creators.length, d.slotOf k = slot := by
    intro slot
    rw [h.creatorSlots_eq, List.mem_map]
    simp only [List.mem_range]
  rw [h.slotsApart_iff_perm]
  simp only [← hmem]
  constructor
  · intro hperm slot hslot
    exact hperm.mem_iff.mpr (List.mem_range.mpr hslot)
  · intro hall
    -- as many slots as creators, so none is left over
    have hsub : List.range d.creators.length ⊆ d.creatorSlots := by
      intro slot hslot
      exact hall slot (List.mem_range.mp hslot)
    have hlength : d.creatorSlots.length = (List.range d.creators.length).length := by
      rw [List.length_range, h.tabulates.length_creatorSlots]
    have hperm := (List.subperm_of_subset List.nodup_range hsub).perm_of_length_le
      (Nat.le_of_eq hlength)
    exact hperm.symm

end Indexed

/-! ## Arguments that are collected -/

theorem Pending.getElem?_argument_of_ne {p : Pending σ} {slot other : Nat} (hne : slot ≠ other)
    (value : Option Value) : (p.argument slot value).arguments[other]? = p.arguments[other]? :=
  List.getElem?_set_ne hne

theorem Pending.Fits.getElem?_argument {p : Pending σ} (hp : p.Fits d) {slot : Nat}
    (hslot : slot < d.creators.length) (value : Option Value) :
    (p.argument slot value).arguments[slot]? = some value :=
  List.getElem?_set_self (by rw [hp.arguments]; exact hslot)

/-- Creators own their slots exactly if no argument that is collected overwrites another one. -/
theorem Indexed.slotsApart_iff_kept (h : d.Indexed) :
    d.SlotsApart ↔ ∀ j < d.creators.length, ∀ k < d.creators.length, j ≠ k →
      ∀ p, d.Collects p → ∀ value, (p.argument (d.slotOf k) value).arguments[d.slotOf j]? =
        p.arguments[d.slotOf j]? := by
  constructor
  · intro hapart j hj k hk hne p _ value
    exact Pending.getElem?_argument_of_ne (fun hslot => hne (hapart j hj k hk hslot.symm)) value
  · intro hkept j hj k hk hslot
    by_contra hne
    -- a value for the second creator would show in the slot of the first
    have hlt : d.slotOf j < d.creators.length := h.slotOf_lt hj
    have hafter := hkept j hj k hk hne d.pending .start (some ⟨⟨"", .bool⟩, .bool true⟩)
    rw [← hslot, fits_pending.getElem?_argument hlt] at hafter
    simp [pending, hlt] at hafter

/-- Each creator finds in its slot the last value under its name. -/
def Delivers (d : Deserializer σ) (r : Position) (es : List (String × Json)) (p : Pending σ) :
    Prop :=
  ∀ k c, d.creators[k]? = some c →
    p.arguments[d.slotOf k]? = some ((lastNamed es c.name).bind (decoded c r))

variable {r : Position} {ending : Option Fault}

theorem Indexed.delivers_pending (h : d.Indexed) : d.Delivers r [] d.pending := by
  intro k c hk
  have hlt : d.slotOf k < d.creators.length := h.slotOf_lt (List.getElem?_eq_some_iff.mp hk).1
  simp [pending, lastNamed, hlt]

/-- One entry more reaches its creator, and no other. -/
theorem Indexed.delivers_keepEntry (h : d.Indexed) (hapart : d.SlotsApart)
    {es : List (String × Json)} {p : Pending σ} (hp : p.Fits d) (hes : d.Delivers r es p)
    (e : String × Json) : d.Delivers r (es ++ [e]) (d.keepEntry r e p) := by
  intro k c hk
  have hlt := (List.getElem?_eq_some_iff.mp hk).1
  rw [lastNamed_snoc, keepEntry]
  by_cases hname : e.1 = c.name
  · have hcreator : d.creator e.1 = some (k, c) := h.creator_eq_some_iff.mpr ⟨hk, hname.symm⟩
    rw [if_pos hname, hcreator]
    exact hp.getElem?_argument (h.slotOf_lt hlt) _
  · rw [if_neg hname]
    cases hcreator : d.creator e.1 with
    | none =>
      -- the value waits, or the entry is passed over
      cases d.property e.1 with
      | none => exact hes k c hk
      | some s => exact hes k c hk
    | some found =>
      obtain ⟨j, s⟩ := found
      obtain ⟨hj, hs⟩ := h.creator_eq_some_iff.mp hcreator
      have hne : d.slotOf j ≠ d.slotOf k := by
        intro hslot
        cases hapart j (List.getElem?_eq_some_iff.mp hj).1 k hlt hslot
        rw [hk] at hj
        cases hj
        exact hname hs.symm
      rw [← hes k c hk]
      exact Pending.getElem?_argument_of_ne hne _

theorem Pending.Fits.keepEntry {p : Pending σ} (hp : p.Fits d) (e : String × Json) :
    (d.keepEntry r e p).Fits d := by
  rw [Deserializer.keepEntry]
  cases d.creator e.1 with
  | some found => exact hp.argument _ _
  | none =>
    cases d.property e.1 with
    | none => exact hp
    | some s => exact hp.buffer s _

/-- **Whatever entries are collected, each creator has its own last value.** -/
theorem Indexed.delivers_collectEntries (h : d.Indexed) (hapart : d.SlotsApart) {es : List Entry}
    {p : Pending σ} (hcollect : d.collectEntries r ending es d.pending = .ok p) :
    d.Delivers r (es.filterMap pair?) p := by
  obtain ⟨rfl, hpairs⟩ := exists_pairs_of_collectEntries hcollect
  rw [← map_pairs hpairs] at hcollect
  obtain ⟨-, rfl⟩ := collectEntries_eq_ok_iff.mp hcollect
  -- the last entry is taken off, so that what comes before it is what was collected before it
  have hall : ∀ xs : List (String × Json),
      let q := xs.foldl (fun p e => d.keepEntry r e p) d.pending
      q.Fits d ∧ d.Delivers r xs q := by
    intro xs
    induction xs using List.reverseRecOn with
    | nil => exact ⟨fits_pending, h.delivers_pending⟩
    | append_singleton xs e ih =>
      obtain ⟨hfits, hdelivers⟩ := ih
      rw [List.foldl_append]
      exact ⟨hfits.keepEntry e, h.delivers_keepEntry hapart hfits hdelivers e⟩
  exact (hall _).2

/-- A list that is collected consists of values, for each of which there is an element. -/
theorem exists_values_of_collectItems {slots : List (Slot × Settable σ)} {items : List Item}
    {p q : Pending σ} (h : d.collectItems r ending slots items p = .ok q) :
    ending = none ∧ ∃ js : List Json, items = js.map .ok ∧ js.length ≤ slots.length := by
  induction slots generalizing items p with
  | nil =>
    obtain ⟨_, hend, -⟩ := bind_eq_ok_iff.mp h
    cases items with
    | nil => exact ⟨finish_eq_ok_iff.mp hend, [], rfl, Nat.le_refl _⟩
    | cons item items =>
      rw [checkSurplus] at hend
      split at hend
      · cases hend
      · cases hend
  | cons e slots ih =>
    cases items with
    | nil =>
      obtain ⟨_, hend, -⟩ := bind_eq_ok_iff.mp h
      exact ⟨finish_eq_ok_iff.mp hend, [], rfl, Nat.zero_le _⟩
    | cons item items =>
      obtain ⟨slot, s⟩ := e
      rw [collectItems] at h
      obtain ⟨value, hvalue, hcheck⟩ := bind_eq_ok_iff.mp h
      obtain ⟨_, -, hkept⟩ := bind_eq_ok_iff.mp hcheck
      have hrest : ∃ next, d.collectItems r ending slots items next = .ok q := by
        cases slot with
        | creator position => exact ⟨_, hkept⟩
        | property index => exact ⟨_, hkept⟩
      obtain ⟨next, hnext⟩ := hrest
      obtain ⟨hending, js, rfl, hlength⟩ := ih hnext
      cases item with
      | error cause => cases hvalue
      | ok j => exact ⟨hending, j :: js, rfl, Nat.succ_le_succ hlength⟩

/-- The same holds of a list, where values stand for the names of their places. -/
theorem Indexed.delivers_collectItems (h : d.Indexed) (hapart : d.SlotsApart) {items : List Item}
    {p : Pending σ} (hcollect : d.collectItems r ending d.elements items d.pending = .ok p) :
    ∃ js : List Json, items = js.map .ok ∧ d.Delivers r (d.elementNames.zip js) p := by
  obtain ⟨rfl, js, rfl, hlength⟩ := exists_values_of_collectItems hcollect
  have hentries := collectEntries_eq_collectItems (r := r) (fun e he => h.finds he) hlength
    d.pending
  rw [hcollect] at hentries
  have hdelivers := h.delivers_collectEntries hapart hentries
  rw [pairs_of_map] at hdelivers
  exact ⟨js, rfl, hdelivers⟩

end Deserializer

/--
**A creator owns its argument slot if creators declare their slots apart, and only then.**

In a built deserializer each creator has a slot among as many as there are creators. It does
not follow that no two creators have the same one. That is so exactly if no two declare one
index and none declares the position of one that declares nothing; exactly if the slots of
the creators are all slots in some order; exactly if every slot has a creator; and exactly
if no argument that is collected ever overwrites another one. Then, whatever entries or items
are collected, each creator finds in its slot the last value under its name. And it is so for
the creators that are made for the arguments of a constructor.
-/
theorem slots_owned_iff_declared_apart (draft : DeserializerDraft σ) {d : Deserializer σ}
    (hd : draft.build = .ok d) :
    let n := d.creators.length
    d.creators = draft.creators ∧ (∀ k < n, d.slotOf k < n) ∧
    (d.SlotsApart ↔ Settable.DeclareApart draft.creators) ∧
    (d.SlotsApart ↔ ((List.range n).map d.slotOf).Perm (List.range n)) ∧
    (d.SlotsApart ↔ ∀ slot < n, ∃ k < n, d.slotOf k = slot) ∧
    (d.SlotsApart ↔ ∀ j < n, ∀ k < n, j ≠ k → ∀ p, d.Collects p → ∀ value,
      (p.argument (d.slotOf k) value).arguments[d.slotOf j]? = p.arguments[d.slotOf j]?) ∧
    (d.SlotsApart → ∀ r ending p,
      (∀ es, d.collectEntries r ending es d.pending = .ok p →
        d.Delivers r (es.filterMap Deserializer.pair?) p) ∧
      (∀ items, d.collectItems r ending d.elements items d.pending = .ok p →
        ∃ js : List Json, items = js.map .ok ∧ d.Delivers r (d.elementNames.zip js) p)) ∧
    (∀ i : Introspection σ, i.WellFormed → draft.instantiator = .ofIntrospection i →
      d.SlotsApart) := by
  intro n
  obtain ⟨hkeeps, hindexed⟩ := DeserializerDraft.indexed_of_build hd
  refine ⟨hkeeps.creators, fun k => hindexed.slotOf_lt, ?_, ?_, hindexed.slotsApart_iff_surjective,
    hindexed.slotsApart_iff_kept, ?_, ?_⟩
  · rw [← hkeeps.creators]
    exact hindexed.slotsApart_iff_declareApart
  · rw [← hindexed.creatorSlots_eq]
    exact hindexed.slotsApart_iff_perm
  · intro hapart r ending p
    exact ⟨fun es => hindexed.delivers_collectEntries hapart,
      fun items => hindexed.delivers_collectItems hapart⟩
  · intro i hi hm
    exact hindexed.slotsApart_iff_nodup.mpr
      (DeserializerDraft.makesBy_of_build hd hi hm).nodup_creatorSlots

/-! ### Two sides that say which argument is theirs -/

namespace Pair

/-- A side, as a creator for the argument that it declares, or for the one at its position. -/
def claiming (index : Option Nat) (p : Property (Tree × Tree)) : Settable (Tree × Tree) :=
  { Settable.virtual p with kind := .creator, creatorIndex := index }

/-- The content of an argument; zero stands for one that is missing. -/
def content (values : List (Option Value)) (k : Nat) : Tree :=
  (values[k]?.join.map (·.tree)).getD (.int .i64 0)

/-- A draft for pairs of two arguments, which the two sides claim as they declare. -/
def claimedDraft (left right : Option Nat) : DeserializerDraft (Tree × Tree) where
  bean := type
  shape := .object
  failOnUnknown := true
  properties := []
  instantiator := {
    typeName := type.name
    makesEmpty := false
    makesFromValues := true
    make := .error (.noConstructor type.name)
    makeWith := fun values => .ok ⟨type, (content values 0, content values 1)⟩
    creators := [claiming left leftProperty, claiming right rightProperty] }

end Pair

/-- Sides that claim each other's arguments own their slots, so both values arrive. -/
theorem exchanged_slots_owned :
    ∃ d, (Pair.claimedDraft (some 1) (some 0)).build = .ok d ∧ d.SlotsApart ∧
      ((List.range 2).map d.slotOf).Perm (List.range 2) ∧
      d.create ⟨.start .streamed, .entries Pair.entries none⟩ = .ok (Pair.of 2 1) := by
  obtain ⟨d, hd⟩ : ∃ d, (Pair.claimedDraft (some 1) (some 0)).build = .ok d := ⟨_, rfl⟩
  obtain ⟨hcreators, -, -, hperm, hsurjective, -⟩ := slots_owned_iff_declared_apart _ hd
  have hlength : d.creators.length = 2 := by
    rw [hcreators]
    rfl
  rw [hlength] at hperm hsurjective
  have hapart : d.SlotsApart := by
    refine hsurjective.mpr ?_
    cases hd
    decide
  refine ⟨d, hd, hapart, hperm.mp hapart, ?_⟩
  cases hd
  rfl

/--
The left side declares the second argument, and the right side takes it because it is the
second. The draft is accepted, the first argument has no creator, and the left value is lost.
-/
theorem shared_slot_accepted :
    ∃ d, (Pair.claimedDraft (some 1) none).build = .ok d ∧ d.slotOf 0 = 1 ∧ d.slotOf 1 = 1 ∧
      ¬ d.SlotsApart ∧ ¬ ((List.range 2).map d.slotOf).Perm (List.range 2) ∧
      (∀ k < d.creators.length, d.slotOf k ≠ 0) ∧
      d.create ⟨.start .streamed, .entries Pair.entries none⟩ = .ok (Pair.of 0 2) := by
  refine ⟨_, rfl, rfl, rfl, ?_, by decide, by decide, rfl⟩
  intro hapart
  cases hapart 0 (by decide) 1 (by decide) rfl

end BeanBinding
