import BeanBinding.Proofs.Matching
import Mathlib.Data.Option.Basic

/-!
# What adjusting does to each writer

A name means at most one property of an introspection. It is the first property that declares
the name for documents; only if none declares it, the property whose own name it is. Whether
that property can be read plays no part in the choice. It decides afterwards whether the
writer is bound, so a write-only property that declares a name leaves its writer alone and
hides a readable property of that own name.

A bound writer takes over the type of its property and reads through it. Everything else
stays, and a writer that is not bound is the same writer.
-/

namespace BeanBinding

variable {σ : Type}

/-- A property says which name it goes by in documents; a blank name says nothing. -/
def Property.Declares (p : Property σ) (name : String) : Prop :=
  p.annotations.text? Annotations.Kind.property Annotations.Attribute.value = some name ∧ name ≠ ""

theorem Property.declaredName_eq_some_iff {p : Property σ} {name : String} :
    p.annotations.declaredName = some name ↔ p.Declares name := by
  rw [Annotations.declaredName, Option.filter_eq_some_iff, Declares, decide_eq_true_eq]

namespace Introspection

variable {i : Introspection σ} {name : String} {p q : Property σ}

/-! ## What a name means -/

/-- The property that a name in documents means to the writers. -/
inductive Means (i : Introspection σ) (name : String) : Property σ → Prop where
  /-- The first property that declares the name. -/
  | declared {p : Property σ} (before after : List (Property σ))
      (hsplit : i.properties = before ++ p :: after) (hdeclares : p.Declares name)
      (hfirst : ∀ q ∈ before, ¬ q.Declares name) : Means i name p
  /-- The property of that own name, if no property declares the name. -/
  | own {p : Property σ} (hmem : p ∈ i.properties) (hname : p.name = name)
      (hnone : ∀ q ∈ i.properties, ¬ q.Declares name) : Means i name p

/-- The first property that declares a name is found among those that declare it. -/
theorem declaring_eq_some_iff : i.declaring name = some p ↔
    p.Declares name ∧ ∃ before after, i.properties = before ++ p :: after ∧
      ∀ q ∈ before, ¬ q.Declares name := by
  simp only [declaring, List.find?_eq_some_iff_append, decide_eq_true_eq, Bool.not_eq_true',
    decide_eq_false_iff_not, Property.declaredName_eq_some_iff]

theorem declaring_eq_none_iff :
    i.declaring name = none ↔ ∀ q ∈ i.properties, ¬ q.Declares name := by
  simp only [declaring, List.find?_eq_none, decide_eq_true_eq, Property.declaredName_eq_some_iff]

theorem WellFormed.property_eq_some_iff (hi : i.WellFormed) :
    i.property name = some p ↔ p ∈ i.properties ∧ p.name = name := by
  constructor
  · exact property_mem
  · rintro ⟨hmem, hname⟩
    cases hq : i.property name with
    | none =>
      have hno := List.find?_eq_none.mp hq p hmem
      exact absurd (decide_eq_true hname) hno
    | some q =>
      obtain ⟨hqmem, hqname⟩ := property_mem hq
      rw [hi.property_unique hqmem hmem (hqname.trans hname.symm)]

/-- **The search of the binder finds what the name means.** -/
theorem WellFormed.match?_eq_some_iff (hi : i.WellFormed) :
    SerializationBinder.match? i name = some p ↔ i.Means name p := by
  rw [SerializationBinder.match?_eq, Option.orElse_eq_some, declaring_eq_some_iff,
    declaring_eq_none_iff, hi.property_eq_some_iff]
  constructor
  · rintro (⟨hdeclares, before, after, hsplit, hfirst⟩ | ⟨hnone, hmem, hname⟩)
    · exact .declared before after hsplit hdeclares hfirst
    · exact .own hmem hname hnone
  · rintro (⟨before, after, hsplit, hdeclares, hfirst⟩ | ⟨hmem, hname, hnone⟩)
    · exact .inl ⟨hdeclares, before, after, hsplit, hfirst⟩
    · exact .inr ⟨hnone, hmem, hname⟩

/-- A name means one property. -/
theorem WellFormed.means_unique (hi : i.WellFormed) (hp : i.Means name p) (hq : i.Means name q) :
    p = q := by
  have h := hi.match?_eq_some_iff.mpr hp
  rw [hi.match?_eq_some_iff.mpr hq] at h
  exact (Option.some.inj h).symm

/-! ## What becomes of a writer -/

/-- A writer as it was, and as it is once it has been matched with the properties. -/
structure Matches (i : Introspection σ) (w w' : Writer σ) : Prop where
  name : w'.name = w.name
  metadata : w'.metadata = w.metadata
  serializer : w'.serializer = w.serializer
  nullSerializer : w'.nullSerializer = w.nullSerializer
  suppressNulls : w'.suppressNulls = w.suppressNulls
  suppression : w'.suppression = w.suppression
  selfReference : w'.selfReference = w.selfReference
  /-- It reads through the property that its name means. -/
  bound : ∀ p, i.Means w.name p → p.isReadable = true →
    w'.valueType = p.valueType ∧ w'.accessor = .introspected p
  /-- Without such a property that can be read, nothing has happened to it. -/
  unchanged : (∀ p, i.Means w.name p → p.isReadable = false) → w' = w

theorem WellFormed.matches_bind (hi : i.WellFormed) (w : Writer σ) :
    i.Matches w (SerializationBinder.bind i w) := by
  cases ht : SerializationBinder.target i w with
  | none =>
    rw [SerializationBinder.bind_of_target_none ht]
    refine ⟨rfl, rfl, rfl, rfl, rfl, rfl, rfl, ?_, fun _ => rfl⟩
    intro p hp hreadable
    rw [SerializationBinder.target, hi.match?_eq_some_iff.mpr hp, Option.filter_some,
      if_pos hreadable] at ht
    cases ht
  | some q =>
    rw [SerializationBinder.bind_of_target ht]
    rw [SerializationBinder.target, Option.filter_eq_some_iff] at ht
    have hq : i.Means w.name q := hi.match?_eq_some_iff.mp ht.1
    refine ⟨rfl, rfl, rfl, rfl, rfl, rfl, rfl, ?_, ?_⟩
    · intro p hp _
      rw [hi.means_unique hp hq]
      exact ⟨rfl, rfl⟩
    · intro hnone
      rw [hnone q hq] at ht
      cases ht.2

end Introspection

/--
**Adjusting matches each writer with the property that its name means, and changes nothing else.**

A draft that has writers keeps their number and their order. A name means one property at
most: the first that declares it, or the one that bears it if none declares it. A writer whose
property can be read takes over its type and reads through it; its name, metadata,
serializers, and its rules on nulls, suppression and self-references stay. Every other writer
is left as it was.
-/
theorem adjusted_writers_match {i : Introspection σ} (hi : i.Declared) (b : SerializationBinder)
    {ws : List (Writer σ)} (hws : ws ≠ []) :
    (∀ name p q, i.Means name p → i.Means name q → p = q) ∧
      List.Forall₂ i.Matches ws (b.adjust i ws) := by
  refine ⟨fun name p q hp hq => hi.wellFormed.means_unique hp hq, ?_⟩
  have hsynthesizes : SerializationBinder.synthesizes i ws = false := by
    rw [SerializationBinder.synthesizes, List.isEmpty_eq_false_iff.mpr hws, Bool.false_and]
  rw [SerializationBinder.adjust, hsynthesizes, if_neg Bool.false_ne_true,
    List.forall₂_map_right_iff, List.forall₂_same]
  exact fun w _ => hi.wellFormed.matches_bind w

/-! ### Pairs of which a side cannot be read -/

namespace Pair

/-- The right side under the name of the left one, to be written only. -/
def hiddenRight : Property (Tree × Tree) :=
  { rightProperty (declaring "left") with name := "hidden", reader := none }

/-- The left side declares the name of the right one, and what declares its own is hidden. -/
def crossed : Introspection (Tree × Tree) := (introspection "right").withProperty hiddenRight

/-- What writes the left side. -/
def leftWriter : Writer (Tree × Tree) :=
  SerializerDraft.writerOf .default (.declare .method leftProperty)

theorem crossed_declared : crossed.Declared := (introspection_declared "right").withProperty _

theorem crossed_means_right : crossed.Means "right" (leftProperty (declaring "right")) :=
  .declared [] [rightProperty, hiddenRight] rfl ⟨rfl, by decide⟩ (by simp)

theorem crossed_means_left : crossed.Means "left" hiddenRight := by
  refine .declared [leftProperty (declaring "right"), rightProperty] [] rfl ⟨rfl, by decide⟩ ?_
  intro q hq
  simp only [List.mem_cons, List.not_mem_nil, or_false] at hq
  obtain rfl | rfl := hq
  · exact fun h => absurd h.1 (by decide)
  · exact fun h => absurd h.1 (by decide)

end Pair

/-- The right writer reads the left side; the left one finds what is hidden, and stays. -/
theorem crossed_writers_adjusted :
    Pair.crossed.Declared ∧ [Pair.rightWriter, Pair.leftWriter] ≠ [] ∧
      ∃ w, (SerializationBinder.ofConfig .default).adjust Pair.crossed
          [Pair.rightWriter, Pair.leftWriter] = [w, Pair.leftWriter] ∧
        w.name = "right" ∧
        w.accessor = .introspected (Pair.leftProperty (Pair.declaring "right")) := by
  have hws : [Pair.rightWriter, Pair.leftWriter] ≠ [] := List.cons_ne_nil _ _
  refine ⟨Pair.crossed_declared, hws, ?_⟩
  obtain ⟨hunique, hmatches⟩ :=
    adjusted_writers_match Pair.crossed_declared (SerializationBinder.ofConfig .default) hws
  obtain ⟨w, rest, hw, hrest, hadjust⟩ := List.forall₂_cons_left_iff.mp hmatches
  obtain ⟨w', rest', hw', hnil, rfl⟩ := List.forall₂_cons_left_iff.mp hrest
  rw [List.forall₂_nil_left_iff] at hnil
  subst hnil
  have hstays : w' = Pair.leftWriter := hw'.unchanged fun p hp => by
    rw [hunique _ p _ hp Pair.crossed_means_left]
    rfl
  rw [hstays] at hadjust
  exact ⟨w, hadjust, hw.name, (hw.bound _ Pair.crossed_means_right rfl).2⟩

end BeanBinding
