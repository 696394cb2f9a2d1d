import BeanBinding.Binding.Module
import BeanBinding.Proofs.Accessors
import BeanBinding.Proofs.Declared

/-!
# Which property a name in documents means

Both binders look a name up among the introspected properties, by different rules. A
writer goes to the first property that *declares* the name for documents, and only then
to the property of that own name. A settable property goes to the property of that own
name at once.

So the two can only part at a name that one property declares and another one bears.
`bound_properties_agree_iff` says that they part exactly there, and which property each
of them then takes.
-/

namespace BeanBinding

variable {σ : Type}

/-- The first property that declares a name for documents. -/
def Introspection.declaring (i : Introspection σ) (name : String) : Option (Property σ) :=
  i.properties.find? fun p => p.annotations.declaredName = some name

namespace SerializationBinder

/-- The table of declared names answers with what it held before, or with the first property. -/
theorem lookup_declaredNames (ps : List (Property σ)) (table : List (String × Property σ))
    (name : String) :
    (declaredNames ps table).lookup name =
      (table.lookup name <|> ps.find? fun p => p.annotations.declaredName = some name) := by
  induction ps generalizing table with
  | nil => simp [declaredNames]
  | cons p ps ih =>
    rw [declaredNames]
    cases hd : p.annotations.declaredName with
    | none => simp [ih, hd]
    | some declared =>
      dsimp only
      by_cases he : declared = name
      · -- only the first declaration of the name enters the table
        subst he
        cases hl : table.lookup declared with
        | some q => simp [ih, hl]
        | none => simp [ih, hl, hd, List.lookup_append]
      · have hne : (name == declared) = false := beq_eq_false_iff_ne.mpr fun h => he h.symm
        split
        · simp [ih, hd, he]
        · simp [ih, hd, he, List.lookup_append, List.lookup_cons, hne]

/-- A name means the first property that declares it, or else the one that bears it. -/
theorem match?_eq (i : Introspection σ) (name : String) :
    match? i name = (i.declaring name <|> i.property name) := by
  rw [match?, lookup_declaredNames]
  rfl

/-- The property that a writer is bound to. -/
def target (i : Introspection σ) (w : Writer σ) : Option (Property σ) :=
  (match? i w.name).filter (·.isReadable)

theorem bind_of_target {i : Introspection σ} {w : Writer σ} {p : Property σ}
    (h : target i w = some p) : bind i w = w.rebind p.valueType (.introspected p) := by
  rw [target] at h
  rw [bind, h]

theorem bind_of_target_none {i : Introspection σ} {w : Writer σ} (h : target i w = none) :
    bind i w = w := by
  rw [target] at h
  rw [bind, h]

/-- A writer with a target is in the adjusted draft, bound to it. -/
theorem rebind_mem_adjust {b : SerializationBinder} {i : Introspection σ} {ws : List (Writer σ)}
    {w : Writer σ} (hw : w ∈ ws) {p : Property σ} (h : target i w = some p) :
    w.rebind p.valueType (.introspected p) ∈ b.adjust i ws := by
  have hne : ws.isEmpty = false := by
    cases ws with
    | nil => cases hw
    | cons => rfl
  simp only [adjust, synthesizes, hne, Bool.false_and, Bool.false_eq_true, if_false]
  exact List.mem_map.mpr ⟨w, hw, bind_of_target h⟩

end SerializationBinder

namespace DeserializationBinder

/-- The property that a settable property is bound to. -/
def target (i : Introspection σ) (s : Settable σ) : Option (Property σ) :=
  if s.kind = .method then i.property s.name else none

theorem bind_of_target {i : Introspection σ} {s : Settable σ} {p : Property σ}
    (h : target i s = some p) : bind i s = s.through p := by
  rw [target] at h
  split at h
  · rename_i hk
    rw [bind, if_neg (not_not.mpr hk), h]
  · cases h

theorem bind_of_target_none {i : Introspection σ} {s : Settable σ} (h : target i s = none) :
    bind i s = s := by
  rw [target] at h
  rw [bind]
  split at h
  · rename_i hk
    rw [if_neg (not_not.mpr hk), h]
  · rename_i hk
    rw [if_pos hk]

/-- A settable property with a target is in the adjusted draft, bound to it. -/
theorem through_mem_adjust {i : Introspection σ} {ss : List (Settable σ)} {s : Settable σ}
    (hs : s ∈ ss) {p : Property σ} (h : target i s = some p) : s.through p ∈ adjust i ss := by
  have hne : ss.isEmpty = false := by
    cases ss with
    | nil => cases hs
    | cons => rfl
  simp only [adjust, hne, Bool.false_and, Bool.false_eq_true, if_false]
  exact List.mem_map.mpr ⟨s, hs, bind_of_target h⟩

end DeserializationBinder

/-! ## Where the binders agree -/

/-- What a name means to writers, if it is also the own name of a property. -/
theorem match?_eq_getD {i : Introspection σ} {name : String} {p q : Property σ}
    (hp : SerializationBinder.match? i name = some p) (hq : i.property name = some q) :
    p = (i.declaring name).getD q := by
  rw [SerializationBinder.match?_eq, hq] at hp
  cases hd : i.declaring name with
  | none => rw [hd] at hp; exact (Option.some.inj hp).symm
  | some r => rw [hd] at hp; exact (Option.some.inj hp).symm

/--
**The binders agree on a name unless another property declares it.**

Take a writer and a settable property of one name from the drafts of a description, both
bound to introspected properties. The settable property is set through the property that
bears the name; the writer reads the first one that declares it, if there is any. They
are the same property exactly if no property of another name is the first to declare it.
-/
theorem bound_properties_agree_iff {i : Introspection σ} (hi : i.WellFormed)
    {d : Description σ} {config : Config} {w : Writer σ} {s : Settable σ}
    (hw : w ∈ (SerializerDraft.ofDescription d config).writers)
    (hs : s ∈ (DeserializerDraft.ofDescription d config).properties) (hname : w.name = s.name)
    {p q : Property σ} (hp : SerializationBinder.target i w = some p)
    (hq : DeserializationBinder.target i s = some q) :
    w.rebind p.valueType (.introspected p) ∈ (SerializationBinder.ofConfig config).adjust i
        (SerializerDraft.ofDescription d config).writers ∧
      s.through q ∈ DeserializationBinder.adjust i
        (DeserializerDraft.ofDescription d config).properties ∧
      p = (i.declaring s.name).getD q ∧
      (p = q ↔ ∀ r, i.declaring s.name = some r → r.name = s.name) := by
  have hmatch : SerializationBinder.match? i s.name = some p := by
    rw [SerializationBinder.target, hname] at hp
    exact (Option.filter_eq_some_iff.mp hp).1
  have hbears : i.property s.name = some q := by
    rw [DeserializationBinder.target] at hq
    split at hq
    · exact hq
    · cases hq
  have hpq : p = (i.declaring s.name).getD q := match?_eq_getD hmatch hbears
  obtain ⟨hqmem, hqname⟩ := Introspection.property_mem hbears
  refine ⟨SerializationBinder.rebind_mem_adjust hw hp,
    DeserializationBinder.through_mem_adjust hs hq, hpq, ?_⟩
  constructor
  · intro he r hr
    rw [hr, Option.getD_some] at hpq
    rw [← hpq, he]
    exact hqname
  · intro h
    cases hd : i.declaring s.name with
    | none => rw [hpq, hd, Option.getD_none]
    | some r =>
      have hr : r ∈ i.properties := List.mem_of_find?_eq_some hd
      rw [hpq, hd, Option.getD_some]
      exact hi.property_unique hr hqmem ((h r hd).trans hqname.symm)

/-! ### Pairs, with straight and with crossed names -/

namespace Pair

/-- The annotations that declare a name for documents. -/
def declaring (name : String) : Annotations :=
  Annotations.empty.set Annotations.Kind.property Annotations.Attribute.value (.text name)

/-- A pair of which one side declares a name for documents, and the other does not. -/
def introspection (declared : String) : Introspection (Tree × Tree) :=
  ((Introspection.declare type).withProperty (leftProperty (declaring declared))).withProperty
    rightProperty

theorem introspection_declared (declared : String) : (introspection declared).Declared :=
  ((Introspection.Declared.declare type).withProperty _).withProperty _

/-- The description of a pair that knows the right side only. -/
def rightOnly : Description (Tree × Tree) :=
  ⟨type, [.declare .method rightProperty], some (of 0 0).state, none⟩

/-- What writes the right side. -/
def rightWriter : Writer (Tree × Tree) :=
  SerializerDraft.writerOf .default (.declare .method rightProperty)

/-- What sets the right side. -/
def rightSettable : Settable (Tree × Tree) :=
  ⟨"right", number, .optional, .method, .empty, none, number.decoder, rightProperty.write⟩

theorem rightWriter_mem :
    rightWriter ∈ (SerializerDraft.ofDescription rightOnly .default).writers := by
  have h : (SerializerDraft.ofDescription rightOnly .default).writers = [rightWriter] :=
    List.mergeSort_singleton _
  rw [h]
  exact List.mem_singleton.mpr rfl

theorem rightSettable_mem :
    rightSettable ∈ (DeserializerDraft.ofDescription rightOnly .default).properties := by
  have h : (DeserializerDraft.ofDescription rightOnly .default).properties = [rightSettable] := rfl
  rw [h]
  exact List.mem_singleton.mpr rfl

end Pair

/-- If the left side goes by a name of its own, both binders find the right side. -/
theorem bound_properties_agree_apart :
    let i := Pair.introspection "first"
    Pair.rightWriter.rebind Pair.number (.introspected Pair.rightProperty) ∈
        (SerializationBinder.ofConfig .default).adjust i
          (SerializerDraft.ofDescription Pair.rightOnly .default).writers ∧
      Pair.rightSettable.through Pair.rightProperty ∈ DeserializationBinder.adjust i
        (DeserializerDraft.ofDescription Pair.rightOnly .default).properties ∧
      ∀ r, i.declaring "right" = some r → r.name = "right" := by
  intro i
  obtain ⟨hwriter, hsettable, -, hiff⟩ := bound_properties_agree_iff (i := i)
    (Pair.introspection_declared "first").wellFormed Pair.rightWriter_mem Pair.rightSettable_mem
    rfl (p := Pair.rightProperty) (q := Pair.rightProperty) rfl rfl
  exact ⟨hwriter, hsettable, hiff.mp rfl⟩

/-- If the left side declares the name of the right side, it is read and the right side is set. -/
theorem bound_properties_differ_crossed :
    ∃ p q, Pair.rightWriter ∈ (SerializerDraft.ofDescription Pair.rightOnly .default).writers ∧
      Pair.rightSettable ∈ (DeserializerDraft.ofDescription Pair.rightOnly .default).properties ∧
      Pair.rightWriter.name = Pair.rightSettable.name ∧
      SerializationBinder.target (Pair.introspection "right") Pair.rightWriter = some p ∧
      DeserializationBinder.target (Pair.introspection "right") Pair.rightSettable = some q ∧
      p ≠ q := by
  refine ⟨Pair.leftProperty (Pair.declaring "right"), Pair.rightProperty, Pair.rightWriter_mem,
    Pair.rightSettable_mem, rfl, rfl, rfl, ?_⟩
  intro he
  have hname : "left" = "right" := congrArg Property.name he
  exact absurd hname (by decide)

end BeanBinding
