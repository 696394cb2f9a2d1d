import BeanBinding.Introspection
import BeanBinding.Proofs.InPlace

/-!
# What declaring an introspection establishes

A property is declared by calls in a row, each of which may replace what an earlier one has
put there (`Property.declaredBy`).

An introspection is only ever made by declarations, one after the other. Two facts
hold after each of them and are all that binding relies on: no two properties share a
name, and each argument knows its place. `WellFormed` is their conjunction,
`Declared` the introspections that declarations can make.
-/

namespace BeanBinding

variable {σ : Type}

namespace Property

/-- A call that declares something about a property. -/
inductive Call (σ : Type) where
  | getter (get : σ → Tree) (source : Source)
  | getterOpt (get : σ → Option Tree) (source : Source)
  | getterOwned (get : σ → Tree)
  | setter (set : σ → Tree → σ)
  | setterOpt (set : σ → Option Tree → σ)
  | trySetter (set : Tree → EStateM AccessError σ Unit)
  | nullable (nullable : Bool)
  | annotations (annotations : Annotations)

/-- The property once the call has been made. -/
def Call.apply (p : Property σ) : Call σ → Property σ
  | getter get source => p.getter get source
  | getterOpt get source => p.getterOpt get source
  | getterOwned get => p.getterOwned get
  | setter set => p.setter set
  | setterOpt set => p.setterOpt set
  | trySetter set => p.trySetter set
  | nullable b => p.withNullable b
  | annotations as => p.withAnnotations as

/-- The property that calls declare, in their order. -/
def declaredBy (owner : BeanType) (name : String) (type : ValueType) (calls : List (Call σ)) :
    Property σ :=
  calls.foldl Call.apply (declare owner name type)

theorem declaredBy_concat (owner : BeanType) (name : String) (type : ValueType)
    (calls : List (Call σ)) (c : Call σ) :
    declaredBy owner name type (calls ++ [c]) = c.apply (declaredBy owner name type calls) :=
  List.foldl_concat ..

end Property

/-- The name of an argument in documents. -/
def Argument.externalName (a : Argument) : String := a.annotations.externalName a.name

namespace Introspection

/-- An introspection that some sequence of declarations makes. -/
inductive Declared : Introspection σ → Prop where
  | declare (type : BeanType) : Declared (declare type)
  | withProperty {i : Introspection σ} (h : Declared i) (p : Property σ) :
      Declared (i.withProperty p)
  | withArgument {i : Introspection σ} (h : Declared i) (a : Argument) :
      Declared (i.withArgument a)
  | withFresh {i : Introspection σ} (h : Declared i) (state : σ) : Declared (i.withFresh state)
  | withConstructor {i : Introspection σ} (h : Declared i) (c : Constructor σ) :
      Declared (i.withConstructor c)
  | withAnnotations {i : Introspection σ} (h : Declared i) (as : Annotations) :
      Declared (i.withAnnotations as)

/-- Names are unique and arguments know their places. -/
structure WellFormed (i : Introspection σ) : Prop where
  /-- No two properties share a name of their own. -/
  propertyNames : (i.properties.map (·.name)).Nodup
  /-- An argument carries its position. -/
  argumentIndex : ∀ (k : Nat) (a : Argument), i.arguments[k]? = some a → a.index = k

/-- Properties are kept in a table by name, and a later one is put in for an earlier one. -/
theorem putProperty_eq (p : Property σ) (ps : List (Property σ)) :
    putProperty p ps = changeEntry (·.name) p.name (fun _ => p) ps := by
  induction ps with
  | nil => rfl
  | cons q ps ih => rw [putProperty, changeEntry, ih]

theorem wellFormed_declare (type : BeanType) : (declare type : Introspection σ).WellFormed where
  propertyNames := List.nodup_nil
  argumentIndex := by intro k a h; simp [declare] at h

theorem wellFormed_withProperty {i : Introspection σ} (h : i.WellFormed) (p : Property σ) :
    (i.withProperty p).WellFormed where
  propertyNames := by
    rw [withProperty, putProperty_eq]
    exact nodup_changeEntry (fun _ => rfl) h.propertyNames
  argumentIndex := h.argumentIndex

theorem wellFormed_withArgument {i : Introspection σ} (h : i.WellFormed) (a : Argument) :
    (i.withArgument a).WellFormed where
  propertyNames := h.propertyNames
  argumentIndex := by
    intro k b hb
    simp only [withArgument, List.getElem?_append] at hb
    split at hb
    · exact h.argumentIndex k b hb
    · -- the new argument gets the number of those before it
      rename_i hk
      rw [List.getElem?_singleton] at hb
      split at hb
      · cases hb
        show i.arguments.length = k
        omega
      · cases hb

/-- **Every declared introspection is well formed.** -/
theorem Declared.wellFormed {i : Introspection σ} (h : i.Declared) : i.WellFormed := by
  induction h with
  | declare type => exact wellFormed_declare type
  | withProperty _ p ih => exact wellFormed_withProperty ih p
  | withArgument _ a ih => exact wellFormed_withArgument ih a
  | withFresh _ _ ih => exact ⟨ih.propertyNames, ih.argumentIndex⟩
  | withConstructor _ _ ih => exact ⟨ih.propertyNames, ih.argumentIndex⟩
  | withAnnotations _ _ ih => exact ⟨ih.propertyNames, ih.argumentIndex⟩

/-! ## Finding properties by their own names -/

/-- Two properties of one name are one property. -/
theorem WellFormed.property_unique {i : Introspection σ} (h : i.WellFormed) {p q : Property σ}
    (hp : p ∈ i.properties) (hq : q ∈ i.properties) (hn : p.name = q.name) : p = q :=
  List.inj_on_of_nodup_map h.propertyNames hp hq hn

theorem property_mem {i : Introspection σ} {name : String} {p : Property σ}
    (h : i.property name = some p) : p ∈ i.properties ∧ p.name = name := by
  have hname := List.find?_some h
  exact ⟨List.mem_of_find?_eq_some h, by simpa using hname⟩

end Introspection

end BeanBinding
