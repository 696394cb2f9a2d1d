import BeanBinding.Proofs.Declared

/-!
# Properties that are declared again

An introspection is declared by calls, one after the other. Its properties are kept in a
table by name, so a property whose name is taken is put in the place of the earlier one, and
a warning tells of it (`length_notes_declaredBy`). Its arguments are kept in a row: each goes
behind those before it and is given the number of its place.

What an introspection knows can therefore be read off the calls without making them
(`Introspection.Knows`):

* the names of its properties are the declared ones, in order of first declaration;
* the property of a name is the last one that was declared under it;
* its arguments are the declared ones, numbered from zero, whatever stands between them.
-/

namespace BeanBinding

variable {σ : Type}

namespace Introspection

/-! ## Calls -/

/-- A call that declares something about a type of beans. -/
inductive Call (σ : Type) where
  | property (p : Property σ)
  | argument (a : Argument)
  | fresh (state : σ)
  | constructor (c : Constructor σ)
  | annotations (annotations : Annotations)

namespace Call

/-- The introspection once the call has been made, with the warning that is due. -/
def perform (i : Introspection σ) : Call σ → Noted (Introspection σ)
  | property p => i.addProperty p
  | argument a => .plain (i.withArgument a)
  | fresh state => .plain (i.withFresh state)
  | constructor c => .plain (i.withConstructor c)
  | annotations as => .plain (i.withAnnotations as)

def property? : Call σ → Option (Property σ)
  | property p => some p
  | _ => none

def argument? : Call σ → Option Argument
  | argument a => some a
  | _ => none

/-- The properties that calls declare, in order. -/
def properties (calls : List (Call σ)) : List (Property σ) := calls.filterMap property?

/-- The arguments that calls declare, in order. -/
def arguments (calls : List (Call σ)) : List Argument := calls.filterMap argument?

end Call

variable {i : Introspection σ} {calls : List (Call σ)}

theorem Call.properties_concat (calls : List (Call σ)) (c : Call σ) :
    properties (calls ++ [c]) = properties calls ++ c.property?.toList :=
  filterMap_concat ..

theorem Call.properties_concat_of_none {c : Call σ} (hc : c.property? = none) :
    properties (calls ++ [c]) = properties calls := by
  rw [properties_concat, hc, Option.toList_none, List.append_nil]

theorem Call.arguments_concat (calls : List (Call σ)) (c : Call σ) :
    arguments (calls ++ [c]) = arguments calls ++ c.argument?.toList :=
  filterMap_concat ..

theorem Call.arguments_concat_of_none {c : Call σ} (hc : c.argument? = none) :
    arguments (calls ++ [c]) = arguments calls := by
  rw [arguments_concat, hc, Option.toList_none, List.append_nil]

/-- The introspection that calls declare, in their order, with the warnings on the way. -/
def declaredBy (type : BeanType) (calls : List (Call σ)) : Noted (Introspection σ) :=
  calls.foldl (fun declared c => declared.andThen fun i => c.perform i) (.plain (declare type))

theorem declaredBy_concat (type : BeanType) (calls : List (Call σ)) (c : Call σ) :
    declaredBy type (calls ++ [c]) = (declaredBy type calls).andThen fun i => c.perform i :=
  List.foldl_concat ..

/-- An introspection knows exactly what calls have declared. -/
structure Knows (i : Introspection σ) (calls : List (Call σ)) : Prop where
  /-- Names are in order of first declaration. -/
  propertyNames : i.propertyNames = ((Call.properties calls).map (·.name)).eraseDups
  /-- The last declaration of a name counts. -/
  property : ∀ name, i.property name =
    ((Call.properties calls).filter fun p => p.name = name).getLast?
  /-- Arguments are numbered in order of declaration. -/
  arguments : i.arguments = (Call.arguments calls).mapIdx fun k a => { a with index := k }

/-! ## One call -/

theorem propertyNames_withProperty (i : Introspection σ) (p : Property σ) :
    (i.withProperty p).propertyNames =
      if p.name ∈ i.propertyNames then i.propertyNames else i.propertyNames ++ [p.name] := by
  rw [propertyNames, withProperty, putProperty_eq]
  exact keys_changeEntry (fun _ => rfl) i.properties

theorem property_withProperty (i : Introspection σ) (p : Property σ) (name : String) :
    (i.withProperty p).property name = if name = p.name then some p else i.property name := by
  rw [property, withProperty, putProperty_eq]
  exact find?_changeEntry (fun _ => rfl) i.properties name

theorem property_eq_none_iff {name : String} :
    i.property name = none ↔ name ∉ i.propertyNames := by
  simp [property, propertyNames]

/-- A property that is added brings a new name, or else a warning. -/
theorem length_addProperty (i : Introspection σ) (p : Property σ) :
    (i.addProperty p).value.propertyNames.length + (i.addProperty p).notes.length =
      i.propertyNames.length + 1 := by
  rw [addProperty, propertyNames_withProperty, duplicateWarning]
  by_cases hp : p.name ∈ i.propertyNames
  · obtain ⟨q, hq⟩ := Option.ne_none_iff_exists'.mp fun h => property_eq_none_iff.mp h hp
    simp [hp, hq]
  · simp [hp, property_eq_none_iff.mpr hp]

theorem Knows.withProperty (h : i.Knows calls) (p : Property σ) :
    (i.withProperty p).Knows (calls ++ [.property p]) where
  propertyNames := by
    rw [propertyNames_withProperty, h.propertyNames, Call.properties_concat, List.map_append]
    exact (eraseDups_concat ..).symm
  property name := by
    rw [property_withProperty, h.property, Call.properties_concat, List.filter_append]
    by_cases hname : p.name = name
    · simp [Call.property?, hname]
    · simp [Call.property?, hname, Ne.symm hname]
  arguments := by
    rw [Call.arguments_concat_of_none rfl]
    exact h.arguments

theorem Knows.withArgument (h : i.Knows calls) (a : Argument) :
    (i.withArgument a).Knows (calls ++ [.argument a]) where
  propertyNames := by
    rw [Call.properties_concat_of_none rfl]
    exact h.propertyNames
  property := by
    rw [Call.properties_concat_of_none rfl]
    exact h.property
  arguments := by
    -- the number of the argument is how many there are already
    rw [Introspection.withArgument, h.arguments, Call.arguments_concat, List.mapIdx_append]
    simp [Call.argument?]

/-- A call that declares neither a property nor an argument leaves both as they are. -/
theorem Knows.concat (h : i.Knows calls) {j : Introspection σ} {c : Call σ}
    (hproperties : j.properties = i.properties) (harguments : j.arguments = i.arguments)
    (hp : c.property? = none) (ha : c.argument? = none) : j.Knows (calls ++ [c]) where
  propertyNames := by
    rw [Call.properties_concat_of_none hp, ← h.propertyNames, Introspection.propertyNames,
      hproperties, Introspection.propertyNames]
  property name := by
    rw [Call.properties_concat_of_none hp, ← h.property, Introspection.property, hproperties,
      Introspection.property]
  arguments := by
    rw [Call.arguments_concat_of_none ha, harguments, h.arguments]

/-- **A call adds what it declares to what is known.** -/
theorem Knows.perform (h : i.Knows calls) (c : Call σ) :
    (c.perform i).value.Knows (calls ++ [c]) := by
  cases c with
  | property p => exact h.withProperty p
  | argument a => exact h.withArgument a
  | fresh | constructor | annotations => exact h.concat rfl rfl rfl rfl

/-! ## Calls in a row -/

theorem knows_declaredBy (type : BeanType) (calls : List (Call σ)) :
    (declaredBy type calls).value.Knows calls := by
  induction calls using List.reverseRecOn with
  | nil => exact ⟨rfl, fun _ => rfl, rfl⟩
  | append_singleton calls c ih =>
    rw [declaredBy_concat]
    exact ih.perform c

/-- Each property that is declared brings a new name, or else a warning. -/
theorem length_notes_declaredBy (type : BeanType) (calls : List (Call σ)) :
    (declaredBy type calls).value.propertyNames.length + (declaredBy type calls).notes.length =
      (Call.properties calls).length := by
  induction calls using List.reverseRecOn with
  | nil => rfl
  | append_singleton calls c ih =>
    rw [Call.properties_concat, List.length_append, ← ih, declaredBy_concat]
    show (c.perform _).value.propertyNames.length + (_ ++ (c.perform _).notes).length = _
    rw [List.length_append]
    cases c with
    | property p =>
      have hadd := length_addProperty (declaredBy type calls).value p
      simp only [Call.perform, Call.property?, Option.toList_some, List.length_singleton]
      omega
    | _ => rfl

/-- Whatever the calls, it is declarations that make the introspection. -/
theorem declared_declaredBy (type : BeanType) (calls : List (Call σ)) :
    (declaredBy type calls).value.Declared := by
  induction calls using List.reverseRecOn with
  | nil => exact .declare type
  | append_singleton calls c ih =>
    rw [declaredBy_concat]
    cases c with
    | property p => exact ih.withProperty p
    | argument a => exact ih.withArgument a
    | fresh state => exact ih.withFresh state
    | constructor c => exact ih.withConstructor c
    | annotations as => exact ih.withAnnotations as

end Introspection

/--
**A later declaration takes the place of an earlier one.**

Let calls, in any order and number, declare an introspection. Its properties have distinct
names, which are the declared ones in order of first declaration, and the property of a name
is the last one declared under it, or none if there is none. The arguments are all that were
declared, in order, each with the number of its place, whatever was declared between them.
-/
theorem later_declarations_replace (type : BeanType) (calls : List (Introspection.Call σ)) :
    let i := (Introspection.declaredBy type calls).value
    i.propertyNames.Nodup ∧
      i.propertyNames = ((Introspection.Call.properties calls).map (·.name)).eraseDups ∧
      (∀ name, i.property name =
        ((Introspection.Call.properties calls).filter fun p => p.name = name).getLast?) ∧
      ∀ k, i.arguments[k]? =
        (Introspection.Call.arguments calls)[k]?.map fun a : Argument => { a with index := k } := by
  intro i
  have hknows : i.Knows calls := Introspection.knows_declaredBy type calls
  refine ⟨(Introspection.declared_declaredBy type calls).wellFormed.propertyNames,
    hknows.propertyNames, hknows.property, fun k => ?_⟩
  rw [hknows.arguments, List.getElem?_mapIdx]

example :
    let text : ValueType := ⟨"text", .text⟩
    let calls : List (Introspection.Call Unit) :=
      [.property (.declare ⟨"Person"⟩ "name" text), .argument (.declare "name" text),
        .property (.declare ⟨"Person"⟩ "town" text), .argument (.declare "town" text),
        .property ((Property.declare ⟨"Person"⟩ "name" text).withNullable true)]
    let i := (Introspection.declaredBy ⟨"Person"⟩ calls).value
    i.propertyNames = ["name", "town"] ∧ (i.property "name").map (·.nullable) = some true ∧
      i.arguments.map (·.index) = [0, 1] := by
  decide

end BeanBinding
