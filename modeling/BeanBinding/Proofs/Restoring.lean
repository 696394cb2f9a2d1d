import BeanBinding.Proofs.Collecting

/-!
# Reading entries that carry the values of a bean

Suppose that each entry of a document carries, under the name of a property, the value
that this property has on some bean `b`. A deserializer made from an introspection then
takes one of two paths. Without creators it sets each property as its entry comes. With
creators it puts values into argument slots, buffers the others, and sets them once the
bean has been made.

On both paths the values end up as *assignments* of properties to their values on `b`,
and on the second path what has been collected depends on the names that came by, not on
their order: `collected` is the state after a list of names. Assignments give properties
their values on `b` and leave the others alone, so that all properties agree with it at
the end which were assigned or agreed before.
-/

namespace BeanBinding

variable {σ : Type}

/-! ## Names and values -/

namespace Introspection

/-- The property of a name in documents. -/
def named (i : Introspection σ) (name : String) : Option (Property σ) :=
  i.properties.find? fun p => p.externalName = name

/-- The value on a bean of the property of a name; null if there is no such property. -/
def valueOf (i : Introspection σ) (b : Bean σ) (name : String) : Option Value :=
  (i.named name).bind fun p => (p.value b).toOption.join

variable {i : Introspection σ} {b : Bean σ} {r : Position}

theorem named_mem {name : String} {p : Property σ} (h : i.named name = some p) :
    p ∈ i.properties ∧ p.externalName = name := by
  have hname := List.find?_some h
  exact ⟨List.mem_of_find?_eq_some h, by simpa using hname⟩

/-- If no name is shared, a property is found under its own. -/
theorem named_externalName (h : (i.properties.map (·.externalName)).Nodup) {p : Property σ}
    (hp : p ∈ i.properties) : i.named p.externalName = some p := by
  obtain ⟨q, hq⟩ : ∃ q, i.named p.externalName = some q := by
    refine Option.isSome_iff_exists.mp (List.find?_isSome.mpr ⟨p, hp, ?_⟩)
    simp
  obtain ⟨hqm, hname⟩ := named_mem hq
  rw [hq, List.inj_on_of_nodup_map h hqm hp hname]

/-- The properties of some names, with the values that they have on a bean. -/
def assignments (i : Introspection σ) (b : Bean σ) (names : List String) :
    List (Settable σ × Option Value) :=
  names.filterMap fun name => (i.named name).map fun p => (.virtual p, i.valueOf b name)

theorem assignments_cons {name : String} {p : Property σ} (h : i.named name = some p)
    (names : List String) :
    i.assignments b (name :: names) = (.virtual p, i.valueOf b name) :: i.assignments b names := by
  rw [assignments, List.filterMap_cons_some (by rw [h]; rfl)]
  rfl

/--
What stands under a name is decoded as the value that the property of the name has on a bean,
which is null if the property cannot be read.
-/
structure Delivers (i : Introspection σ) (r : Position) (b : Bean σ) (e : String × Json)
    (p : Property σ) : Prop where
  named : i.named e.1 = some p
  decodes : p.valueType.decode r e.2 = .ok (i.valueOf b e.1)
  readWhole : p.valueType.decoder.leavesRest r.mode e.2 = false

/-- An entry carries the value that the property of its name has on a bean. -/
structure Carries (i : Introspection σ) (r : Position) (b : Bean σ) (e : String × Json)
    (p : Property σ) : Prop where
  named : i.named e.1 = some p
  value : p.value b = .ok (i.valueOf b e.1)
  decodes : p.valueType.decode r e.2 = .ok (i.valueOf b e.1)
  readWhole : p.valueType.decoder.leavesRest r.mode e.2 = false

theorem Carries.delivers {e : String × Json} {p : Property σ} (h : i.Carries r b e p) :
    i.Delivers r b e p :=
  ⟨h.named, h.decodes, h.readWhole⟩

/--
Writing into a property what it is on `b` succeeds, reads back the same, and changes no
other property.
-/
def Restores (i : Introspection σ) (b : Bean σ) (p : Property σ) : Prop :=
  ∀ v, p.value b = .ok v → ∀ bean, bean.type = i.type →
    ∃ bean', p.write v bean = .ok () bean' ∧ bean'.type = i.type ∧ p.value bean' = .ok v ∧
      ∀ q ∈ i.properties, q ≠ p → q.value bean' = q.value bean

/-- The same, where `held` tells what a property is, even one that cannot be read. -/
def RestoresApart {α : Type} (i : Introspection σ) (held : Property σ → Bean σ → α) (b : Bean σ)
    (p : Property σ) : Prop :=
  ∀ v, p.value b = .ok v → ∀ bean, bean.type = i.type →
    ∃ bean', p.write v bean = .ok () bean' ∧ bean'.type = i.type ∧ p.value bean' = .ok v ∧
      ∀ q ∈ i.properties, q ≠ p → q.value bean' = q.value bean ∧ held q bean' = held q bean

/-- Nothing is asked beyond the values if nothing else can be told. -/
theorem Restores.apart {p : Property σ} (h : i.Restores b p) :
    i.RestoresApart (fun _ _ => ()) b p := by
  intro v hv bean hb
  obtain ⟨bean', hwrite, hb', hself, hothers⟩ := h v hv bean hb
  exact ⟨bean', hwrite, hb', hself, fun q hq hne => ⟨hothers q hq hne, rfl⟩⟩

end Introspection

open Introspection Deserializer

variable {i : Introspection σ} {b : Bean σ} {r : Position} {c : Codec σ} {d : Deserializer σ}

/-! ## Assigning -/

theorem Property.value_of_not_readable {p : Property σ} (h : p.isReadable = false)
    (bean : Bean σ) : p.value bean = .error .notReadable := by
  have hreader : p.reader = none := by simpa [isReadable] using h
  rw [Property.value, read, hreader]
  rfl

/-- **Assignments give properties their values on `b`, and leave alone what they do not name.** -/
theorem value_setAll_assignments {α : Type} {held : Property σ → Bean σ → α}
    (hnodup : (i.properties.map (·.externalName)).Nodup) {names : List String}
    (h : ∀ name ∈ names, ∃ p, i.named name = some p ∧
      (p.isReadable = true → p.value b = .ok (i.valueOf b name) ∧ i.RestoresApart held b p))
    {bean : Bean σ} (hb : bean.type = i.type) :
    ∃ bean', d.setAll (i.assignments b names) bean = .ok () bean' ∧ bean'.type = i.type ∧
      (∀ q ∈ i.properties,
        q.value bean' = if q.externalName ∈ names then q.value b else q.value bean) ∧
      ∀ q ∈ i.properties, q.isReadable = false → held q bean' = held q bean := by
  induction names generalizing bean with
  | nil => exact ⟨bean, rfl, hb, fun q _ => (if_neg List.not_mem_nil).symm, fun _ _ _ => rfl⟩
  | cons name names ih =>
    obtain ⟨p, hp, hrestores⟩ := h name List.mem_cons_self
    have hnext : ∃ bean₁, d.set (.virtual p) (i.valueOf b name) bean = .ok () bean₁ ∧
        bean₁.type = i.type ∧ p.value bean₁ = p.value b ∧
        (∀ q ∈ i.properties, q ≠ p → q.value bean₁ = q.value bean) ∧
        ∀ q ∈ i.properties, q.isReadable = false → held q bean₁ = held q bean := by
      cases hreadable : p.isReadable with
      | true =>
        obtain ⟨hvalue, hrestore⟩ := hrestores hreadable
        obtain ⟨bean₁, hwrite, hb₁, hself, hothers⟩ := hrestore _ hvalue bean hb
        refine ⟨bean₁, ?_, hb₁, hself.trans hvalue.symm, fun q hq hne => (hothers q hq hne).1, ?_⟩
        · rw [Deserializer.set_eq_ok_iff, Settable.set_virtual hreadable, hwrite]
        · intro q hq hunreadable
          refine (hothers q hq fun hqp => ?_).2
          rw [hqp, hreadable] at hunreadable
          cases hunreadable
      | false =>
        -- null is passed over, and null is all that is known of the property
        have hvalue := Property.value_of_not_readable hreadable
        have hnull : i.valueOf b name = none := by
          rw [valueOf, hp, Option.bind_some, hvalue]
          rfl
        refine ⟨bean, ?_, hb, by rw [hvalue, hvalue], fun _ _ _ => rfl, fun _ _ _ => rfl⟩
        rw [hnull, Deserializer.set_eq_ok_iff, Settable.set_virtual_none hreadable]
        rfl
    obtain ⟨bean₁, hset, hb₁, hself, hothers, hheld₁⟩ := hnext
    obtain ⟨bean', hrest, hb', hvalues, hheld⟩ :=
      ih (fun n hn => h n (List.mem_cons_of_mem name hn)) hb₁
    refine ⟨bean', ?_, hb', ?_, ?_⟩
    · rw [assignments_cons hp, setAll, change_bind_ok hset]
      exact hrest
    · intro q hq
      rw [hvalues q hq]
      by_cases hqp : q = p
      · -- the property just written agrees, whether it is written again or not
        rw [hqp, hself, ite_self, if_pos]
        rw [(named_mem hp).2]
        exact List.mem_cons_self
      · have hne : q.externalName ≠ name := by
          intro hname
          have hqn := named_externalName hnodup hq
          rw [hname, hp] at hqn
          exact hqp (Option.some.inj hqn).symm
        simp only [hothers q hq hqp, List.mem_cons, hne, false_or]
    · intro q hq hunreadable
      exact (hheld q hq hunreadable).trans (hheld₁ q hq hunreadable)

/-- **Assignments bring a bean nearer to `b`, and leave alone what cannot be read.** -/
theorem setAll_assignments_apart {α : Type} {held : Property σ → Bean σ → α}
    (hnodup : (i.properties.map (·.externalName)).Nodup) {names : List String}
    (h : ∀ name ∈ names, ∃ p, i.named name = some p ∧
      (p.isReadable = true → p.value b = .ok (i.valueOf b name) ∧ i.RestoresApart held b p))
    {bean : Bean σ} (hb : bean.type = i.type) :
    ∃ bean', d.setAll (i.assignments b names) bean = .ok () bean' ∧ bean'.type = i.type ∧
      (∀ q ∈ i.properties, q.externalName ∈ names ∨ q.value bean = q.value b →
        q.value bean' = q.value b) ∧
      ∀ q ∈ i.properties, q.isReadable = false → held q bean' = held q bean := by
  obtain ⟨bean', hset, hb', hvalues, hheld⟩ := value_setAll_assignments (d := d) hnodup h hb
  refine ⟨bean', hset, hb', ?_, hheld⟩
  intro q hq hor
  rw [hvalues q hq]
  split
  · rfl
  · rename_i hname
    exact hor.resolve_left hname

/-- What is asked of assignments if all that they name can be read. -/
theorem assignable_apart {names : List String}
    (h : ∀ name ∈ names, ∃ p, i.named name = some p ∧ p.isReadable = true ∧
      p.value b = .ok (i.valueOf b name) ∧ i.Restores b p) :
    ∀ name ∈ names, ∃ p, i.named name = some p ∧ (p.isReadable = true →
      p.value b = .ok (i.valueOf b name) ∧ i.RestoresApart (fun _ _ => ()) b p) := by
  intro name hname
  obtain ⟨p, hp, -, hvalue, hrestores⟩ := h name hname
  exact ⟨p, hp, fun _ => ⟨hvalue, hrestores.apart⟩⟩

/-- **Assignments bring a bean nearer to `b`.** -/
theorem setAll_assignments (hnodup : (i.properties.map (·.externalName)).Nodup)
    {names : List String}
    (h : ∀ name ∈ names, ∃ p, i.named name = some p ∧ p.isReadable = true ∧
      p.value b = .ok (i.valueOf b name) ∧ i.Restores b p)
    {bean : Bean σ} (hb : bean.type = i.type) :
    ∃ bean', d.setAll (i.assignments b names) bean = .ok () bean' ∧ bean'.type = i.type ∧
      ∀ q ∈ i.properties, q.externalName ∈ names ∨ q.value bean = q.value b →
        q.value bean' = q.value b := by
  obtain ⟨bean', hset, hb', hagree, -⟩ := setAll_assignments_apart hnodup (assignable_apart h) hb
  exact ⟨bean', hset, hb', hagree⟩

/-! ## Entries, one by one -/

/-- A delivered value is read by whatever decodes the type of its property. -/
theorem Introspection.Delivers.entry_ok {e : String × Json} {p : Property σ}
    (h : i.Delivers r b e p) {s : Settable σ} (hs : s.decoder = p.valueType.decoder) :
    decodeEntry s r (.ok e.2) = .ok (i.valueOf b e.1) ∧ checkEntryRest s r (.ok e.2) = .ok () := by
  have hdecode : s.decoder.decode r e.2 = .ok (i.valueOf b e.1) := by
    rw [hs]
    exact h.decodes
  have hwhole : s.decoder.leavesRest r.mode e.2 = false := by
    rw [hs]
    exact h.readWhole
  constructor
  · rw [decodeEntry, hdecode]
    rfl
  · rw [checkEntryRest, checkRest, hwhole]
    rfl

/-- A delivered value goes to the property of its name. -/
theorem Codec.Reads.property_eq (hd : c.Reads i d) {e : String × Json} {p : Property σ}
    (h : i.Delivers r b e p) : d.property e.1 = some (.virtual p) := by
  obtain ⟨hm, hname⟩ := named_mem h.named
  refine hd.indexed.property_eq_some_iff.mpr ⟨?_, hname⟩
  rw [hd.properties]
  exact List.mem_map_of_mem hm

/-- Without creators, entries are assignments. -/
theorem Codec.Reads.fillEntries_eq (hd : c.Reads i d) {es : List (String × Json)}
    (h : ∀ e ∈ es, ∃ p, i.Delivers r b e p) :
    d.fillEntries r none (es.map fun e => ⟨.ok e.1, .ok e.2⟩) =
      d.setAll (i.assignments b (es.map (·.1))) := by
  induction es with
  | nil => rfl
  | cons e es ih =>
    obtain ⟨p, hp⟩ := h e List.mem_cons_self
    have hrest := ih fun e' he' => h e' (List.mem_cons_of_mem e he')
    obtain ⟨hdecode, hcheck⟩ := hp.entry_ok (rfl : (Settable.virtual p).decoder = _)
    rw [List.map_cons, List.map_cons, assignments_cons hp.named, setAll]
    simp only [fillEntries, lift_ok, pure_bind, hd.property_eq hp, hdecode, hcheck, hrest]

/-! ## Collecting -/

/-- What has been collected after the entries of some names. -/
def collected (i : Introspection σ) (b : Bean σ) (names : List String) : Pending σ where
  arguments := i.arguments.map fun a =>
    if a.externalName ∈ names then i.valueOf b a.externalName else none
  present := i.arguments.map fun a => decide (a.externalName ∈ names)
  buffered := i.assignments b (names.filter fun name => name ∉ i.argumentNames)

/-- A delivered value is accepted, whoever takes it. -/
theorem Codec.Reads.accepts (hd : c.Reads i d)
    (htypes : ∀ a ∈ i.arguments, ∀ p ∈ i.properties, a.externalName = p.externalName →
      a.valueType = p.valueType)
    {e : String × Json} {p : Property σ} (h : i.Delivers r b e p) : d.Accepts r e := by
  obtain ⟨hpm, hpname⟩ := named_mem h.named
  by_cases hname : e.1 ∈ i.argumentNames
  · -- the creator decodes the value as the property would
    obtain ⟨a, ham, ha⟩ := List.mem_map.mp hname
    obtain ⟨k, hk⟩ := List.mem_iff_getElem?.mp ham
    have htype : a.valueType = p.valueType := htypes a ham p hpm (ha.trans hpname.symm)
    have hcreator := hd.makesBy.creator_eq_some hk
    rw [ha] at hcreator
    rw [Accepts, claimant, hcreator]
    show (∃ value, a.valueType.decode r e.2 = .ok value) ∧
      a.valueType.decoder.leavesRest r.mode e.2 = false
    rw [htype]
    exact ⟨⟨_, h.decodes⟩, h.readWhole⟩
  · rw [Accepts, claimant, hd.makesBy.creator_eq_none hname, hd.property_eq h]
    exact ⟨⟨_, h.decodes⟩, h.readWhole⟩

/-- **What has been collected depends on the names only, not on their order.** -/
theorem Codec.Reads.gathered_eq (hd : c.Reads i d)
    (htypes : ∀ a ∈ i.arguments, ∀ p ∈ i.properties, a.externalName = p.externalName →
      a.valueType = p.valueType)
    {es : List (String × Json)} (h : ∀ e ∈ es, ∃ p, i.Delivers r b e p) :
    d.gathered i r es = collected i b (es.map (·.1)) := by
  have harguments : ∀ a ∈ i.arguments, a.valueIn r es =
      if a.externalName ∈ es.map (·.1) then i.valueOf b a.externalName else none := by
    intro a ha
    rw [Argument.valueIn]
    cases hlast : lastNamed es a.externalName with
    | none => rw [if_neg (lastNamed_eq_none_iff.mp hlast), Option.bind_none]
    | some j =>
      have hmem := mem_of_lastNamed hlast
      obtain ⟨p, hp⟩ := h _ hmem
      obtain ⟨hpm, hpname⟩ := named_mem hp.named
      have hdecodes := hp.decodes
      rw [← htypes a ha p hpm hpname.symm] at hdecodes
      rw [if_pos (List.mem_map_of_mem hmem), Option.bind_some, hdecodes]
      rfl
  have hwaiting : d.waiting i r es =
      i.assignments b ((es.map (·.1)).filter fun name => name ∉ i.argumentNames) := by
    rw [waiting, assignments, List.filter_map, List.filterMap_map, List.filterMap_filter]
    refine List.filterMap_congr fun e he => ?_
    obtain ⟨p, hp⟩ := h e he
    by_cases hname : e.1 ∈ i.argumentNames
    · simp [hname]
    · have hdecoded : decoded (.virtual p) r e.2 = i.valueOf b e.1 := by
        show (p.valueType.decode r e.2).toOption.join = _
        rw [hp.decodes]
        rfl
      simp [hname, hd.property_eq hp, hp.named, hdecoded]
  simp only [gathered, collected, List.map_congr_left harguments, hwaiting]

/-- Delivered entries are collected. -/
theorem Codec.Reads.collectEntries_eq (hd : c.Reads i d)
    (htypes : ∀ a ∈ i.arguments, ∀ p ∈ i.properties, a.externalName = p.externalName →
      a.valueType = p.valueType)
    {es : List (String × Json)} (h : ∀ e ∈ es, ∃ p, i.Delivers r b e p) :
    d.collectEntries r none (es.map fun e => ⟨.ok e.1, .ok e.2⟩) d.pending =
      .ok (collected i b (es.map (·.1))) := by
  rw [hd.makesBy.collectEntries_gathered, hd.gathered_eq htypes h]
  intro e he
  obtain ⟨p, hp⟩ := h e he
  exact hd.accepts htypes hp

/-! ## Making the bean -/

/-- What has been collected goes to the constructor, and then to the bean. -/
theorem Codec.Reads.complete_eq (hd : c.Reads i d) {names : List String}
    (h : ∀ a ∈ i.arguments, a.annotations.metadata.required = true → a.externalName ∈ names)
    {made : Bean σ}
    (hmade : i.instantiateWith (collected i b names).arguments = .ok made) :
    d.complete (collected i b names) =
      fill (.ok made) (d.setAll (collected i b names).buffered) := by
  rw [hd.makesBy.complete_eq rfl, firstMissing_eq_none_iff.mpr h, hmade]
  rfl

end BeanBinding
