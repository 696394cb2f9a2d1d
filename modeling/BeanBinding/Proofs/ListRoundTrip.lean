import BeanBinding.Proofs.Creating
import BeanBinding.Proofs.Placeholders
import BeanBinding.Proofs.RoundTrip

/-!
# Reading back what was written as a list

If nothing is left out, a bean of an introspected type is written as a list with the value
of each property that can be read, and null in the places of the others. No names are
written, so reading relies on the places: the element of a property goes to the creator of
its name, if there is one, or else to the property.

Three lists have to stay in step for this, that of the writers, that of the slots and
that of the creators. They do if each argument has the name of a property that can be
read. Then a list is the same as the entries under the names of the properties, which
give back what was written. What cannot be read keeps what the constructor made of it.
-/

namespace BeanBinding

open Introspection

variable {σ α : Type}

/-! ## What is asked of an introspection -/

/--
The values of a bean can be taken apart and put back from a list: names for documents are
unique, each argument goes with a property that can be read, each such property is written
or handed to the constructor, writing gives it the value that was read and leaves the
others alone, and that value survives being written down. `held` tells what a property is,
even one that cannot be read.
-/
structure Introspection.ListRestorable (i : Introspection σ) (r : Position)
    (held : Property σ → Bean σ → α) (b : Bean σ) : Prop where
  propertyNames : (i.properties.map (·.externalName)).Nodup
  argumentNames : i.argumentNames.Nodup
  claimed : ∀ a ∈ i.arguments, ∃ p ∈ i.properties, p.isReadable = true ∧
    p.externalName = a.externalName ∧ p.valueType = a.valueType
  settable : ∀ p ∈ i.properties, p.isReadable = true →
    p.isWritable = true ∨ p.externalName ∈ i.argumentNames
  restores : ∀ p ∈ i.properties, p.isReadable = true → p.isWritable = true →
    i.RestoresApart held b p
  decodes : ∀ p ∈ i.properties, ∀ v j, p.value b = .ok (some v) → v.toJson = .ok j →
    p.valueType.decode r j = .ok (some v)

/-! ## Writing -/

/-- If everything is included, no writer leaves out what it can read. -/
theorem Writer.not_leavesOut {w : Writer σ} (hw : w.Plain) (hnulls : w.suppressNulls = false)
    (hvalues : w.suppression = none) (bean : Bean σ) : ¬ w.LeavesOut bean := by
  intro h
  rw [LeavesOut, emit, if_pos hw.readable] at h
  split at h
  · cases h
  · simp [emitNull, hw.nullSerializer, hnulls] at h
  · rename_i reading _
    have hsup : w.suppresses reading.value = false := by rw [suppresses, hvalues]
    rw [hsup, if_neg Bool.false_ne_true] at h
    split at h
    · -- the bean itself is written in one way or another, or refused
      unfold emitSelf at h
      split at h
      · cases h
      · cases h
      · cases h
      · cases h
    · cases h

theorem SerializationBinder.synthesize_always {b : SerializationBinder} (h : b.inclusion = .always)
    (p : Property σ) :
    (b.synthesize p).suppressNulls = false ∧ (b.synthesize p).suppression = none := by
  unfold synthesize Writer.withInclusion
  rw [h]
  exact ⟨rfl, rfl⟩

/-- A writer that reads nothing leaves its property out. -/
theorem Writer.leavesOut_of_not_readable {w : Writer σ} (h : w.accessor.readable = false)
    (bean : Bean σ) : w.LeavesOut bean := by
  rw [LeavesOut, emit, h, if_neg Bool.false_ne_true]

variable {i : Introspection σ} {c : Codec σ} {registry : Registry σ} {b : Bean σ} {r : Position}
  {held : Property σ → Bean σ → α}

/-- Each element delivers the value of its property, or null if that cannot be read. -/
theorem Introspection.ListRestorable.delivers (hr : i.ListRestorable r held b)
    {binder : SerializationBinder} (hinclusion : binder.inclusion = .always) {p : Property σ}
    (hp : p ∈ i.properties) (hself : ¬ (binder.synthesize p).MeetsSelf b) {j : Json}
    (h : (binder.synthesize p).element b = .ok j) :
    (p.isReadable = true → p.value b = .ok (i.valueOf b p.externalName)) ∧
      i.Delivers r b (p.externalName, j) p := by
  obtain ⟨-, haccessor, -, hnullSerializer⟩ := binder.synthesize_eq p
  cases hreadable : p.isReadable with
  | true =>
    have hplain := SerializationBinder.plain_synthesize (b := binder) hreadable
    obtain ⟨hnulls, hvalues⟩ := SerializationBinder.synthesize_always hinclusion p
    rcases Writer.element_eq_ok_iff.mp h with hfield | ⟨hout, -⟩
    · obtain ⟨value, hvalue, hwritten⟩ := Writer.written_of_field hplain hself hfield
      rw [haccessor] at hvalue
      have hcarries := (carries_of_written hr.propertyNames hp hvalue hwritten
        (hr.decodes p hp)).1
      exact ⟨fun _ => hcarries.value, hcarries.delivers⟩
    · exact absurd hout (Writer.not_leavesOut hplain hnulls hvalues b)
  | false =>
    -- null stands in the place, and null is all that is known of the property
    have hout : (binder.synthesize p).LeavesOut b :=
      Writer.leavesOut_of_not_readable (by rw [haccessor]; exact hreadable) b
    rw [Writer.element_eq_null hnullSerializer hout] at h
    cases h
    have hnamed := named_externalName hr.propertyNames hp
    have hnull : i.valueOf b p.externalName = none := by
      rw [valueOf, hnamed, Option.bind_some, Property.value_of_not_readable hreadable]
      rfl
    have hdecode : p.valueType.decode r .null = .ok (i.valueOf b p.externalName) := by
      rw [hnull]
      rfl
    exact ⟨by simp, hnamed, hdecode, p.valueType.schema.leavesRest_null r.mode⟩

/-! ## Reading -/

/-- The codec for beans of another shape. -/
def Codec.withShape (c : Codec σ) (shape : Shape) : Codec σ :=
  { c with config := { c.config with shape } }

theorem Codec.Reads.withShape {d : Deserializer σ} (hd : c.Reads i d) (shape : Shape) :
    (c.withShape shape).Reads i (d.withShape shape) :=
  ⟨hd.indexed.withShape shape, hd.bean, rfl, hd.properties, hd.creators, hd.instantiator,
    hd.slotOf⟩

/-- The elements stand in the order of the properties, if arguments go with properties. -/
theorem Codec.Reads.elementNames_eq {d : Deserializer σ} (hd : c.Reads i d)
    (hclaimed : ∀ a ∈ i.arguments, ∃ p ∈ i.properties, p.externalName = a.externalName) :
    d.elementNames = i.properties.map (·.externalName) := by
  rw [hd.indexed.elementNames_eq, hd.properties, List.map_map]
  · rfl
  · intro s hs
    rw [hd.creators] at hs
    obtain ⟨a, ha, rfl⟩ := List.mem_map.mp hs
    obtain ⟨p, hp, hname⟩ := hclaimed a ha
    exact ⟨.virtual p, by rw [hd.properties]; exact List.mem_map_of_mem hp, hname⟩

/-- A bean is remade from its arguments, whatever other names there are. -/
theorem Introspection.remake_of_subset {names : List String}
    (h : ∀ name ∈ i.argumentNames, name ∈ names) :
    i.remake b names = i.remake b i.argumentNames := by
  have hvalues : (i.arguments.map fun a =>
        if a.externalName ∈ names then i.valueOf b a.externalName else none) =
      i.arguments.map fun a =>
        if a.externalName ∈ i.argumentNames then i.valueOf b a.externalName else none := by
    refine List.map_congr_left fun a ha => ?_
    have hmem : a.externalName ∈ i.argumentNames := List.mem_map_of_mem ha
    rw [if_pos (h _ hmem), if_pos hmem]
  rw [remake, remake, hvalues]

namespace Introspection.ListRestorable

theorem claimed_name (hr : i.ListRestorable r held b) :
    ∀ a ∈ i.arguments, ∃ p ∈ i.properties, p.externalName = a.externalName := by
  intro a ha
  obtain ⟨p, hp, -, hname, -⟩ := hr.claimed a ha
  exact ⟨p, hp, hname⟩

theorem argument_mem (hr : i.ListRestorable r held b) :
    ∀ name ∈ i.argumentNames, name ∈ i.properties.map (·.externalName) := by
  intro name hname
  obtain ⟨a, ha, rfl⟩ := List.mem_map.mp hname
  obtain ⟨p, hp, hpname⟩ := hr.claimed_name a ha
  exact List.mem_map.mpr ⟨p, hp, hpname⟩

/-- An argument has the type of every property whose name it has, since that is only one. -/
theorem types (hr : i.ListRestorable r held b) :
    ∀ a ∈ i.arguments, ∀ p ∈ i.properties, a.externalName = p.externalName →
      a.valueType = p.valueType := by
  intro a ha p hp hname
  obtain ⟨q, hq, -, hqname, hqtype⟩ := hr.claimed a ha
  rw [← hqtype, List.inj_on_of_nodup_map hr.propertyNames hq hp (hqname.trans hname)]

end Introspection.ListRestorable

section

variable {d : Deserializer σ} (hd : c.Reads i d) (hr : i.ListRestorable r held b)
  {js : List Json}
  (hjs : List.Forall₂ (fun p j => i.Delivers r b (p.externalName, j) p) i.properties js)
  {made : Bean σ} (hmade : i.remake b i.argumentNames = .ok made)

include hd hr hjs hmade

/-- **Elements that deliver their values make a bean, and then the values are assigned.** -/
theorem Codec.Reads.createFromEntries_eq :
    d.createFromEntries r js = Deserializer.fill (.ok made)
      ((d.withShape .object).setAll (i.assignments b
        ((i.properties.map (·.externalName)).filter fun name => name ∉ i.argumentNames))) := by
  have hnames : ((i.properties.map (·.externalName)).zip js).map (·.1) =
      i.properties.map (·.externalName) :=
    List.map_fst_zip (Nat.le_of_eq (by rw [List.length_map, hjs.length_eq]))
  have hdelivers : ∀ e ∈ (i.properties.map (·.externalName)).zip js, ∃ p, i.Delivers r b e p := by
    intro e he
    rw [List.zip_map_left] at he
    obtain ⟨⟨p, j⟩, hpj, rfl⟩ := List.mem_map.mp he
    exact ⟨p, (List.forall₂_iff_zip.mp hjs).2 hpj⟩
  have hrequired : ∀ a ∈ i.arguments, a.annotations.metadata.required = true →
      a.externalName ∈ ((i.properties.map (·.externalName)).zip js).map (·.1) := by
    intro a ha _
    rw [hnames]
    exact hr.argument_mem _ (List.mem_map_of_mem ha)
  have hremade :
      i.remake b (((i.properties.map (·.externalName)).zip js).map (·.1)) = .ok made := by
    rw [hnames, remake_of_subset hr.argument_mem, hmade]
  -- the places have the names of the properties, so this is the object of the delivered values
  rw [Deserializer.createFromEntries, hd.elementNames_eq hr.claimed_name,
    (hd.withShape .object).create_of_delivers rfl hr.types hdelivers hrequired hremade, hnames]

theorem Codec.Reads.create_ofList (hshape : c.config.shape = .array) {back : Bean σ}
    (hset : (d.withShape .object).setAll (i.assignments b
      ((i.properties.map (·.externalName)).filter fun name => name ∉ i.argumentNames)) made =
        .ok () back) :
    d.create (.ofList r js) = .ok back := by
  have hlength : js.length ≤ d.elements.length := by
    have hcount := congrArg List.length (hd.elementNames_eq hr.claimed_name)
    rw [Deserializer.elementNames, List.length_map, List.length_map, hjs.length_eq] at hcount
    exact Nat.le_of_eq hcount.symm
  have hentries := hd.createFromEntries_eq hr hjs hmade
  rw [Deserializer.fill_ok hset, hd.indexed.createFromEntries_eq hlength, mapError_eq_ok_iff,
    Deserializer.createFromList, Deserializer.withShape_of_shape (hd.shape.trans hshape)]
    at hentries
  exact hentries

end

/-- What no argument claims can be assigned. -/
theorem Introspection.ListRestorable.assignable (hr : i.ListRestorable r held b)
    (hvalue : ∀ p ∈ i.properties, p.isReadable = true →
      p.value b = .ok (i.valueOf b p.externalName)) :
    ∀ name ∈ (i.properties.map (·.externalName)).filter fun name => name ∉ i.argumentNames,
      ∃ p, i.named name = some p ∧ (p.isReadable = true →
        p.value b = .ok (i.valueOf b name) ∧ i.RestoresApart held b p) := by
  intro name hname
  rw [List.mem_filter, decide_eq_true_eq] at hname
  obtain ⟨p, hp, rfl⟩ := List.mem_map.mp hname.1
  exact ⟨p, named_externalName hr.propertyNames hp, fun hreadable => ⟨hvalue p hp hreadable,
    hr.restores p hp hreadable ((hr.settable p hp hreadable).resolve_right hname.2)⟩⟩

/-! ## The round trip -/

/--
**What was written as a list is read back.**

Let a bean of an introspected type be written as a list with everything included, without
meeting itself. If the bean that the constructor makes of the values under the names of
its arguments agrees with it on these, then reading the list gives a bean that agrees with
it on every property that can be read. A property that cannot be read has null in its
place, and is what the constructor made it.
-/
theorem list_read_back (hi : i.WellFormed) (hc : c.Introspects registry i)
    (hshape : c.config.shape = .array) (hinclusion : c.config.inclusion = .always)
    {mode : Mode} {depth : Nat} (hb : b.type = i.type)
    (hr : i.ListRestorable ⟨mode, Json.maxDepth - depth - 1⟩ held b)
    (hself : ∀ p ∈ i.properties,
      ¬ ((SerializationBinder.ofConfig c.config).synthesize p).MeetsSelf b)
    {js : List Json} (hjs : (c.write b (.ofRegistry registry)).result = .ok (.list js))
    {made : Bean σ} (hmade : i.remake b i.argumentNames = .ok made)
    (hagree : ∀ p ∈ i.properties, p.externalName ∈ i.argumentNames → p.value made = p.value b) :
    ∃ back, (c.read i.type (.ofJson mode depth (.list js))
        (c.write b (.ofRegistry registry)).state).result = .ok back ∧
      (∀ p ∈ i.properties, p.isReadable = true → p.value back = p.value b) ∧
      ∀ p ∈ i.properties, p.isReadable = false → held p back = held p made := by
  obtain ⟨⟨s, hstate⟩, helements⟩ := hc.of_write_list hshape hb hjs
  have hwritten : List.Forall₂ (fun p j =>
      (p.isReadable = true → p.value b = .ok (i.valueOf b p.externalName)) ∧
        i.Delivers ⟨mode, Json.maxDepth - depth - 1⟩ b (p.externalName, j) p)
          i.properties js := by
    rw [List.forall₂_iff_zip] at helements ⊢
    refine ⟨helements.1, fun {p j} hpj => ?_⟩
    have hp := (List.of_mem_zip hpj).1
    exact hr.delivers hinclusion hp (hself p hp) (helements.2 hpj)
  obtain ⟨hvalue, hdelivers⟩ := (List.forall₂_and_left _ _).mp hwritten
  obtain ⟨d, hbuild, hd⟩ := c.exists_reads hi hr.propertyNames hr.argumentNames
  obtain ⟨back, hset, hback, hsame, hkept⟩ := setAll_assignments_apart
    (d := d.withShape .object) hr.propertyNames (hr.assignable hvalue) (type_remake hmade)
  have hcreated := hd.create_ofList hr hdelivers hmade hshape hset
  refine ⟨back, ?_, ?_, hkept⟩
  · rw [hstate]
    exact hc.read_eq hbuild _ hcreated hback
  · intro p hp _
    refine hsame p hp ?_
    by_cases hclaimed : p.externalName ∈ i.argumentNames
    · exact .inr (hagree p hp hclaimed)
    · -- an element that no argument claims was assigned
      left
      rw [List.mem_filter, decide_eq_true_eq]
      exact ⟨List.mem_map_of_mem hp, hclaimed⟩

/-! ### Forms with a token -/

namespace Form

/-- The type of forms: an owner, a token that is not shown, and a count. -/
def type : BeanType := ⟨"Form"⟩

/-- The owner of a form. -/
def ownerPart : Part (Tree × Tree × Tree) :=
  ⟨fun s => s.1, fun s t => (t, s.2), fun _ _ => rfl⟩

/-- The token of a form. -/
def tokenPart : Part (Tree × Tree × Tree) :=
  ⟨fun s => s.2.1, fun s t => (s.1, t, s.2.2), fun _ _ => rfl⟩

/-- The count of a form. -/
def countPart : Part (Tree × Tree × Tree) :=
  ⟨fun s => s.2.2, fun s t => (s.1, s.2.1, t), fun _ _ => rfl⟩

/-- A form. -/
def of (owner token count : Int) : Bean (Tree × Tree × Tree) :=
  ⟨type, (.int .i64 owner, .int .i64 token, .int .i64 count)⟩

/-- The property of the owner, which is fixed when the form is made. -/
def owner : Property (Tree × Tree × Tree) :=
  { ownerPart.property type "owner" Pair.number with writer := none }

/-- The property of the token, which cannot be read. -/
def token : Property (Tree × Tree × Tree) :=
  { tokenPart.property type "token" Pair.number with reader := none }

/-- The property of the count. -/
def count : Property (Tree × Tree × Tree) := countPart.property type "count" Pair.number

/-- The introspection of forms, which are made from their owner and come with a token. -/
def introspection : Introspection (Tree × Tree × Tree) :=
  (((((Introspection.declare type).withProperty owner).withProperty token).withProperty
    count).withArgument (.declare "owner" Pair.number)).withConstructor do
      let t ← Arguments.take 0 Pair.number
      return (t, .int .i64 7, .int .i64 0)

/-- A codec that writes forms as lists. -/
def codec : Codec (Tree × Tree × Tree) :=
  .setup { Config.default with shape := .array } [] [introspectionModule]

theorem declared : introspection.Declared :=
  ((((((Introspection.Declared.declare _).withProperty _).withProperty _).withProperty
    _).withArgument _).withConstructor _)

theorem mem_properties_iff {p : Property (Tree × Tree × Tree)} :
    p ∈ introspection.properties ↔ p = owner ∨ p = token ∨ p = count := by
  show p ∈ [owner, token, count] ↔ _
  simp

/-- Writing the count gives it the value, and leaves the rest of the form. -/
theorem restores_count (b : Bean (Tree × Tree × Tree)) (hb : b.type = type) :
    introspection.RestoresApart (fun _ bean => tokenPart.get bean.state) b count := by
  intro v hv bean hbean
  rw [count, Part.value_property hb] at hv
  cases hv
  refine ⟨_, Part.write_property hbean _, hbean, Part.value_write_self hbean _, ?_⟩
  intro q hq hne
  rcases mem_properties_iff.mp hq with rfl | rfl | rfl
  · exact ⟨rfl, rfl⟩
  · exact ⟨rfl, rfl⟩
  · exact absurd rfl hne

/-- A form can be taken apart and put back. -/
theorem restorable (room : Nat) : introspection.ListRestorable ⟨.streamed, room⟩
    (fun _ bean => tokenPart.get bean.state) (of 1 9 2) where
  propertyNames := by decide
  argumentNames := by decide
  claimed := by
    intro a ha
    cases List.mem_singleton.mp ha
    exact ⟨owner, List.mem_cons_self, rfl, rfl, rfl⟩
  settable := by
    intro p hp hreadable
    rcases mem_properties_iff.mp hp with rfl | rfl | rfl
    · exact .inr (List.mem_singleton.mpr rfl)
    · cases hreadable
    · exact .inl rfl
  restores := by
    intro p hp hreadable hwritable
    rcases mem_properties_iff.mp hp with rfl | rfl | rfl
    · cases hwritable
    · cases hreadable
    · exact restores_count _ rfl
  decodes := by
    intro p hp v j hv hj
    rcases mem_properties_iff.mp hp with rfl | rfl | rfl
    · cases hv
      cases hj
      rfl
    · cases hv
    · cases hv
      cases hj
      rfl

end Form

/-- A form is read back with the token that the constructor gives it. -/
theorem form_read_back :
    let st := .ofRegistry ⟨[Form.introspection]⟩
    let written := .list [.number (.ofInt 1), .null, .number (.ofInt 2)]
    (Form.codec.write (Form.of 1 9 2) st).result = .ok written ∧
      ∃ back, (Form.codec.read Form.type (.ofJson .streamed 0 written)
          (Form.codec.write (Form.of 1 9 2) st).state).result = .ok back ∧
        Form.owner.value back = Form.owner.value (Form.of 1 9 2) ∧
        Form.count.value back = Form.count.value (Form.of 1 9 2) ∧
        Form.tokenPart.get back.state = .int .i64 7 := by
  intro st written
  have hwrite : (Form.codec.write (Form.of 1 9 2) st).result = .ok written := rfl
  have hintrospects : Form.codec.Introspects ⟨[Form.introspection]⟩ Form.introspection :=
    Codec.introspects_setup rfl (by simp) (by simp [Registry.find])
  have hmade : Form.introspection.remake (Form.of 1 9 2) ["owner"] = .ok (Form.of 1 7 0) := rfl
  have hself : ∀ p ∈ Form.introspection.properties,
      ¬ ((SerializationBinder.ofConfig Form.codec.config).synthesize p).MeetsSelf
        (Form.of 1 9 2) := by
    rintro p hp ⟨hreadable, reading, hread, -, hyields⟩
    rcases Form.mem_properties_iff.mp hp with rfl | rfl | rfl
    · cases hread
      cases hyields
    · cases hreadable
    · cases hread
      cases hyields
  have hagree : ∀ p ∈ Form.introspection.properties,
      p.externalName ∈ Form.introspection.argumentNames →
        p.value (Form.of 1 7 0) = p.value (Form.of 1 9 2) := by
    intro p hp hname
    rcases Form.mem_properties_iff.mp hp with rfl | rfl | rfl
    · rfl
    · exact absurd hname (by decide)
    · exact absurd hname (by decide)
  obtain ⟨back, hread, hvalues, hheld⟩ := list_read_back Form.declared.wellFormed hintrospects rfl
    rfl rfl (Form.restorable _) hself hwrite hmade hagree
  have howner := Form.mem_properties_iff.mpr (.inl rfl)
  have htoken := Form.mem_properties_iff.mpr (.inr (.inl rfl))
  have hcount := Form.mem_properties_iff.mpr (.inr (.inr rfl))
  exact ⟨hwrite, back, hread, hvalues _ howner rfl, hvalues _ hcount rfl, hheld _ htoken rfl⟩

end BeanBinding
