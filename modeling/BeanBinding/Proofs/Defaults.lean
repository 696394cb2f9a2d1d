import BeanBinding.Proofs.Omitting

/-!
# Declared defaults

A property can declare a default by a literal, and a codec can be told to leave out values
that are the declared default. This is all that the declaration is used for. Reading does
not look at it: a property without an entry is not set, so it stays what it is on a new
bean.

So a default that was left out comes back exactly if new beans have it. What is declared
and what new beans have are stated in two places, and nothing makes them agree.
-/

namespace BeanBinding

open Introspection

variable {σ : Type}

/-- The property has its declared default. -/
def Property.IsDefault (p : Property σ) (bean : Bean σ) : Prop :=
  ∃ default v, p.declaredDefault = some default ∧ p.value bean = .ok (some v) ∧
    default.same v = true

namespace Property.IsDefault

variable {p : Property σ} {bean bean' : Bean σ}

theorem isReadable (h : p.IsDefault bean) : p.isReadable = true := by
  obtain ⟨default, v, -, hvalue, -⟩ := h
  by_contra hreadable
  rw [Property.value_of_not_readable (Bool.eq_false_iff.mpr hreadable)] at hvalue
  cases hvalue

/-- A default is what is left out unless it is something else. -/
theorem excluded (h : p.IsDefault bean) :
    ∃ value, p.value bean = .ok value ∧ Inclusion.nonDefault.excludes p value = true := by
  obtain ⟨default, v, hdefault, hvalue, hsame⟩ := h
  refine ⟨some v, hvalue, ?_⟩
  simp only [Inclusion.excludes, hdefault]
  exact hsame

end Property.IsDefault

theorem Property.isDefault_congr {p : Property σ} {bean bean' : Bean σ}
    (h : p.value bean = p.value bean') : p.IsDefault bean ↔ p.IsDefault bean' := by
  unfold IsDefault
  rw [h]

/-! ## What is not named -/

/-- Writes into other properties leave a property alone. -/
def Introspection.Unaffected (i : Introspection σ) (p : Property σ) : Prop :=
  ∀ q ∈ i.properties, q.externalName ≠ p.externalName → ∀ v bean bean',
    q.write v bean = .ok () bean' → p.value bean' = p.value bean

variable {i : Introspection σ} {c : Codec σ} {registry : Registry σ} {d : Deserializer σ}
  {r : Position} {p : Property σ}

/-- An entry of another name leaves a property alone, whoever takes it. -/
theorem Codec.Reads.value_fillEntry (hd : c.Reads i d) (hp : i.Unaffected p)
    {e : String × Json} (hname : e.1 ≠ p.externalName) {bean bean' : Bean σ}
    (h : d.fillEntry r e bean = .ok () bean') : p.value bean' = p.value bean := by
  rw [Deserializer.fillEntry] at h
  cases hproperty : d.property e.1 with
  | none =>
    simp only [hproperty, Deserializer.lift] at h
    split at h
    · cases h
      rfl
    · cases h
  | some s =>
    obtain ⟨hs, hsname⟩ := hd.indexed.property_eq_some_iff.mp hproperty
    rw [hd.properties] at hs
    obtain ⟨q, hq, rfl⟩ := List.mem_map.mp hs
    simp only [hproperty] at h
    obtain ⟨value, -, hset, -⟩ := Deserializer.receive_eq_ok_iff.mp h
    have hne : q.externalName ≠ p.externalName := fun hqp => hname (hsname.symm.trans hqp)
    simp only [Settable.virtual] at hset
    split at hset
    · -- null for a property that cannot be read is passed over
      cases hset
      rfl
    · exact hp q hq hne value bean bean' hset

/-- **A property that no entry names is what it is on a new bean.** -/
theorem Codec.Reads.value_of_not_named (hd : c.Reads i d) (hshape : c.config.shape = .object)
    (harguments : i.arguments = []) (hp : i.Unaffected p) {es : List (String × Json)}
    (hname : p.externalName ∉ es.map (·.1)) {back : Bean σ}
    (h : d.create (.ofEntries r es) = .ok back) :
    ∃ fresh, i.instantiate = .ok fresh ∧ p.value back = p.value fresh := by
  have hcreators : d.creators = [] := by rw [hd.creators, harguments]; rfl
  rw [Deserializer.create_ofEntries_eq (hd.shape.trans hshape) hcreators] at h
  obtain ⟨fresh, hfresh, hfill⟩ := Deserializer.fill_eq_ok_iff.mp h
  rw [Deserializer.instantiate, hd.instantiator, mapError_eq_ok_iff] at hfresh
  refine ⟨fresh, hfresh, forM_preserves (fun e he bean bean' hentry => ?_) hfill⟩
  refine hd.value_fillEntry hp (fun hep => hname ?_) hentry
  rw [← hep]
  exact List.mem_map_of_mem he

/-! ## Objects without defaults -/

/--
**A default that was left out comes back exactly if new beans have it.**

Let a bean of an introspected type without arguments be written as an object, without the
values that are declared defaults. A property with its default has no entry. If a bean is
read back, and other properties leave this one alone, it is what it is on a new bean, so
it has its default again exactly if new beans do. A bean is read back if its values can be
taken apart and put back: then it has the values that were written, and those of a new
bean in the places of the others.
-/
theorem left_out_default_read_back (hi : i.WellFormed) (hc : c.Introspects registry i)
    (hshape : c.config.shape = .object) (hinclusion : c.config.inclusion = .nonDefault)
    (harguments : i.arguments = []) {b : Bean σ} (hb : b.type = i.type)
    {es : List (String × Json)}
    (hes : (c.write b (.ofRegistry registry)).result = .ok (.record es))
    (mode : Mode) (depth : Nat) :
    let st := (c.write b (.ofRegistry registry)).state
    let outcome := (c.read i.type (.ofJson mode depth (.record es)) st).result
    (∀ p ∈ i.properties, p.IsDefault b → p.externalName ∉ es.map (·.1) ∧
      (i.Unaffected p → ∀ back, outcome = .ok back →
        ∃ fresh, i.instantiate = .ok fresh ∧ p.value back = p.value fresh ∧
          (p.IsDefault back ↔ p.IsDefault fresh))) ∧
    (i.Restorable ⟨mode, Json.maxDepth - depth - 1⟩ b →
      (∀ p ∈ i.properties,
        ¬ ((SerializationBinder.ofConfig c.config).synthesize p).MeetsSelf b) →
      ∀ fresh, i.instantiate = .ok fresh → ∃ back, outcome = .ok back ∧
        ∀ p ∈ i.properties,
          p.value back = if p.externalName ∈ es.map (·.1) then p.value b else p.value fresh) := by
  obtain ⟨kept, hstate, hfields⟩ := hc.of_write hshape hb hes
  have hdocument := hc.ofJson_written hshape hb hes mode depth
  rw [hstate, hdocument]
  intro st outcome
  obtain ⟨d, hbuild, hd⟩ := c.exists_reads hi (hc.nodup_of_write hb hes)
    (by rw [harguments]; exact List.nodup_nil)
  refine ⟨?_, ?_⟩
  · intro p hp hdefault
    have hname : p.externalName ∉ es.map (·.1) := by
      refine (hc.name_not_mem_iff hshape hb hes hp hdefault.isReadable).mpr ?_
      rw [hinclusion]
      exact hdefault.excluded
    refine ⟨hname, fun hunaffected back hback => ?_⟩
    -- the bean was made by a deserializer that was built for this read
    have hread : (c.read i.type _ ⟨registry, _, []⟩).result = .ok back := hback
    rw [Codec.result_read, hc.buildDeserializer, hbuild] at hread
    obtain ⟨made, hcreate, htype⟩ := bind_eq_ok_iff.mp hread
    obtain ⟨-, rfl⟩ := Codec.ofType_eq_ok_iff.mp htype
    obtain ⟨fresh, hfresh, hvalue⟩ :=
      hd.value_of_not_named hshape harguments hunaffected hname hcreate
    exact ⟨fresh, hfresh, hvalue, Property.isDefault_congr hvalue⟩
  · -- the written values are assigned to a new bean, and nothing else is
    intro hr hself fresh hfresh
    have hcarries : ∀ e ∈ es, ∃ p, i.Carries _ b e p :=
      fun e he => (hr.carries hself hfields he).1
    have hmade : i.remake b (es.map (·.1)) = .ok fresh := by
      rw [remake, harguments]
      exact hfresh
    have hcreate := hd.create_ofEntries hshape (by simp [harguments]) hcarries
      (by simp [harguments]) hmade
    have hnames : i.argumentNames = [] := by rw [argumentNames, harguments]; rfl
    obtain ⟨back, hset, hback, hvalues, -⟩ := value_setAll_assignments (d := d) hr.propertyNames
      (assignable_apart (hr.assignable hcarries)) (type_remake hmade)
    refine ⟨back, hc.read_eq hbuild _ (hcreate.trans (Deserializer.fill_ok hset)) hback, ?_⟩
    intro p hp
    simpa only [hnames, List.not_mem_nil, not_false_eq_true, decide_true, List.filter_true] using
      hvalues p hp

/-! ### Labels with a default -/

namespace Labelled

/-- The property of the label, with a declared default. -/
def defaulted (literal : String) : Property (Tree × Option Tree) :=
  fullLabel.withAnnotations (Annotations.empty.set Annotations.Kind.property
    Annotations.Attribute.defaultValue (.text literal))

theorem defaulted_declared (literal : String) : (introspection (defaulted literal)).Declared :=
  (((Introspection.Declared.declare _).withProperty _).withProperty _).withFresh _

theorem defaulted_introspects (literal : String) :
    (objectCodec .nonDefault).Introspects ⟨[introspection (defaulted literal)]⟩
      (introspection (defaulted literal)) :=
  Codec.introspects_setup rfl (by simp) (by simp [Registry.find])

/-- A label is its default if it is the text of the literal. -/
theorem isDefault_defaulted_iff (literal : String) (n : Int) (text : String) :
    (defaulted literal).IsDefault (of n (some text)) ↔ text = literal := by
  have hsame : (⟨Labelled.text, .text literal⟩ : Value).same ⟨Labelled.text, .text text⟩ =
      (literal == text) := by
    simp [Value.same, Value.is, Tree.same]
  constructor
  · rintro ⟨default, v, hdefault, hvalue, hequal⟩
    cases hdefault
    cases hvalue
    exact (beq_iff_eq.mp (hsame.symm.trans hequal)).symm
  · rintro rfl
    exact ⟨_, _, rfl, rfl, hsame.trans (beq_self_eq_true text)⟩

/-- Only the number is written if the label is its default. -/
theorem write_defaulted (literal : String) :
    ((objectCodec .nonDefault).write (of 1 (some literal))
        (.ofRegistry ⟨[introspection (defaulted literal)]⟩)).result =
      .ok (.record [("number", .number (.ofInt 1))]) := by
  let binder := SerializationBinder.ofConfig (objectCodec .nonDefault).config
  have hlabel : (binder.synthesize (defaulted literal)).field (of 1 (some literal)) = .ok none := by
    rw [Writer.field_eq_none_iff, SerializationBinder.leavesOut_synthesize_iff rfl]
    exact ((isDefault_defaulted_iff literal 1 literal).mpr rfl).excluded
  have hfields : Serializer.fields (of 1 (some literal))
      [binder.synthesize number, binder.synthesize (defaulted literal)] =
        .ok [("number", .number (.ofInt 1))] := by
    simp only [Serializer.fields, hlabel]
    rfl
  rw [Codec.result_write]
  show (Serializer.fields _ [binder.synthesize number, binder.synthesize (defaulted literal)]).map
    Json.record = _
  rw [hfields]
  rfl

/-- The number, as a part. -/
def numberPart : Part (Tree × Option Tree) := ⟨Prod.fst, fun s t => (t, s.2), fun _ _ => rfl⟩

/-- The label, as a part. -/
def labelPart : Part (Tree × Option Tree) :=
  ⟨fun s => s.2.getD (.text ""), fun s t => (s.1, some t), fun _ _ => rfl⟩

theorem numberPart_apart : numberPart.Apart labelPart := fun _ _ => rfl

theorem labelPart_apart : labelPart.Apart numberPart := fun _ _ => rfl

/-- The label is not changed through the number. -/
theorem unaffected_defaulted (literal : String) :
    (introspection (defaulted literal)).Unaffected (defaulted literal) := by
  intro q hq hne v bean bean' hwrite
  rcases List.mem_pair.mp hq with rfl | rfl
  · obtain ⟨-, _, t, -, -, rfl⟩ := Property.write_setter_eq_ok_iff.mp hwrite
    rfl
  · exact absurd rfl hne

theorem restores_number (literal text : String) (n : Int) :
    (introspection (defaulted literal)).Restores (of n (some text)) number := by
  intro v hv bean hbean
  cases hv
  refine ⟨_, numberPart.write_property hbean _, hbean, numberPart.value_write_self hbean _, ?_⟩
  intro q hq hne
  rcases List.mem_pair.mp hq with rfl | rfl
  · exact absurd rfl hne
  · have happart : ∀ t, (defaulted literal).value
        { bean with state := numberPart.set bean.state t } = (defaulted literal).value bean :=
      fun t => Part.value_write_apart numberPart_apart hbean t
    exact happart _

theorem restores_label (literal text : String) (n : Int) :
    (introspection (defaulted literal)).Restores (of n (some text)) (defaulted literal) := by
  intro v hv bean hbean
  cases hv
  refine ⟨_, labelPart.write_property hbean _, hbean, labelPart.value_write_self hbean _, ?_⟩
  intro q hq hne
  rcases List.mem_pair.mp hq with rfl | rfl
  · have happart : ∀ t, number.value { bean with state := labelPart.set bean.state t } =
        number.value bean := fun t => Part.value_write_apart labelPart_apart hbean t
    exact happart _
  · exact absurd rfl hne

/-- Numbers with a label can be taken apart and put back. -/
theorem defaulted_restorable (literal text : String) (room : Nat) :
    (introspection (defaulted literal)).Restorable ⟨.streamed, room⟩ (of 1 (some text)) where
  propertyNames := by
    show ["number", "label"].Nodup
    decide
  argumentNames := List.nodup_nil
  readable := by
    intro p hp
    rcases List.mem_pair.mp hp with rfl | rfl
    · rfl
    · rfl
  settable := by
    intro p hp
    rcases List.mem_pair.mp hp with rfl | rfl
    · exact .inl rfl
    · exact .inl rfl
  restores := by
    intro p hp _
    rcases List.mem_pair.mp hp with rfl | rfl
    · exact restores_number literal text 1
    · exact restores_label literal text 1
  decodes := by
    intro p hp v j hv hj
    rcases List.mem_pair.mp hp with rfl | rfl
    · cases hv
      cases hj
      rfl
    · cases hv
      cases hj
      rfl

end Labelled

/-- The label "new" is left out and comes back, since new beans have it. -/
theorem new_label_read_back :
    let c := Labelled.objectCodec .nonDefault
    let st := .ofRegistry ⟨[Labelled.introspection (Labelled.defaulted "new")]⟩
    let bean := Labelled.of 1 (some "new")
    let written := .record [("number", .number (.ofInt 1))]
    (c.write bean st).result = .ok written ∧
      ∃ back, (c.read Labelled.type (.ofJson .streamed 0 written) (c.write bean st).state).result =
          .ok back ∧
        Labelled.number.value back = Labelled.number.value bean ∧
        (Labelled.defaulted "new").IsDefault back := by
  intro c st bean written
  have hwrite : (c.write bean st).result = .ok written := Labelled.write_defaulted "new"
  have hnumber : Labelled.number ∈ (Labelled.introspection (Labelled.defaulted "new")).properties :=
    List.mem_pair.mpr (.inl rfl)
  have hlabel : Labelled.defaulted "new" ∈
      (Labelled.introspection (Labelled.defaulted "new")).properties := List.mem_pair.mpr (.inr rfl)
  have hdefault : ∀ n, (Labelled.defaulted "new").IsDefault (Labelled.of n (some "new")) :=
    fun n => (Labelled.isDefault_defaulted_iff "new" n "new").mpr rfl
  obtain ⟨hdefaults, hread⟩ := left_out_default_read_back
    (Labelled.defaulted_declared "new").wellFormed (Labelled.defaulted_introspects "new") rfl rfl
    rfl rfl hwrite .streamed 0
  obtain ⟨back, hback, hvalues⟩ := hread (Labelled.defaulted_restorable "new" "new" _) (by
    rintro p hp ⟨-, reading, hreading, -, hyields⟩
    rcases List.mem_pair.mp hp with rfl | rfl
    · cases hreading
      cases hyields
    · cases hreading
      cases hyields) _ rfl
  obtain ⟨-, hkept⟩ := hdefaults _ hlabel (hdefault 1)
  obtain ⟨fresh, hfresh, -, hiff⟩ := hkept (Labelled.unaffected_defaulted "new") back hback
  cases hfresh
  exact ⟨hwrite, back, hback, hvalues _ hnumber, hiff.mpr (hdefault 0)⟩

/-- The label "none" is left out, and comes back as that of new beans. -/
theorem none_label_not_read_back :
    let i := Labelled.introspection (Labelled.defaulted "none")
    let c := Labelled.objectCodec .nonDefault
    let st := .ofRegistry ⟨[i]⟩
    let bean := Labelled.of 1 (some "none")
    let written := .record [("number", .number (.ofInt 1))]
    i.Declared ∧ c.Introspects ⟨[i]⟩ i ∧ c.config.shape = .object ∧
      c.config.inclusion = .nonDefault ∧ i.arguments = [] ∧
      (∀ p ∈ i.properties, p.isReadable = true ∧ p.isWritable = true) ∧
      (i.properties.map (·.externalName)).Nodup ∧ Labelled.defaulted "none" ∈ i.properties ∧
      (Labelled.defaulted "none").IsDefault bean ∧ (c.write bean st).result = .ok written ∧
      ∃ back, (c.read Labelled.type (.ofJson .streamed 0 written) (c.write bean st).state).result =
          .ok back ∧
        ¬ (Labelled.defaulted "none").IsDefault back := by
  intro i c st bean written
  refine ⟨Labelled.defaulted_declared "none", Labelled.defaulted_introspects "none", rfl, rfl, rfl,
    ?_, by decide, List.mem_pair.mpr (.inr rfl),
    (Labelled.isDefault_defaulted_iff "none" 1 "none").mpr rfl, Labelled.write_defaulted "none",
    Labelled.of 1 (some "new"), rfl, ?_⟩
  · intro p hp
    rcases List.mem_pair.mp hp with rfl | rfl
    · exact ⟨rfl, rfl⟩
    · exact ⟨rfl, rfl⟩
  · rw [Labelled.isDefault_defaulted_iff]
    decide

end BeanBinding
