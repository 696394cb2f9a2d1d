import BeanBinding.Proofs.Restoring
import BeanBinding.Proofs.Using

/-!
# Reading back what was written

A bean of an introspected type is written as entries, one for each property whose value
is not left out. Reading makes a new bean, from the values of the entries that creators
claim, and assigns the others to it.

The two halves meet at `Carries`: each entry that is written carries the value that its
property has on the bean. So whatever the order of the entries, every property is the
same again that was written or came out right when the bean was made.
-/

namespace BeanBinding

open Introspection

variable {σ : Type}

/-! ## What is asked of an introspection -/

/--
The values of a bean can be taken apart and put back: names for documents are unique, each
property is read and then either written or handed to the constructor, writing gives it
the value that was read, and that value survives being written down.
-/
structure Introspection.Restorable (i : Introspection σ) (r : Position) (b : Bean σ) : Prop where
  propertyNames : (i.properties.map (·.externalName)).Nodup
  argumentNames : i.argumentNames.Nodup
  readable : ∀ p ∈ i.properties, p.isReadable = true
  settable : ∀ p ∈ i.properties, p.isWritable = true ∨
    ∃ a ∈ i.arguments, a.externalName = p.externalName ∧ a.valueType = p.valueType
  restores : ∀ p ∈ i.properties, p.isWritable = true → i.Restores b p
  decodes : ∀ p ∈ i.properties, ∀ v j, p.value b = .ok (some v) → v.toJson = .ok j →
    p.valueType.decode r j = .ok (some v)

/-- The bean made without arguments, or from the values under those names that were written. -/
def Introspection.remake (i : Introspection σ) (b : Bean σ) (names : List String) :
    Except InstantiationError (Bean σ) :=
  if i.arguments.isEmpty then i.instantiate
  else i.instantiateWith (i.arguments.map fun a =>
    if a.externalName ∈ names then i.valueOf b a.externalName else none)

variable {i : Introspection σ} {c : Codec σ} {registry : Registry σ} {b : Bean σ} {r : Position}

theorem Introspection.type_remake {names : List String} {made : Bean σ}
    (h : i.remake b names = .ok made) : made.type = i.type := by
  have hconstruct : ∀ k values, i.construct k values = .ok made → made.type = i.type := by
    intro k values hk
    unfold construct at hk
    split at hk
    · cases hk
      rfl
    · cases hk
  unfold remake instantiate instantiateWith at h
  split at h
  · split at h
    · cases h
      rfl
    · exact hconstruct _ _ h
    · cases h
  · split at h
    · cases h
    · split at h
      · cases h
      · exact hconstruct _ _ h

/-! ## Writing -/

/-- What has been written comes from the writers of the properties. -/
theorem Codec.Introspects.of_write (hc : c.Introspects registry i)
    (hshape : c.config.shape = .object) (hb : b.type = i.type) {es : List (String × Json)}
    (h : (c.write b (.ofRegistry registry)).result = .ok (.record es)) :
    ∃ s, (c.write b (.ofRegistry registry)).state = ⟨registry, [(i.type, s)], []⟩ ∧
      Serializer.fields b
        (i.properties.map (SerializationBinder.ofConfig c.config).synthesize) = .ok es := by
  obtain ⟨s, hs, hstate, hserialize⟩ := Codec.of_write h
  rw [hb] at hs hstate
  rw [hc.buildSerializer] at hs
  have hbuilt := (SerializerDraft.build_eq_ok_iff.mp hs).1
  have hsshape : s.shape = .object := by rw [hbuilt]; exact hshape
  refine ⟨s, hstate, ?_⟩
  have hfields := Serializer.fields_of_serialize hsshape hserialize
  rw [hbuilt] at hfields
  exact hfields

/-- The written value of a property is carried under its name, if it decodes again. -/
theorem Introspection.carries_of_written (hnames : (i.properties.map (·.externalName)).Nodup)
    {p : Property σ} (hp : p ∈ i.properties) {value : Option Value} {j : Json}
    (hvalue : p.value b = .ok value) (hwritten : Written value j)
    (hdecodes : ∀ v j, p.value b = .ok (some v) → v.toJson = .ok j →
      p.valueType.decode r j = .ok (some v)) :
    i.Carries r b (p.externalName, j) p ∧ j.colonFault = none := by
  have hnamed : i.named p.externalName = some p := named_externalName hnames hp
  have hvalueOf : i.valueOf b p.externalName = value := by
    rw [valueOf, hnamed, Option.bind_some, hvalue]
    rfl
  obtain ⟨hdecode, hwhole, hcolon⟩ := ValueType.decode_written (r := r) hwritten
    fun v hv => hdecodes v j (hv ▸ hvalue) (by rw [hv] at hwritten; exact hwritten)
  exact ⟨⟨hnamed, hvalueOf ▸ hvalue, hvalueOf ▸ hdecode, hwhole⟩, hcolon⟩

/-- Each entry carries the value that the property of its name has on the bean. -/
theorem Introspection.Restorable.carries (hr : i.Restorable r b) {binder : SerializationBinder}
    (hself : ∀ p ∈ i.properties, ¬ (binder.synthesize p).MeetsSelf b) {es : List (String × Json)}
    (hfields : Serializer.fields b (i.properties.map binder.synthesize) = .ok es)
    {e : String × Json} (he : e ∈ es) :
    (∃ p, i.Carries r b e p) ∧ e.2.colonFault = none := by
  obtain ⟨w, hw, hname, hfield⟩ := (Serializer.mem_fields_iff hfields).mp he
  obtain ⟨p, hp, rfl⟩ := List.mem_map.mp hw
  obtain ⟨value, hvalue, hwritten⟩ := Writer.written_of_field
    (SerializationBinder.plain_synthesize (hr.readable p hp)) (hself p hp) hfield
  rw [SerializationBinder.name_synthesize] at hname
  rw [SerializationBinder.accessor_synthesize] at hvalue
  obtain ⟨hcarries, hcolon⟩ :=
    carries_of_written hr.propertyNames hp hvalue hwritten (hr.decodes p hp)
  rw [hname] at hcarries
  exact ⟨⟨p, hcarries⟩, hcolon⟩

/-! ## Reading -/

/-- A bean is remade from a set of names, not from a list. -/
theorem Introspection.remake_congr {names names' : List String}
    (h : ∀ name, name ∈ names ↔ name ∈ names') : i.remake b names = i.remake b names' := by
  simp only [remake, h]

/-- **Entries make a bean, and then they are assigned to it.** -/
theorem Codec.Reads.create_of_delivers {d : Deserializer σ} (hd : c.Reads i d)
    (hshape : c.config.shape = .object)
    (htypes : ∀ a ∈ i.arguments, ∀ p ∈ i.properties, a.externalName = p.externalName →
      a.valueType = p.valueType)
    {es : List (String × Json)} (h : ∀ e ∈ es, ∃ p, i.Delivers r b e p)
    (hrequired : ∀ a ∈ i.arguments, a.annotations.metadata.required = true →
      a.externalName ∈ es.map (·.1))
    {made : Bean σ} (hmade : i.remake b (es.map (·.1)) = .ok made) :
    d.create (.ofEntries r es) = Deserializer.fill (.ok made)
      (d.setAll (i.assignments b
        ((es.map (·.1)).filter fun name => name ∉ i.argumentNames))) := by
  have hdshape : d.shape = .object := hd.shape.trans hshape
  rcases ha : i.arguments with _ | ⟨a, as⟩
  · -- nothing to collect: the bean is made first
    have hcreators : d.usesCreators = false := by
      rw [Deserializer.usesCreators, hd.creators, ha]
      rfl
    have hinstantiate : d.instantiate = .ok made := by
      rw [remake, ha] at hmade
      rw [Deserializer.instantiate, hd.instantiator]
      show (i.instantiate).mapError _ = _
      rw [show i.instantiate = .ok made from hmade]
      rfl
    have hnames : i.argumentNames = [] := by rw [argumentNames, ha]; rfl
    simp only [Deserializer.create, hdshape, Document.seenAs, Document.ofEntries, hcreators,
      hinstantiate, hd.fillEntries_eq h, hnames]
    simp
  · have hcreators : d.usesCreators = true := by
      rw [Deserializer.usesCreators, hd.creators, ha]
      rfl
    have hinstantiate :
        i.instantiateWith (collected i b (es.map (·.1))).arguments = .ok made := by
      rw [remake, ha] at hmade
      rw [collected, ha]
      exact hmade
    have hcollect := hd.collectEntries_eq htypes h
    simp only [Deserializer.create, hdshape, Document.seenAs, Document.ofEntries, hcreators,
      hcollect, if_true]
    show d.complete _ = _
    rw [hd.complete_eq hrequired hinstantiate]
    rfl

/-- So they are if they carry the values of their properties. -/
theorem Codec.Reads.create_ofEntries {d : Deserializer σ} (hd : c.Reads i d)
    (hshape : c.config.shape = .object)
    (htypes : ∀ a ∈ i.arguments, ∀ p ∈ i.properties, a.externalName = p.externalName →
      a.valueType = p.valueType)
    {es : List (String × Json)} (h : ∀ e ∈ es, ∃ p, i.Carries r b e p)
    (hrequired : ∀ a ∈ i.arguments, a.annotations.metadata.required = true →
      a.externalName ∈ es.map (·.1))
    {made : Bean σ} (hmade : i.remake b (es.map (·.1)) = .ok made) :
    d.create (.ofEntries r es) = Deserializer.fill (.ok made)
      (d.setAll (i.assignments b
        ((es.map (·.1)).filter fun name => name ∉ i.argumentNames))) :=
  hd.create_of_delivers hshape htypes (fun e he => (h e he).imp fun _ hp => hp.delivers) hrequired
    hmade

theorem Codec.Introspects.read_eq (hc : c.Introspects registry i) {d : Deserializer σ}
    (hd : (c.introspectedProperties i).build = .ok d) (ss : List (BeanType × Serializer σ))
    {document : Document} {back : Bean σ} (hcreate : d.create document = .ok back)
    (hback : back.type = i.type) :
    (c.read i.type document ⟨registry, ss, []⟩).result = .ok back := by
  rw [result_read, hc.buildDeserializer, hd]
  show (d.create document >>= ofType i.type) = _
  rw [hcreate]
  show ofType i.type back = _
  rw [ofType, if_pos hback]

/-- The names that no argument claims are those of properties that can be set. -/
theorem Introspection.Restorable.assignable (hr : i.Restorable r b) {es : List (String × Json)}
    (h : ∀ e ∈ es, ∃ p, i.Carries r b e p) :
    ∀ name ∈ (es.map (·.1)).filter fun name => name ∉ i.argumentNames,
      ∃ p, i.named name = some p ∧ p.isReadable = true ∧ p.value b = .ok (i.valueOf b name) ∧
        i.Restores b p := by
  intro name hname
  rw [List.mem_filter, decide_eq_true_eq] at hname
  obtain ⟨e, he, rfl⟩ := List.mem_map.mp hname.1
  obtain ⟨p, hp⟩ := h e he
  obtain ⟨hpm, hpn⟩ := named_mem hp.named
  refine ⟨p, hp.named, hr.readable p hpm, hp.value, hr.restores p hpm ?_⟩
  rcases hr.settable p hpm with hw | ⟨a, ha, han, -⟩
  · exact hw
  · exact absurd (List.mem_map.mpr ⟨a, ha, han.trans hpn⟩) hname.2

/-! ## The round trip -/

/--
**What was written is read back, whatever the order of the entries.**

Let a bean of an introspected type be written, without meeting itself and with an entry
for each required argument. If the bean that is remade from these entries agrees with it
on all properties that arguments claim and on all that were left out, then reading the
entries in any order gives a bean that agrees with it on every property. An argument must
have the type of the property whose name it shares, since the entry of that name goes to
the argument even where the property could be set.
-/
theorem read_written_eq (hi : i.WellFormed) (hc : c.Introspects registry i)
    (hshape : c.config.shape = .object) {mode : Mode} {depth : Nat} (hb : b.type = i.type)
    (hr : i.Restorable ⟨mode, Json.maxDepth - depth - 1⟩ b)
    (htypes : ∀ a ∈ i.arguments, ∀ p ∈ i.properties, a.externalName = p.externalName →
      a.valueType = p.valueType)
    (hself : ∀ p ∈ i.properties,
      ¬ ((SerializationBinder.ofConfig c.config).synthesize p).MeetsSelf b)
    {es : List (String × Json)}
    (hes : (c.write b (.ofRegistry registry)).result = .ok (.record es))
    (hrequired : ∀ a ∈ i.arguments, a.annotations.metadata.required = true →
      a.externalName ∈ es.map (·.1))
    {made : Bean σ} (hmade : i.remake b (es.map (·.1)) = .ok made)
    (hagree : ∀ p ∈ i.properties,
      p.externalName ∈ i.argumentNames ∨ p.externalName ∉ es.map (·.1) →
        p.value made = p.value b)
    {es' : List (String × Json)} (hperm : es'.Perm es) :
    ∃ back, (c.read i.type (.ofJson mode depth (.record es'))
        (c.write b (.ofRegistry registry)).state).result = .ok back ∧
      ∀ p ∈ i.properties, p.value back = p.value b := by
  obtain ⟨s, hstate, hfields⟩ := hc.of_write hshape hb hes
  have hcarries : ∀ e ∈ es', (∃ p, i.Carries _ b e p) ∧ e.2.colonFault = none :=
    fun e he => hr.carries hself hfields (hperm.mem_iff.mp he)
  have hnames : ∀ name, name ∈ es'.map (·.1) ↔ name ∈ es.map (·.1) :=
    fun name => (hperm.map _).mem_iff
  obtain ⟨d, hbuild, hd⟩ := c.exists_reads hi hr.propertyNames hr.argumentNames
  have hcreate := hd.create_ofEntries hshape htypes
    (fun e he => (hcarries e he).1) (fun a ha hreq => (hnames _).mpr (hrequired a ha hreq))
    (remake_congr (b := b) hnames ▸ hmade)
  obtain ⟨back, hset, hback, hsame⟩ := setAll_assignments (d := d) hr.propertyNames
    (hr.assignable fun e he => (hcarries e he).1) (type_remake hmade)
  refine ⟨back, ?_, ?_⟩
  · have hcreated : d.create (.ofJson mode depth (.record es')) = .ok back := by
      rw [Document.ofJson_record fun e he => (hcarries e he).2, hcreate]
      exact Deserializer.fill_ok hset
    rw [hstate]
    exact hc.read_eq hbuild _ hcreated hback
  · intro p hp
    refine hsame p hp ?_
    by_cases hclaimed : p.externalName ∈ i.argumentNames ∨ p.externalName ∉ es.map (·.1)
    · exact .inr (hagree p hp hclaimed)
    · -- an entry that no argument claims was assigned
      rw [not_or, not_not] at hclaimed
      left
      rw [List.mem_filter, hnames, decide_eq_true_eq]
      exact ⟨hclaimed.2, hclaimed.1⟩

/-! ### Pairs -/

namespace Pair

/-- Writing the right side of a pair gives it the value, and leaves the left side. -/
theorem restores_right (b : Bean (Tree × Tree)) (hb : b.type = type) :
    (made fixedLeft).Restores b rightProperty := by
  intro v hv bean hbean
  rw [rightProperty, Part.value_property hb] at hv
  cases hv
  refine ⟨_, Part.write_property hbean _, hbean, Part.value_write_self hbean _, ?_⟩
  intro q hq hne
  rcases List.mem_pair.mp hq with rfl | rfl
  · have hleft : ∀ t, leftProperty.value { bean with state := right.set bean.state t } =
        leftProperty.value bean := fun t => Part.value_write_apart right_apart_left hbean t
    exact hleft _
  · exact absurd rfl hne

/-- A pair can be taken apart and put back if its left side is handed to the constructor. -/
theorem made_restorable (room : Nat) :
    (made fixedLeft).Restorable ⟨.streamed, room⟩ (of 1 2) where
  propertyNames := by decide
  argumentNames := by decide
  readable := by
    intro p hp
    rcases List.mem_pair.mp hp with rfl | rfl
    · rfl
    · rfl
  settable := by
    intro p hp
    rcases List.mem_pair.mp hp with rfl | rfl
    · exact .inr ⟨_, List.mem_singleton.mpr rfl, rfl, rfl⟩
    · exact .inl rfl
  restores := by
    intro p hp hw
    rcases List.mem_pair.mp hp with rfl | rfl
    · cases hw
    · exact restores_right _ rfl
  decodes := by
    intro p hp v j hv hj
    rcases List.mem_pair.mp hp with rfl | rfl
    · cases hv
      cases hj
      rfl
    · cases hv
      cases hj
      rfl

/-- A pair whose left side has an argument of its name, but of another type. -/
def retyped : Introspection (Tree × Tree) :=
  (((Introspection.declare type).withProperty leftProperty).withArgument
    (.declare "left" ⟨"text", .text⟩)).withConstructor (pure (of 0 0).state)

end Pair

/-- A pair is read back with the right side first, though its left side is needed first. -/
theorem pair_read_back :
    let st := .ofRegistry ⟨[Pair.made Pair.fixedLeft]⟩
    let one := .number (.ofInt 1)
    let two := .number (.ofInt 2)
    let reversed := Json.record [("right", two), ("left", one)]
    (Pair.codec.write (Pair.of 1 2) st).result = .ok (.record [("left", one), ("right", two)]) ∧
      ∃ back, (Pair.codec.read Pair.type (.ofJson .streamed 0 reversed)
          (Pair.codec.write (Pair.of 1 2) st).state).result = .ok back ∧
        ∀ p ∈ (Pair.made Pair.fixedLeft).properties, p.value back = p.value (Pair.of 1 2) := by
  intro st one two reversed
  have hwrite : (Pair.codec.write (Pair.of 1 2) st).result =
      .ok (.record [("left", one), ("right", two)]) := rfl
  have hdeclared : (Pair.made Pair.fixedLeft).Declared :=
    ((((Introspection.Declared.declare _).withProperty _).withProperty _).withArgument
      _).withConstructor _
  have hmade : (Pair.made Pair.fixedLeft).remake (Pair.of 1 2) ["left", "right"] =
      .ok (Pair.of 1 0) := rfl
  refine ⟨hwrite, read_written_eq hdeclared.wellFormed (Pair.codec_introspects _) rfl rfl
    (Pair.made_restorable _) ?_ ?_ hwrite ?_ hmade ?_ (List.Perm.swap _ _ [])⟩
  · intro a ha p hp hname
    cases List.mem_singleton.mp ha
    rcases List.mem_pair.mp hp with rfl | rfl
    · rfl
    · rfl
  · rintro p hp ⟨-, reading, hread, -, hyields⟩
    rcases List.mem_pair.mp hp with rfl | rfl
    · cases hread
      cases hyields
    · cases hread
      cases hyields
  · intro a ha hrequired
    cases List.mem_singleton.mp ha
    cases hrequired
  · intro p hp hor
    rcases List.mem_pair.mp hp with rfl | rfl
    · rfl
    · exact absurd hor (by decide)

namespace Pair

/-- The pair of zeros meets all that is asked, up to the type of the argument. -/
theorem retyped_restorable (room : Nat) :
    retyped.Restorable ⟨.streamed, room⟩ (of 0 0) where
  propertyNames := by decide
  argumentNames := by decide
  readable := by
    intro p hp
    cases List.mem_singleton.mp hp
    rfl
  settable := by
    intro p hp
    cases List.mem_singleton.mp hp
    exact .inl rfl
  restores := by
    intro p hp _ v hv bean hbean
    cases List.mem_singleton.mp hp
    cases hv
    refine ⟨_, Part.write_property hbean _, hbean, Part.value_write_self hbean _, ?_⟩
    intro q hq hne
    exact absurd (List.mem_singleton.mp hq) hne
  decodes := by
    intro p hp v j hv hj
    cases List.mem_singleton.mp hp
    cases hv
    cases hj
    rfl

end Pair

/-- The entry of a property that can be set goes to the argument of its name, whatever its type. -/
theorem retyped_not_read_back :
    let st := .ofRegistry ⟨[Pair.retyped]⟩
    let written := Json.record [("left", .number (.ofInt 0))]
    Pair.retyped.Declared ∧ Pair.codec.Introspects ⟨[Pair.retyped]⟩ Pair.retyped ∧
      Pair.codec.config.shape = .object ∧
      (∀ room, Pair.retyped.Restorable ⟨.streamed, room⟩ (Pair.of 0 0)) ∧
      (∀ p ∈ Pair.retyped.properties,
        ¬ ((SerializationBinder.ofConfig .default).synthesize p).MeetsSelf (Pair.of 0 0)) ∧
      (∀ a ∈ Pair.retyped.arguments, a.annotations.metadata.required = false) ∧
      (Pair.codec.write (Pair.of 0 0) st).result = .ok written ∧
      Pair.retyped.remake (Pair.of 0 0) ["left"] = .ok (Pair.of 0 0) ∧
      (Pair.codec.read Pair.type (.ofJson .streamed 0 written)
        (Pair.codec.write (Pair.of 0 0) st).state).result =
          .error (.value (.mismatch (.integer 0) "a string")) := by
  intro st written
  refine ⟨(((Introspection.Declared.declare _).withProperty _).withArgument _).withConstructor _,
    Pair.codec_introspects _, rfl, Pair.retyped_restorable, ?_, ?_, rfl, rfl, rfl⟩
  · rintro p hp ⟨-, reading, hread, -, hyields⟩
    cases List.mem_singleton.mp hp
    cases hread
    cases hyields
  · intro a ha
    cases List.mem_singleton.mp ha
    rfl

end BeanBinding
