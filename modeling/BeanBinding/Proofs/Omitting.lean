import BeanBinding.Proofs.Delivering
import BeanBinding.Proofs.Placeholders
import BeanBinding.Proofs.RoundTrip

/-!
# What is left out of an object

An inclusion rule decides on a property by its value: null may be left out, or what is
empty, or what equals the declared default. What is left out of an object leaves no trace
in it, so its name is not among the names of the entries, and every other name is.

Whether an argument must be given is declared apart from this, and is not looked at when
a bean is written. So an object can lack an argument because the value was left out, and
then the codec that wrote the object finds it incomplete. There is no other way to this.
-/

namespace BeanBinding

variable {σ : Type}

/-! ## Inclusion rules -/

/-- The declared default of a property, if its type can read it. -/
def Property.declaredDefault (p : Property σ) : Option Value :=
  p.annotations.declaredDefault.bind p.valueType.ofLiteral

/-- Whether a rule leaves out a value of a property, or null. -/
def Inclusion.excludes (rule : Inclusion) (p : Property σ) : Option Value → Bool
  | none => rule ≠ .always
  | some v =>
    match rule with
    | .always | .nonNull => false
    | .nonEmpty => v.isEmpty
    | .nonDefault =>
      match p.declaredDefault with
      | some default => default.same v
      | none => v.isEmpty

/-- A writer leaves out null if it is to, and the values that it suppresses. -/
theorem Writer.leavesOut_iff {w : Writer σ} {bean : Bean σ} (hreadable : w.accessor.readable = true)
    (hnull : w.nullSerializer = none) :
    w.LeavesOut bean ↔ (w.accessor.read bean = .ok none ∧ w.suppressNulls = true) ∨
      ∃ r, w.accessor.read bean = .ok (some r) ∧ w.suppresses r.value = true := by
  rw [Writer.LeavesOut, Writer.emit, if_pos hreadable]
  cases w.accessor.read bean with
  | error e => simp
  | ok reading =>
    cases reading with
    | none =>
      cases hnulls : w.suppressNulls with
      | true => simp [Writer.emitNull, hnull, hnulls]
      | false => simp [Writer.emitNull, hnull, hnulls]
    | some r =>
      cases hsuppressed : w.suppresses r.value with
      | true => simp [hsuppressed]
      | false =>
        -- the value is written, in one form or another, or refused
        simp only [Bool.false_eq_true, if_false, Except.ok.injEq, reduceCtorEq, false_and,
          false_or, Option.some.injEq, exists_eq_left', hsuppressed, iff_false]
        split
        · unfold Writer.emitSelf
          split
          all_goals simp
        · simp

namespace SerializationBinder

variable {b : SerializationBinder} {p : Property σ}

/-- A writer made from a property suppresses what the rule excludes. -/
theorem suppresses_synthesize (b : SerializationBinder) (p : Property σ) :
    (b.synthesize p).suppressNulls = b.inclusion.excludes p none ∧
      ∀ v, (b.synthesize p).suppresses v = b.inclusion.excludes p (some v) := by
  unfold synthesize Writer.withInclusion
  cases b.inclusion with
  | always => exact ⟨rfl, fun _ => rfl⟩
  | nonNull => exact ⟨rfl, fun _ => rfl⟩
  | nonEmpty => exact ⟨rfl, fun _ => rfl⟩
  | nonDefault =>
    refine ⟨rfl, fun v => ?_⟩
    have hdefault : (propertyWriter p).metadata.default.bind
        (propertyWriter p).valueType.ofLiteral = p.declaredDefault := rfl
    simp only [Writer.suppresses, Writer.defaultSuppression, Inclusion.excludes, hdefault]
    cases p.declaredDefault with
    | none => rfl
    | some default => rfl

/-- **A property that can be read is left out exactly if the rule excludes its value.** -/
theorem leavesOut_synthesize_iff (hp : p.isReadable = true) {bean : Bean σ} :
    (b.synthesize p).LeavesOut bean ↔
      ∃ value, p.value bean = .ok value ∧ b.inclusion.excludes p value = true := by
  obtain ⟨hnull, hvalue⟩ := b.suppresses_synthesize p
  obtain ⟨hreadable, -, hnullSerializer⟩ := plain_synthesize (b := b) hp
  have hread : (b.synthesize p).accessor.read bean = p.read bean := by
    rw [accessor_synthesize]
    rfl
  rw [Writer.leavesOut_iff hreadable hnullSerializer, hread, hnull, Property.value]
  simp only [hvalue]
  cases p.read bean with
  | error e => simp [Except.map]
  | ok reading =>
    cases reading with
    | none => simp [Except.map]
    | some reading => simp [Except.map]

end SerializationBinder

/-! ## Names of entries -/

namespace Serializer

variable {bean : Bean σ} {ws : List (Writer σ)} {es : List (String × Json)}

/-- If entries are written, no writer fails. -/
theorem exists_field (h : fields bean ws = .ok es) {w : Writer σ} (hw : w ∈ ws) :
    ∃ written, w.field bean = .ok written := by
  induction ws generalizing es with
  | nil => cases hw
  | cons w' ws ih =>
    rw [fields] at h
    obtain ⟨written, hwritten, h⟩ := bind_eq_ok_iff.mp h
    rcases List.mem_cons.mp hw with rfl | hw
    · exact ⟨written, hwritten⟩
    · cases written with
      | none => exact ih h hw
      | some j =>
        obtain ⟨rest, hrest, -⟩ := bind_eq_ok_iff.mp h
        exact ih hrest hw

/-- A name is missing among the entries exactly if its writer leaves the property out. -/
theorem name_not_mem_iff (h : fields bean ws = .ok es) (hnodup : (ws.map (·.name)).Nodup)
    {w : Writer σ} (hw : w ∈ ws) : w.name ∉ es.map (·.1) ↔ w.LeavesOut bean := by
  rw [← Writer.field_eq_none_iff]
  constructor
  · intro hname
    obtain ⟨written, hwritten⟩ := exists_field h hw
    cases written with
    | none => exact hwritten
    | some j =>
      have hmem : (w.name, j) ∈ es := (mem_fields_iff h).mpr ⟨w, hw, rfl, hwritten⟩
      exact absurd (List.mem_map_of_mem hmem) hname
  · intro hnone hname
    obtain ⟨⟨name, j⟩, hmem, hj⟩ := List.mem_map.mp hname
    obtain ⟨w', hw', hname', hfield⟩ := (mem_fields_iff h).mp hmem
    have hsame : w' = w := List.inj_on_of_nodup_map hnodup hw' hw (hname'.trans hj)
    rw [hsame, hnone] at hfield
    cases hfield

end Serializer

namespace Codec.Introspects

variable {c : Codec σ} {registry : Registry σ} {i : Introspection σ} {b : Bean σ}

/-- Beans are written only if the names of their properties are distinct. -/
theorem nodup_of_write (hc : c.Introspects registry i) (hb : b.type = i.type) {j : Json}
    (h : (c.write b (.ofRegistry registry)).result = .ok j) :
    (i.properties.map (·.externalName)).Nodup := by
  obtain ⟨s, hs, -, -⟩ := Codec.of_write h
  rw [hb, hc.buildSerializer] at hs
  have hnodup := (SerializerDraft.build_eq_ok_iff.mp hs).2.1
  rw [introspectedWriters, List.map_map] at hnodup
  simpa only [Function.comp_def, SerializationBinder.name_synthesize] using hnodup

/-- **The name of a property is missing exactly if the rule excludes its value.** -/
theorem name_not_mem_iff (hc : c.Introspects registry i) (hshape : c.config.shape = .object)
    (hb : b.type = i.type) {es : List (String × Json)}
    (h : (c.write b (.ofRegistry registry)).result = .ok (.record es)) {p : Property σ}
    (hp : p ∈ i.properties) (hreadable : p.isReadable = true) :
    p.externalName ∉ es.map (·.1) ↔
      ∃ value, p.value b = .ok value ∧ c.config.inclusion.excludes p value = true := by
  obtain ⟨s, -, hfields⟩ := hc.of_write hshape hb h
  have hnodup : ((i.properties.map (SerializationBinder.ofConfig c.config).synthesize).map
      (·.name)).Nodup := by
    rw [List.map_map]
    simpa only [Function.comp_def, SerializationBinder.name_synthesize] using
      hc.nodup_of_write hb h
  have hiff := Serializer.name_not_mem_iff hfields hnodup (List.mem_map_of_mem hp)
  rw [SerializationBinder.name_synthesize,
    SerializationBinder.leavesOut_synthesize_iff hreadable] at hiff
  exact hiff

end Codec.Introspects

/-! ## Arguments that are required and left out -/

/-- An argument must be given, and the property of its name is left out. -/
structure Introspection.Withholds (i : Introspection σ) (rule : Inclusion) (b : Bean σ)
    (a : Argument) : Prop where
  required : a.annotations.metadata.required = true
  leftOut : ∃ p ∈ i.properties, p.isReadable = true ∧ p.externalName = a.externalName ∧
    ∃ value, p.value b = .ok value ∧ rule.excludes p value = true

section

variable {c : Codec σ} {registry : Registry σ} {i : Introspection σ} {b : Bean σ}
  {es : List (String × Json)} (hc : c.Introspects registry i) (hshape : c.config.shape = .object)
  (hb : b.type = i.type) (hes : (c.write b (.ofRegistry registry)).result = .ok (.record es))
  (hclaimed : ∀ a ∈ i.arguments, a.annotations.metadata.required = true →
    ∃ p ∈ i.properties, p.isReadable = true ∧ p.externalName = a.externalName)

include hc hshape hb hes

/-- All entries stand at their places in the document. -/
theorem Codec.Introspects.ofJson_written (mode : Mode) (depth : Nat) :
    Document.ofJson mode depth (.record es) = .ofEntries ⟨mode, Json.maxDepth - depth - 1⟩ es := by
  obtain ⟨s, -, hfields⟩ := hc.of_write hshape hb hes
  refine Document.ofJson_record fun e he => ?_
  obtain ⟨w, -, -, hfield⟩ := (Serializer.mem_fields_iff hfields).mp he
  exact Writer.colonFault_of_field hfield

include hclaimed

/-- A required argument is withheld exactly if no entry has its name. -/
theorem Codec.Introspects.withholds_iff {a : Argument} (ha : a ∈ i.arguments) :
    i.Withholds c.config.inclusion b a ↔
      a.annotations.metadata.required = true ∧ a.externalName ∉ es.map (·.1) := by
  constructor
  · rintro ⟨hrequired, p, hp, hreadable, hname, hexcluded⟩
    refine ⟨hrequired, ?_⟩
    rw [← hname]
    exact (hc.name_not_mem_iff hshape hb hes hp hreadable).mpr hexcluded
  · rintro ⟨hrequired, hmissing⟩
    obtain ⟨p, hp, hreadable, hname⟩ := hclaimed a ha hrequired
    rw [← hname] at hmissing
    exact ⟨hrequired, p, hp, hreadable, hname,
      (hc.name_not_mem_iff hshape hb hes hp hreadable).mp hmissing⟩

/-- The first argument that is missing is the first that is withheld. -/
theorem Codec.Introspects.firstMissing_eq_some_iff {a : Argument} :
    i.firstMissing (es.map (·.1)) = some a ↔
      ∃ before after, i.arguments = before ++ a :: after ∧
        i.Withholds c.config.inclusion b a ∧
          ∀ a' ∈ before, ¬ i.Withholds c.config.inclusion b a' := by
  simp only [Introspection.firstMissing, List.find?_eq_some_iff_append, Bool.not_eq_true',
    Bool.eq_false_iff, ne_eq, Bool.and_eq_true, decide_eq_true_eq]
  constructor
  · rintro ⟨hmissing, before, after, hsplit, hbefore⟩
    have ha : a ∈ i.arguments := by simp [hsplit]
    refine ⟨before, after, hsplit, (hc.withholds_iff hshape hb hes hclaimed ha).mpr hmissing, ?_⟩
    intro a' ha' hwithheld
    have hmem : a' ∈ i.arguments := by simp [hsplit, ha']
    exact hbefore a' ha' ((hc.withholds_iff hshape hb hes hclaimed hmem).mp hwithheld)
  · rintro ⟨before, after, hsplit, hwithheld, hbefore⟩
    have ha : a ∈ i.arguments := by simp [hsplit]
    refine ⟨(hc.withholds_iff hshape hb hes hclaimed ha).mp hwithheld, before, after, hsplit, ?_⟩
    intro a' ha'
    have hmem : a' ∈ i.arguments := by simp [hsplit, ha']
    exact mt (hc.withholds_iff hshape hb hes hclaimed hmem).mpr (hbefore a' ha')

end

/--
**A codec finds its own object incomplete exactly if it withheld an argument.**

Let a bean of an introspected type be written as an object, where each required argument
shares its name with a property that can be read. When the object is read again, an
argument is reported as missing exactly if it is the first one whose property was left
out, because the inclusion rule excludes the value that it has on the bean, and all
entries that were written are accepted. So nothing is ever missing if everything is
included.
-/
theorem own_object_incomplete_iff {c : Codec σ} {registry : Registry σ} {i : Introspection σ}
    (hi : i.WellFormed) (hc : c.Introspects registry i) (hshape : c.config.shape = .object)
    (hclaimed : ∀ a ∈ i.arguments, a.annotations.metadata.required = true →
      ∃ p ∈ i.properties, p.isReadable = true ∧ p.externalName = a.externalName)
    {b : Bean σ} (hb : b.type = i.type) {es : List (String × Json)}
    (hes : (c.write b (.ofRegistry registry)).result = .ok (.record es))
    (mode : Mode) (depth : Nat) :
    let st := (c.write b (.ofRegistry registry)).state
    let outcome := (c.read i.type (.ofJson mode depth (.record es)) st).result
    (∀ type name, outcome = .error (.codec (.missingProperty type name)) ↔
      (∃ d, (c.deserializerFor i.type st).result = .ok d ∧
        ∀ e ∈ es, d.Accepts ⟨mode, Json.maxDepth - depth - 1⟩ e) ∧
      type = i.type.name ∧ ∃ before a after, i.arguments = before ++ a :: after ∧
        a.externalName = name ∧ i.Withholds c.config.inclusion b a ∧
          ∀ a' ∈ before, ¬ i.Withholds c.config.inclusion b a') ∧
      (c.config.inclusion = .always →
        ∀ type name, outcome ≠ .error (.codec (.missingProperty type name))) := by
  obtain ⟨kept, hstate, -⟩ := hc.of_write hshape hb hes
  rw [hstate, hc.ofJson_written hshape hb hes]
  intro st outcome
  have hmissing : ∀ type name, outcome = .error (.codec (.missingProperty type name)) ↔
      (∃ d, (c.deserializerFor i.type st).result = .ok d ∧
        ∀ e ∈ es, d.Accepts ⟨mode, Json.maxDepth - depth - 1⟩ e) ∧
      type = i.type.name ∧ ∃ before a after, i.arguments = before ++ a :: after ∧
        a.externalName = name ∧ i.Withholds c.config.inclusion b a ∧
          ∀ a' ∈ before, ¬ i.Withholds c.config.inclusion b a' := by
    intro type name
    have hfirst := fun a => hc.firstMissing_eq_some_iff hshape hb hes hclaimed (a := a)
    show (c.read i.type _ ⟨registry, _, []⟩).result = _ ↔
      (∃ d, (c.deserializerFor i.type ⟨registry, _, []⟩).result = _ ∧ _) ∧ _
    rw [Codec.result_read, Codec.result_deserializerFor, hc.buildDeserializer]
    cases hd : (c.introspectedProperties i).build with
    | error e =>
      -- a deserializer that cannot be built is another error, and accepts nothing
      obtain ⟨problem, rfl⟩ := DeserializerDraft.exists_problem_of_build hd
      simp
    | ok d =>
      have hreads := Codec.reads_of_build hi hd
      dsimp only
      rw [Codec.bind_ofType_eq_error_iff (by simp),
        hreads.makesBy.create_eq_missing_iff (hreads.shape.trans hshape), hreads.bean]
      constructor
      · rintro ⟨haccepts, a, ha, rfl, rfl⟩
        obtain ⟨before, after, hsplit, hwithheld, hbefore⟩ := (hfirst a).mp ha
        exact ⟨⟨d, rfl, haccepts⟩, rfl, before, a, after, hsplit, rfl, hwithheld, hbefore⟩
      · rintro ⟨⟨d', hd', haccepts⟩, rfl, before, a, after, hsplit, rfl, hwithheld, hbefore⟩
        cases hd'
        exact ⟨haccepts, a, (hfirst a).mpr ⟨before, after, hsplit, hwithheld, hbefore⟩, rfl, rfl⟩
  refine ⟨hmissing, ?_⟩
  intro hinclusion type name he
  obtain ⟨-, -, before, a, after, -, -, ⟨-, p, -, -, -, value, -, hexcluded⟩, -⟩ :=
    (hmissing type name).mp he
  -- nothing is excluded where everything is included
  rw [hinclusion] at hexcluded
  cases value with
  | none => cases hexcluded
  | some v => cases hexcluded

/-! ### Numbers that need a label -/

namespace Labelled

/-- A codec for objects with some entries left out. -/
def objectCodec (rule : Inclusion) : Codec (Tree × Option Tree) :=
  .setup { Config.default with inclusion := rule } [] [introspectionModule]

/-- The introspection of numbers that are made from their label, which must be given. -/
def demanding : Introspection (Tree × Option Tree) :=
  ((((Introspection.declare type).withProperty number).withProperty label).withArgument
    (.demand "label" text)).withConstructor (do
      let t ← Arguments.takeOpt 0 text
      return (.int .i64 0, t))

theorem demanding_declared : demanding.Declared :=
  ((((Introspection.Declared.declare _).withProperty _).withProperty _).withArgument
    _).withConstructor _

theorem demanding_introspects (rule : Inclusion) :
    (objectCodec rule).Introspects ⟨[demanding]⟩ demanding :=
  Codec.introspects_setup rfl (by simp) (by simp [Registry.find])

theorem demanding_claimed : ∀ a ∈ demanding.arguments, a.annotations.metadata.required = true →
    ∃ p ∈ demanding.properties, p.isReadable = true ∧ p.externalName = a.externalName := by
  intro a ha _
  cases List.mem_singleton.mp ha
  exact ⟨label, List.mem_pair.mpr (.inr rfl), rfl, rfl⟩

end Labelled

/-- A label that is there is written, and then it is not missing. -/
theorem labelled_object_complete :
    let c := Labelled.objectCodec .nonNull
    let st := .ofRegistry ⟨[Labelled.demanding]⟩
    let bean := Labelled.of 1 (some "x")
    let written := .record [("number", .number (.ofInt 1)), ("label", .string "x")]
    (c.write bean st).result = .ok written ∧ ∀ type name,
      (c.read Labelled.type (.ofJson .streamed 0 written) (c.write bean st).state).result ≠
        .error (.codec (.missingProperty type name)) := by
  intro c st bean written
  have hwrite : (c.write bean st).result = .ok written := rfl
  refine ⟨hwrite, fun type name he => ?_⟩
  obtain ⟨hmissing, -⟩ := own_object_incomplete_iff Labelled.demanding_declared.wellFormed
    (Labelled.demanding_introspects .nonNull) rfl Labelled.demanding_claimed rfl hwrite .streamed 0
  obtain ⟨-, -, before, a, after, -, -, ⟨-, p, hp, -, -, value, hvalue, hexcluded⟩, -⟩ :=
    (hmissing type name).mp he
  rcases List.mem_pair.mp hp with rfl | rfl
  · cases hvalue
    cases hexcluded
  · cases hvalue
    cases hexcluded

/-- A label that is null is left out, and then it is missing. -/
theorem own_object_incomplete :
    let c := Labelled.objectCodec .nonNull
    let st := .ofRegistry ⟨[Labelled.demanding]⟩
    let written := Json.record [("number", .number (.ofInt 1))]
    Labelled.demanding.Declared ∧ c.Introspects ⟨[Labelled.demanding]⟩ Labelled.demanding ∧
      c.config.shape = .object ∧
      (∀ a ∈ Labelled.demanding.arguments, a.annotations.metadata.required = true →
        ∃ p ∈ Labelled.demanding.properties,
          p.isReadable = true ∧ p.externalName = a.externalName) ∧
      (c.write (Labelled.of 1 none) st).result = .ok written ∧
      (c.read Labelled.type (.ofJson .streamed 0 written)
        (c.write (Labelled.of 1 none) st).state).result =
          .error (.codec (.missingProperty "Labelled" "label")) := by
  intro c st written
  exact ⟨Labelled.demanding_declared, Labelled.demanding_introspects .nonNull, rfl,
    Labelled.demanding_claimed, rfl, rfl⟩

end BeanBinding
