import BeanBinding.Proofs.Describing
import BeanBinding.Proofs.Using

/-!
# Binding changes nothing that is written

A bound writer reads through an introspected property instead of its own member, and
keeps all its rules. The rules look at two things only: the value that was read, and
whether it is the bean itself. So a writer may be bound to any property whose readings
agree with those of its member in these two, wherever the values live.

Hence a codec that binds introspections refuses the same drafts as one that does not, and
what it builds writes the same for every bean.
-/

namespace BeanBinding

variable {σ : Type}

/-! ## Writers -/

/-- What a writer can tell about a reading: the value, and whether it is the bean itself. -/
def Bean.seen (bean : Bean σ) (x : Except AccessError (Option Reading)) :
    Except AccessError (Option (Value × Bool)) :=
  x.map (Option.map fun r => (r.value, bean.yieldsItself r))

/-- Two writers that nobody can tell apart by what they write for a bean. -/
structure Writer.Alike (v w : Writer σ) (bean : Bean σ) : Prop where
  name : v.name = w.name
  field : v.field bean = w.field bean
  placeholder : v.placeholder = w.placeholder

namespace Writer

variable {w : Writer σ} {bean : Bean σ}

/-- A writer decides by what it sees. -/
theorem emit_eq_seen (w : Writer σ) (bean : Bean σ) :
    w.emit bean =
      if w.accessor.readable then
        match bean.seen (w.accessor.read bean) with
        | .error e => .error (.access bean.type.name w.name e)
        | .ok none => .ok w.emitNull
        | .ok (some (v, itself)) =>
          if w.suppresses v then .ok .nothing
          else if itself then w.emitSelf bean.type.name v
          else .ok (.value v w.serializer)
      else .ok .nothing := by
  rw [emit]
  cases w.accessor.read bean with
  | error e => rfl
  | ok reading =>
    cases reading with
    | none => rfl
    | some r => rfl

/-- **Another accessor that sees the same leaves the decision as it is.** -/
theorem emit_rebind {type : ValueType} {accessor : Accessor σ}
    (hreadable : accessor.readable = w.accessor.readable)
    (hseen : bean.seen (accessor.read bean) = bean.seen (w.accessor.read bean)) :
    (w.rebind type accessor).emit bean = w.emit bean := by
  rw [emit_eq_seen, emit_eq_seen]
  simp only [rebind, hreadable, hseen]
  rfl

theorem alike_rebind {type : ValueType} {accessor : Accessor σ}
    (hreadable : accessor.readable = w.accessor.readable)
    (hseen : bean.seen (accessor.read bean) = bean.seen (w.accessor.read bean)) :
    (w.rebind type accessor).Alike w bean where
  name := rfl
  field := by
    rw [field, field, emit_rebind hreadable hseen]
    rfl
  placeholder := rfl

theorem Alike.refl (w : Writer σ) (bean : Bean σ) : w.Alike w bean := ⟨rfl, rfl, rfl⟩

theorem Alike.element {v : Writer σ} (h : v.Alike w bean) : v.element bean = w.element bean := by
  rw [Writer.element, Writer.element, h.field, h.placeholder]

end Writer

/-- A writer is bound to its target only, and then writes what it wrote before. -/
theorem SerializationBinder.alike_bind {i : Introspection σ} {w : Writer σ} {bean : Bean σ}
    (hreadable : w.accessor.readable = true)
    (hseen : ∀ p, target i w = some p →
      bean.seen (p.read bean) = bean.seen (w.accessor.read bean)) :
    (bind i w).Alike w bean := by
  cases ht : target i w with
  | none =>
    rw [bind_of_target_none ht]
    exact .refl w bean
  | some p =>
    have hp : p.isReadable = true := (Option.filter_eq_some_iff.mp ht).2
    rw [bind_of_target ht]
    exact Writer.alike_rebind (hp.trans hreadable.symm) (hseen p ht)

theorem SerializationBinder.name_bind (i : Introspection σ) (w : Writer σ) :
    (bind i w).name = w.name := by
  unfold bind
  split
  · rfl
  · rfl

/-! ## Serializers -/

namespace Serializer

variable {bean : Bean σ} {vs ws : List (Writer σ)} {type : BeanType} {shape : Shape}

theorem fields_congr (h : List.Forall₂ (Writer.Alike · · bean) vs ws) :
    fields bean vs = fields bean ws := by
  induction h with
  | nil => rfl
  | cons hfirst _ ih => rw [fields, fields, hfirst.field, hfirst.name, ih]

theorem elements_congr (h : List.Forall₂ (Writer.Alike · · bean) vs ws) :
    elements bean vs = elements bean ws := by
  induction h with
  | nil => rfl
  | cons hfirst _ ih => rw [elements, elements, hfirst.element, ih]

/-- Writers that are alike, one by one, write the same. -/
theorem serialize_congr
    (h : bean.type = type → List.Forall₂ (Writer.Alike · · bean) vs ws) :
    serialize ⟨type, shape, vs⟩ bean = serialize ⟨type, shape, ws⟩ bean := by
  rw [serialize, serialize]
  by_cases hb : bean.type = type
  · rw [if_neg (not_not.mpr hb), if_neg (not_not.mpr hb)]
    cases shape with
    | object => simp only [fields_congr (h hb)]
    | array => simp only [elements_congr (h hb)]
  · rw [if_pos hb, if_pos hb]

/-- Replacing writers by writers alike shows in nothing that is written. -/
theorem serialize_map {f : Writer σ → Writer σ}
    (h : ∀ bean : Bean σ, bean.type = type → ∀ w ∈ ws, (f w).Alike w bean) :
    serialize ⟨type, shape, ws.map f⟩ = serialize ⟨type, shape, ws⟩ := by
  funext bean
  refine serialize_congr fun hb => ?_
  rw [List.forall₂_map_left_iff, List.forall₂_same]
  exact h bean hb

end Serializer

/-- A draft builds alike if its writers keep their names and what they write. -/
theorem SerializerDraft.build_map {draft : SerializerDraft σ} {f : Writer σ → Writer σ}
    (hnames : ∀ w, (f w).name = w.name)
    (h : ∀ bean : Bean σ, bean.type = draft.bean → ∀ w ∈ draft.writers, (f w).Alike w bean)
    (hook : Option (BeanType → CodecError → List Note)) :
    ({ draft with writers := draft.writers.map f, onBuildError := hook }).build.map
        Serializer.serialize =
      draft.build.map Serializer.serialize := by
  have hproblem :
      ({ draft with writers := draft.writers.map f, onBuildError := hook }).problem =
        draft.problem := by
    refine problem_congr ?_ rfl
    rw [List.map_map]
    exact List.map_congr_left fun w _ => hnames w
  rw [build, build, hproblem]
  cases draft.problem with
  | some p => rfl
  | none => exact congrArg Except.ok (Serializer.serialize_map h)

/-! ## Codecs -/

namespace Codec

variable {c : Codec σ} {registry : Registry σ} {d : Description σ} {i : Introspection σ}

/-- Wherever the binder finds a property for a readable member, both see the same. -/
def SeesAlike (d : Description σ) (i : Introspection σ) : Prop :=
  ∀ m ∈ d.members, m.property.isReadable = true →
    ∀ p, SerializationBinder.match? i m.name = some p → p.isReadable = true →
      ∀ bean : Bean σ, bean.type = d.bean →
        bean.seen (p.read bean) = bean.seen (m.property.read bean)

/-- The writers of a description are bound one by one, if there are any. -/
theorem boundWriters_eq (hm : ∃ m ∈ d.members, m.property.isReadable = true) :
    c.boundWriters d i =
      { SerializerDraft.ofDescription d c.config with
        writers := (SerializerDraft.ofDescription d c.config).writers.map
          (SerializationBinder.bind i)
        onBuildError := some noteBuildError } := by
  obtain ⟨m, hmem, hreadable⟩ := hm
  have hw : SerializerDraft.writerOf c.config m ∈
      (SerializerDraft.ofDescription d c.config).writers :=
    mem_writers_ofDescription.mpr ⟨m, hmem, hreadable, rfl⟩
  have hne : (SerializerDraft.ofDescription d c.config).writers.isEmpty = false := by
    cases hws : (SerializerDraft.ofDescription d c.config).writers with
    | nil => rw [hws] at hw; cases hw
    | cons => rfl
  -- there are writers to bind, so none are made from the properties
  simp only [boundWriters, SerializationBinder.adjust, SerializationBinder.synthesizes, hne,
    Bool.false_and, Bool.false_eq_true, if_false]

/-- The writers of members are alike before and after they are bound. -/
theorem SeesAlike.bind (h : SeesAlike d i) (config : Config) {bean : Bean σ}
    (hb : bean.type = d.bean) {w : Writer σ}
    (hw : w ∈ (SerializerDraft.ofDescription d config).writers) :
    (SerializationBinder.bind i w).Alike w bean := by
  obtain ⟨m, hm, hreadable, rfl⟩ := mem_writers_ofDescription.mp hw
  refine SerializationBinder.alike_bind (by rw [accessor_writerOf]; exact hreadable) ?_
  intro p hp
  obtain ⟨hmatch, hpr⟩ := Option.filter_eq_some_iff.mp hp
  rw [name_writerOf] at hmatch
  rw [accessor_writerOf]
  exact h m hm hreadable p hmatch hpr bean hb

theorem Binds.serializers_eq {plain : Codec σ} (hc : c.Binds registry d i)
    (hp : plain.Describes registry d) (hconfig : c.config = plain.config)
    (hm : ∃ m ∈ d.members, m.property.isReadable = true) (h : SeesAlike d i) :
    (c.buildSerializer registry d.bean).value.map Serializer.serialize =
      (plain.buildSerializer registry d.bean).value.map Serializer.serialize := by
  rw [hc.buildSerializer, hp.buildSerializer, boundWriters_eq hm, hconfig]
  exact SerializerDraft.build_map (SerializationBinder.name_bind i)
    (fun bean hb w hw => h.bind plain.config hb hw) _

/-- What is written depends on the serializer through what it writes alone. -/
theorem write_eq_of_serializers_eq {plain : Codec σ} {type : BeanType}
    (h : (c.buildSerializer registry type).value.map Serializer.serialize =
      (plain.buildSerializer registry type).value.map Serializer.serialize)
    {bean : Bean σ} (hb : bean.type = type) :
    (c.write bean (.ofRegistry registry)).result =
      (plain.write bean (.ofRegistry registry)).result := by
  rw [result_write, result_write, hb]
  cases hc : (c.buildSerializer registry type).value with
  | error e =>
    cases hp : (plain.buildSerializer registry type).value with
    | error e' =>
      rw [hc, hp] at h
      cases h
      rfl
    | ok s =>
      rw [hc, hp] at h
      cases h
  | ok s =>
    cases hp : (plain.buildSerializer registry type).value with
    | error e =>
      rw [hc, hp] at h
      cases h
    | ok s' =>
      rw [hc, hp] at h
      exact congrFun (Except.ok.inj h) bean

end Codec

/--
**Binding introspections changes nothing that is written.**

Let a described type have a member that can be read, and an introspection in which every
property that the binder finds for a readable member sees on each bean what the member
sees. Then a codec with the introspection module and one without it fail to build the
serializer with the same error, or build serializers that write the same for every bean,
or fail to write it with the same error.
-/
theorem bound_writers_write_alike (config : Config) (ds : List (Description σ))
    (registry : Registry σ) {d : Description σ} {i : Introspection σ}
    (hd : (Codec.setup config ds []).description d.bean = some d)
    (hi : registry.find d.bean = some i)
    (hm : ∃ m ∈ d.members, m.property.isReadable = true) (h : Codec.SeesAlike d i) :
    let plain := Codec.setup config ds []
    let bound := Codec.setup config ds [introspectionModule]
    (bound.buildSerializer registry d.bean).value.map Serializer.serialize =
        (plain.buildSerializer registry d.bean).value.map Serializer.serialize ∧
      ∀ bean, bean.type = d.bean →
        (bound.write bean (.ofRegistry registry)).result =
          (plain.write bean (.ofRegistry registry)).result := by
  intro plain bound
  have hserializers : (bound.buildSerializer registry d.bean).value.map Serializer.serialize =
      (plain.buildSerializer registry d.bean).value.map Serializer.serialize := by
    cases hconfig : config.useIntrospection with
    | false =>
      have hsame : bound = plain := Codec.setup_module_of_unused hconfig
      rw [hsame]
    | true =>
      exact (Codec.binds_setup hconfig hd hi).serializers_eq (Codec.describes_setup hd) rfl hm h
  exact ⟨hserializers, fun bean hb => Codec.write_eq_of_serializers_eq hserializers hb⟩

/-! ### Pairs whose right side is copied for the reader -/

namespace Pair

/-- The right side, which is made anew for each reader. -/
def copiedRight : Property (Tree × Tree) := rightProperty.getterOwned right.get

/-- The introspection of pairs that hands out copies of the right side. -/
def copied : Introspection (Tree × Tree) := (Introspection.declare type).withProperty copiedRight

/-- A copy is the same value, and no more the bean itself than the part. -/
theorem rightOnly_seesAlike : Codec.SeesAlike rightOnly copied := by
  intro m hm _ p hp _ bean (hb : bean.type = type)
  cases List.mem_singleton.mp hm
  cases hp
  have hpart : rightProperty.read bean = .ok (some ⟨⟨number, right.get bean.state⟩, .part⟩) :=
    Part.read_property hb
  have hcopy : copiedRight.read bean =
      .ok (some ⟨⟨number, right.get bean.state⟩, .computed⟩) := by
    show (if bean.type = type then _ else _) = _
    rw [if_pos hb]
    rfl
  show bean.seen _ = bean.seen (rightProperty.read bean)
  rw [hcopy, hpart]
  rfl

end Pair

/-- A pair whose right side is copied is written as if it were not. -/
theorem copied_pair_written_alike :
    let registry : Registry (Tree × Tree) := ⟨[Pair.copied]⟩
    let plain := Codec.setup .default [Pair.rightOnly] []
    let bound := Codec.setup .default [Pair.rightOnly] [introspectionModule]
    registry.find Pair.type = some Pair.copied ∧
      (bound.write (Pair.of 1 2) (.ofRegistry registry)).result =
        (plain.write (Pair.of 1 2) (.ofRegistry registry)).result := by
  intro registry plain bound
  have hfind : registry.find Pair.type = some Pair.copied := rfl
  have halike := bound_writers_write_alike .default [Pair.rightOnly] registry
    (d := Pair.rightOnly) rfl hfind ⟨_, List.mem_singleton.mpr rfl, rfl⟩ Pair.rightOnly_seesAlike
  exact ⟨hfind, halike.2 (Pair.of 1 2) rfl⟩

end BeanBinding
