import BeanBinding.Proofs.Alignment
import BeanBinding.Proofs.Defaults
import BeanBinding.Proofs.Installing

/-!
# Inclusion rules are nested

An inclusion rule is set once, in the settings, and decides on two things in each writer:
whether null is left out, and which values are. The four rules are ordered by what they
leave out. Everything is included by `always`, all but null by `nonNull`, and each of
`nonEmpty` and `nonDefault` leaves out some values besides null. These two cannot be
compared: a default need not be empty, and something empty need not be the default.

All writers of a codec agree with those of a codec under another rule in everything else,
the order in which they stand included. So what a stricter rule leaves out is all that
changes in an object. A stricter rule cannot make a write fail either: it only removes
occasions to fail.
-/

namespace BeanBinding

variable {σ : Type}

/-! ## Rules and writers -/

/-- What the first rule includes, the second includes as well. -/
inductive Inclusion.Within : Inclusion → Inclusion → Prop where
  | refl (rule : Inclusion) : Within rule rule
  | always (rule : Inclusion) : Within rule .always
  | nonEmpty : Within .nonEmpty .nonNull
  | nonDefault : Within .nonDefault .nonNull

/-- The writer with another say on what is left out. -/
def Writer.leaving (w : Writer σ) (suppressNulls : Bool) (suppression : Option Suppression) :
    Writer σ :=
  { w with suppressNulls, suppression }

/-- The first writer does what the second one does, but may leave out more. -/
structure Writer.Stricter (v w : Writer σ) : Prop where
  same : v = w.leaving v.suppressNulls v.suppression
  nulls : w.suppressNulls = true → v.suppressNulls = true
  values : w.suppression = none ∨ v.suppression = w.suppression

namespace Writer

variable {v w : Writer σ}

theorem Stricter.refl (w : Writer σ) : w.Stricter w := ⟨rfl, id, .inr rfl⟩

/-- A stricter rule makes a stricter writer. -/
theorem stricter_withInclusion {rule rule' : Inclusion} (h : rule.Within rule') (w : Writer σ) :
    (w.withInclusion rule).Stricter (w.withInclusion rule') := by
  cases h with
  | refl => exact .refl _
  | always =>
    cases rule with
    | always => exact .refl _
    | nonNull | nonEmpty | nonDefault => exact ⟨rfl, nofun, .inl rfl⟩
  | nonEmpty | nonDefault => exact ⟨rfl, id, .inl rfl⟩

namespace Stricter

variable (h : v.Stricter w)

include h

theorem name : v.name = w.name := by
  rw [h.same]
  rfl

/-- Neither other serializers nor another policy make a difference. -/
theorem withRules (serializer : Option ValueSerializer) (nullSerializer : Option Value)
    (selfReference : SelfReference) :
    Stricter { v with serializer, nullSerializer, selfReference }
      { w with serializer, nullSerializer, selfReference } where
  same := congrArg (fun u : Writer σ => { u with serializer, nullSerializer, selfReference }) h.same
  nulls := h.nulls
  values := h.values

theorem withSelfReference (selfReference : SelfReference) :
    Stricter { v with selfReference } { w with selfReference } where
  same := congrArg (fun u : Writer σ => { u with selfReference }) h.same
  nulls := h.nulls
  values := h.values

theorem rebind (type : ValueType) (accessor : Accessor σ) :
    (v.rebind type accessor).Stricter (w.rebind type accessor) where
  same := congrArg (Writer.rebind · type accessor) h.same
  nulls := h.nulls
  values := h.values

/-- Writers of one name are bound to one property. -/
theorem bind (i : Introspection σ) :
    (SerializationBinder.bind i v).Stricter (SerializationBinder.bind i w) := by
  unfold SerializationBinder.bind
  rw [h.name]
  split
  · exact h.rebind _ _
  · exact h

/-! ### What is written -/

theorem suppresses {value : Value} (hw : w.suppresses value = true) :
    v.suppresses value = true := by
  obtain ⟨nulls, suppression, rfl⟩ : ∃ nulls suppression, v = w.leaving nulls suppression :=
    ⟨_, _, h.same⟩
  rcases h.values with hnone | hsame
  · rw [Writer.suppresses, hnone] at hw
    cases hw
  · cases hsame
    exact hw

theorem emitNull : v.emitNull = w.emitNull ∨ v.emitNull = .nothing := by
  have hserializer : v.nullSerializer = w.nullSerializer := by
    rw [h.same]
    rfl
  rw [Writer.emitNull, Writer.emitNull, hserializer]
  cases w.nullSerializer with
  | some fixed => exact .inl rfl
  | none =>
    by_cases hw : w.suppressNulls = true
    · exact .inr (if_pos (h.nulls hw))
    · rw [if_neg hw]
      cases v.suppressNulls with
      | true => exact .inr rfl
      | false => exact .inl rfl

/-- Where a writer succeeds, a stricter one does the same or leaves the property out. -/
theorem emit {bean : Bean σ} {e : Emission} (hw : w.emit bean = .ok e) :
    v.emit bean = .ok e ∨ v.LeavesOut bean := by
  have haccessor : v.accessor = w.accessor := by
    rw [h.same]
    rfl
  rw [LeavesOut, Writer.emit, haccessor]
  rw [Writer.emit] at hw
  by_cases hreadable : w.accessor.readable = true
  · rw [if_pos hreadable] at hw ⊢
    cases hread : w.accessor.read bean with
    | error failure =>
      rw [hread] at hw
      cases hw
    | ok reading =>
      rw [hread] at hw
      cases reading with
      | none =>
        cases hw
        exact h.emitNull.imp (congrArg Except.ok) (congrArg Except.ok)
      | some r =>
        dsimp only at hw ⊢
        by_cases hv : v.suppresses r.value = true
        · exact .inr (if_pos hv)
        · -- neither suppresses the value, so it is treated alike
          rw [if_neg (mt h.suppresses hv)] at hw
          rw [if_neg hv, h.same]
          exact .inl hw
  · rw [if_neg hreadable] at hw ⊢
    exact .inl hw

theorem field {bean : Bean σ} {x : Option Json} (hw : w.field bean = .ok x) :
    v.field bean = .ok x ∨ v.field bean = .ok none := by
  obtain ⟨e, he, hx⟩ := bind_eq_ok_iff.mp hw
  rcases h.emit (mapError_eq_ok_iff.mp he) with hsame | hnone
  · left
    -- the form of what is written depends on the name only
    rw [Writer.field, hsame, h.same]
    exact hx
  · exact .inr (field_eq_none_iff.mpr hnone)

end Stricter

end Writer

/-! ## Serializers and their drafts -/

/-- Entries that stricter writers write are some of those that are written anyway. -/
theorem Serializer.exists_fields_of_stricter {bean : Bean σ} {vs ws : List (Writer σ)}
    (h : List.Forall₂ Writer.Stricter vs ws) {es : List (String × Json)}
    (hes : fields bean ws = .ok es) :
    ∃ es', fields bean vs = .ok es' ∧ es'.Sublist es := by
  induction h generalizing es with
  | nil => exact ⟨es, hes, List.Sublist.refl es⟩
  | @cons v w vs ws hfirst _ ih =>
    rw [fields] at hes ⊢
    obtain ⟨x, hx, hes⟩ := bind_eq_ok_iff.mp hes
    cases x with
    | none =>
      have hv : v.field bean = .ok none := (hfirst.field hx).elim id id
      obtain ⟨es', hes', hsub⟩ := ih hes
      exact ⟨es', by rw [hv]; exact hes', hsub⟩
    | some j =>
      obtain ⟨rest, hrest, hes⟩ := bind_eq_ok_iff.mp hes
      cases hes
      obtain ⟨rest', hrest', hsub⟩ := ih hrest
      rcases hfirst.field hx with hv | hv
      · refine ⟨(w.name, j) :: rest', ?_, hsub.cons_cons _⟩
        rw [hv, hfirst.name, hrest']
        rfl
      · exact ⟨rest', by rw [hv]; exact hrest', hsub.cons _⟩

/-- A serializer with stricter writers. -/
structure Serializer.Stricter (s t : Serializer σ) : Prop where
  bean : s.bean = t.bean
  shape : s.shape = t.shape
  writers : List.Forall₂ Writer.Stricter s.writers t.writers

/-- A draft with stricter writers. -/
structure SerializerDraft.Stricter (draft draft' : SerializerDraft σ) : Prop where
  bean : draft.bean = draft'.bean
  shape : draft.shape = draft'.shape
  failOnEmpty : draft.failOnEmpty = draft'.failOnEmpty
  writers : List.Forall₂ Writer.Stricter draft.writers draft'.writers

namespace SerializerDraft

variable {draft draft' : SerializerDraft σ}

/-- Both drafts are refused, or a stricter serializer is built of the stricter draft. -/
theorem Stricter.build (h : draft.Stricter draft') :
    Option.Rel Serializer.Stricter draft.build.toOption draft'.build.toOption := by
  have hnames : draft.writers.map (·.name) = draft'.writers.map (·.name) := by
    refine List.forall₂_eq_eq_eq ▸ ?_
    rw [List.forall₂_map_left_iff, List.forall₂_map_right_iff]
    exact h.writers.imp fun _ _ hw => hw.name
  have hproblem := problem_congr hnames h.failOnEmpty
  rw [SerializerDraft.build, SerializerDraft.build, hproblem]
  cases draft'.problem with
  | some problem => exact .none
  | none => exact .some ⟨h.bean, h.shape, h.writers⟩

section Rules

variable {rule rule' : Inclusion} (h : rule.Within rule') (config : Config)

include h

/-- The writers of members without a rule of their own follow the settings. -/
theorem stricter_writerOf {m : Member σ} (hm : m.inclusion = none) :
    (writerOf { config with inclusion := rule } m).Stricter
      (writerOf { config with inclusion := rule' } m) := by
  rw [writerOf, writerOf, hm]
  exact (Writer.stricter_withInclusion h _).withRules _ _ _

theorem stricter_ofDescription {d : Description σ} (hd : ∀ m ∈ d.members, m.inclusion = none) :
    (ofDescription d { config with inclusion := rule }).Stricter
      (ofDescription d { config with inclusion := rule' }) where
  bean := rfl
  shape := rfl
  failOnEmpty := rfl
  writers := by
    show List.Forall₂ _ (sortByKey _) (sortByKey _)
    rw [sortByKey_map_writerOf, sortByKey_map_writerOf, List.forall₂_map_left_iff,
      List.forall₂_map_right_iff, List.forall₂_same]
    intro m hm
    have hmem : m ∈ readableMembers d := (List.mergeSort_perm _ _).mem_iff.mp hm
    exact stricter_writerOf h config (hd m (List.mem_of_mem_filter hmem))

/-- Writers are made from properties in both drafts or in none. -/
theorem Stricter.bound (hdraft : draft.Stricter draft') (i : Introspection σ) :
    (draft.bound (.ofConfig { config with inclusion := rule }) i).Stricter
      (draft'.bound (.ofConfig { config with inclusion := rule' }) i) where
  bean := hdraft.bean
  shape := hdraft.shape
  failOnEmpty := hdraft.failOnEmpty
  writers := by
    have hempty : draft.writers.isEmpty = draft'.writers.isEmpty := by
      rw [Bool.eq_iff_iff, List.isEmpty_iff_length_eq_zero, List.isEmpty_iff_length_eq_zero,
        hdraft.writers.length_eq]
    show List.Forall₂ _ (SerializationBinder.adjust _ i _) (SerializationBinder.adjust _ i _)
    rw [SerializationBinder.adjust, SerializationBinder.adjust, SerializationBinder.synthesizes,
      SerializationBinder.synthesizes, hempty]
    split
    · rw [List.forall₂_map_left_iff, List.forall₂_map_right_iff, List.forall₂_same]
      exact fun p _ => (Writer.stricter_withInclusion h _).withSelfReference _
    · rw [List.forall₂_map_left_iff, List.forall₂_map_right_iff]
      exact hdraft.writers.imp fun _ _ hw => hw.bind i

theorem Stricter.afterBinding (hdraft : draft.Stricter draft') (registry : Registry σ)
    (type : BeanType) :
    (bindSerializers registry { config with inclusion := rule } type draft).value.Stricter
      (bindSerializers registry { config with inclusion := rule' } type draft').value := by
  cases hfind : registry.find type with
  | none =>
    rw [bindSerializers, bindSerializers, hfind]
    exact hdraft
  | some i =>
    rw [bindSerializers_of_find hfind, bindSerializers_of_find hfind]
    exact hdraft.bound h config i

theorem Stricter.afterModifiers (hdraft : draft.Stricter draft') (registry : Registry σ)
    (type : BeanType) (copies : Nat) :
    (modifyDraft registry { config with inclusion := rule } type
        (List.replicate copies bindSerializers) draft).value.Stricter
      (modifyDraft registry { config with inclusion := rule' } type
        (List.replicate copies bindSerializers) draft').value := by
  induction copies generalizing draft draft' with
  | zero => exact hdraft
  | succ copies ih => exact ih (hdraft.afterBinding h config registry type)

end Rules

end SerializerDraft

/-! ## Codecs -/

namespace Codec

variable {rule rule' : Inclusion} {config : Config} {ds : List (Description σ)} {type : BeanType}

/-- From each registry, both codecs build nothing, or one a stricter serializer than the other. -/
theorem rel_buildSerializer (h : rule.Within rule')
    (hmembers : ∀ d, (setup config ds []).description type = some d →
      ∀ m ∈ d.members, m.inclusion = none) (copies : Nat) (registry : Registry σ) :
    let c := fun rule => withCopies { config with inclusion := rule } ds copies
    Option.Rel Serializer.Stricter ((c rule).buildSerializer registry type).value.toOption
      ((c rule').buildSerializer registry type).value.toOption := by
  intro c
  have hdraft : ((c rule).draftSerializer type).value.Stricter
      ((c rule').draftSerializer type).value := by
    have hdescription : ∀ r, (c r).description type = (setup config ds []).description type :=
      fun _ => rfl
    rw [draftSerializer, draftSerializer, hdescription, hdescription]
    cases hd : (setup config ds []).description type with
    | some d => exact SerializerDraft.stricter_ofDescription h config (hmembers d hd)
    | none => exact ⟨rfl, rfl, rfl, .nil⟩
  have hmodifiers : ∀ r, (c r).modifiers.serializer =
      List.replicate (if config.useIntrospection then copies else 0) bindSerializers := by
    intro r
    rw [modifiers_withCopies]
    cases config.useIntrospection with
    | true => rfl
    | false => rfl
  refine SerializerDraft.Stricter.build (?_ : SerializerDraft.Stricter
    (modifyDraft registry _ type _ _).value (modifyDraft registry _ type _ _).value)
  rw [hmodifiers, hmodifiers]
  exact hdraft.afterModifiers h config registry type _

/-- Under a stricter rule an object is written as well, with some of the entries. -/
theorem exists_write_of_within (h : rule.Within rule') {bean : Bean σ}
    (hmembers : ∀ d, (setup config ds []).description bean.type = some d →
      ∀ m ∈ d.members, m.inclusion = none) {copies : Nat} {registry : Registry σ}
    {ops : List (Operation σ)} {es : List (String × Json)} :
    let written := fun rule =>
      let c := withCopies { config with inclusion := rule } ds copies
      (c.write bean (c.run ops (.ofRegistry registry))).result
    written rule' = .ok (.record es) →
      ∃ es', written rule = .ok (.record es') ∧ es'.Sublist es := by
  intro written hes
  obtain ⟨t, ht, hserialize⟩ := write_eq_ok_iff.mp hes
  let c := fun rule => withCopies { config with inclusion := rule } ds copies
  obtain ⟨s, hs, hstricter⟩ := (c rule).keptSerializers.exists_ask_run
    (c rule').keptSerializers rfl (rel_buildSerializer h hmembers copies) ht
  have hshape : t.shape = .object := by
    cases hshape : t.shape with
    | object => rfl
    | array =>
      obtain ⟨js, hjs, -⟩ := Serializer.serialize_list hshape hserialize
      cases hjs
  obtain ⟨htype, es₀, hfields, hrecord⟩ :=
    (Serializer.serialize_eq_ok_iff_fields hshape).mp hserialize
  cases Json.record_injective hrecord
  obtain ⟨es', hfields', hsub⟩ := Serializer.exists_fields_of_stricter hstricter.writers hfields
  refine ⟨es', write_eq_ok_iff.mpr ⟨s, hs, ?_⟩, hsub⟩
  exact (Serializer.serialize_eq_ok_iff_fields (hstricter.shape.trans hshape)).mpr
    ⟨htype.trans hstricter.bean.symm, es', hfields', rfl⟩

end Codec

/--
**A stricter rule leaves out more, and nothing else changes.**

Take codecs that differ in their inclusion rule only, with or without the introspection
module, and use them in the same way. Let the members of a described type set no rule of
their own; a type without a description has none. If a bean is then written as an object
with everything included, it is written as an object under each rule. The entries that are
not null are some of all entries, in the same order, and both the entries that are not
empty and those that are not defaults are some of these.
-/
theorem inclusion_rules_nested (config : Config) (ds : List (Description σ)) (copies : Nat)
    (registry : Registry σ) (ops : List (Operation σ)) {bean : Bean σ}
    (hmembers : ∀ d, (Codec.setup config ds []).description bean.type = some d →
      ∀ m ∈ d.members, m.inclusion = none) :
    let written := fun rule =>
      let c := Codec.setup { config with inclusion := rule } ds
        (List.replicate copies introspectionModule)
      (c.write bean (c.run ops (.ofRegistry registry))).result
    ∀ all, written .always = .ok (.record all) → ∃ nonNull nonEmpty nonDefault,
      written .nonNull = .ok (.record nonNull) ∧ written .nonEmpty = .ok (.record nonEmpty) ∧
        written .nonDefault = .ok (.record nonDefault) ∧ nonNull.Sublist all ∧
        nonEmpty.Sublist nonNull ∧ nonDefault.Sublist nonNull := by
  intro written all hall
  obtain ⟨nonNull, hnonNull, hsub⟩ := Codec.exists_write_of_within (.always .nonNull) hmembers hall
  obtain ⟨nonEmpty, hnonEmpty, hempty⟩ :=
    Codec.exists_write_of_within .nonEmpty hmembers hnonNull
  obtain ⟨nonDefault, hnonDefault, hdefault⟩ :=
    Codec.exists_write_of_within .nonDefault hmembers hnonNull
  exact ⟨nonNull, nonEmpty, nonDefault, hnonNull, hnonEmpty, hnonDefault, hsub, hempty, hdefault⟩

/-! ### Remarks that are left out -/

namespace Labelled

/-- A property with the given text, whose declared default is a dash. -/
def remark (name content : String) : Property (Tree × Option Tree) :=
  ((Property.declare type name text).getterOwned fun _ => .text content).withAnnotations
    (Annotations.empty.set Annotations.Kind.property Annotations.Attribute.defaultValue (.text "-"))

/-- Beans with a label, which may be missing, an empty remark, and one that is the default. -/
def remarks : Introspection (Tree × Option Tree) :=
  (((Introspection.declare type).withProperty label).withProperty
    (remark "blank" "")).withProperty (remark "usual" "-")

theorem isDefault_remark (name : String) (n : Int) :
    (remark name "-").IsDefault (of n none) := by
  have hsame : (⟨text, .text "-"⟩ : Value).same ⟨text, .text "-"⟩ = true := by
    simp [Value.same, Value.is, Tree.same]
  exact ⟨_, _, rfl, rfl, hsame⟩

end Labelled

/-- A missing label, an empty remark and a default are left out by the rules for them. -/
theorem remarks_left_out :
    let written := fun rule =>
      let c := Codec.setup { Config.default with inclusion := rule } []
        (List.replicate 1 introspectionModule)
      (c.write (Labelled.of 1 none) (c.run [] (.ofRegistry ⟨[Labelled.remarks]⟩))).result
    let nonNull := [("blank", .string ""), ("usual", .string "-")]
    written .always = .ok (.record (("label", .null) :: nonNull)) ∧
      written .nonNull = .ok (.record nonNull) ∧
      written .nonEmpty = .ok (.record [("usual", .string "-")]) ∧
      ∃ nonDefault, written .nonDefault = .ok (.record nonDefault) ∧
        nonDefault.Sublist nonNull ∧ "usual" ∉ nonDefault.map (·.1) := by
  intro written nonNull
  have hall : written .always = .ok (.record (("label", .null) :: nonNull)) := rfl
  have hwritten : written .nonNull = .ok (.record nonNull) := rfl
  obtain ⟨nonNull', nonEmpty, nonDefault, hnonNull, -, hnonDefault, -, -, hsub⟩ :=
    inclusion_rules_nested Config.default [] 1 ⟨[Labelled.remarks]⟩ [] nofun _ hall
  have hsame : nonNull' = nonNull :=
    Json.record_injective (Except.ok.inj (hnonNull.symm.trans hwritten))
  have hintrospects : (Codec.setup { Config.default with inclusion := .nonDefault } []
      [introspectionModule]).Introspects ⟨[Labelled.remarks]⟩ Labelled.remarks :=
    Codec.introspects_setup rfl (by simp) (by simp [Registry.find])
  have husual : Labelled.remark "usual" "-" ∈ Labelled.remarks.properties :=
    .tail _ (.tail _ (.head _))
  refine ⟨hall, hwritten, rfl, nonDefault, hnonDefault, hsame ▸ hsub, ?_⟩
  exact (hintrospects.name_not_mem_iff rfl rfl hnonDefault husual rfl).mpr
    (Labelled.isDefault_remark "usual" 1).excluded

end BeanBinding
