import BeanBinding.Proofs.Rebinding
import BeanBinding.Proofs.Runs
import Mathlib.Data.Option.Basic

/-!
# Installing the introspection module more than once

A binder that comes after another one does not find the draft that the codec has made. If
that was empty, its writers were made from properties in the meantime; the second binder
looks their names up like any others, and names for documents can mean another property
than the one they were taken from.

That takes two properties of one name for documents, though, and then there are two
writers of that name, with which no serializer is built in any case. Settable properties
made from introspected ones are not bound at all. So the first binder does all that there
is to do (`copies_behave_as_one`), and without an introspection there is nothing to do.
-/

namespace BeanBinding

variable {σ : Type}

/-! ## Writers that are bound again -/

namespace SerializationBinder

variable {i : Introspection σ}

/-- What a writer is bound to depends on its name, which stays. -/
theorem bind_bind (i : Introspection σ) (w : Writer σ) : bind i (bind i w) = bind i w := by
  cases ht : target i w with
  | none =>
    have hbind : bind i w = w := bind_of_target_none ht
    rw [hbind, hbind]
  | some p =>
    have hagain : target i (w.rebind p.valueType (.introspected p)) = some p := ht
    rw [bind_of_target ht, bind_of_target hagain]
    rfl

theorem valueType_synthesize (b : SerializationBinder) (p : Property σ) :
    (b.synthesize p).valueType = p.valueType := by
  unfold synthesize Writer.withInclusion
  cases b.inclusion with
  | always | nonNull | nonEmpty | nonDefault => rfl

/-- A name for documents that only one property has means that property. -/
theorem eq_of_match?_externalName (hi : i.WellFormed) {p q : Property σ} (hp : p ∈ i.properties)
    (honly : ∀ r ∈ i.properties, r.externalName = p.externalName → r = p)
    (hq : match? i p.externalName = some q) : q = p := by
  have hexternal : ∀ r : Property σ, r.externalName = r.annotations.declaredName.getD r.name :=
    fun _ => rfl
  rw [match?_eq, Option.orElse_eq_some] at hq
  rcases hq with hdeclares | ⟨hnone, hbears⟩
  · have hdeclared : q.annotations.declaredName = some p.externalName := by
      simpa using List.find?_some hdeclares
    refine honly q (List.mem_of_find?_eq_some hdeclares) ?_
    rw [hexternal q, hdeclared, Option.getD_some]
  · obtain ⟨hmem, hname⟩ := Introspection.property_mem hbears
    -- no property declares the name, so it is the own name of the property
    have hown : p.annotations.declaredName = none := by
      by_contra hdeclares
      obtain ⟨name, hdeclared⟩ := Option.ne_none_iff_exists'.mp hdeclares
      have hundeclared := List.find?_eq_none.mp hnone p hp
      rw [hexternal p, hdeclared] at hundeclared
      simp at hundeclared
    refine hi.property_unique hmem hp (hname.trans ?_)
    rw [hexternal p, hown, Option.getD_none]

/-- A writer that was made from the only property of its name is bound to that property. -/
theorem bind_synthesize (b : SerializationBinder) (hi : i.WellFormed) {p : Property σ}
    (hp : p ∈ i.properties)
    (honly : ∀ r ∈ i.properties, r.externalName = p.externalName → r = p) :
    bind i (b.synthesize p) = b.synthesize p := by
  cases ht : target i (b.synthesize p) with
  | none => exact bind_of_target_none ht
  | some q =>
    have hmatch := (Option.filter_eq_some_iff.mp ht).1
    rw [name_synthesize] at hmatch
    rw [bind_of_target ht, eq_of_match?_externalName hi hp honly hmatch,
      ← valueType_synthesize b p, ← accessor_synthesize b p]
    rfl

variable {b : SerializationBinder} {ws : List (Writer σ)}

/-- There is nothing left to make writers from. -/
theorem synthesizes_adjust (b : SerializationBinder) (i : Introspection σ) (ws : List (Writer σ)) :
    synthesizes i (b.adjust i ws) = false := by
  unfold adjust
  split
  · simp [synthesizes]
  · rename_i h
    rw [synthesizes, List.isEmpty_map]
    exact Bool.eq_false_iff.mpr h

/-- The second time, writers are bound one by one. -/
theorem adjust_adjust (b : SerializationBinder) (i : Introspection σ) (ws : List (Writer σ)) :
    b.adjust i (b.adjust i ws) = (b.adjust i ws).map (bind i) := by
  rw [adjust, if_neg (Bool.eq_false_iff.mp (synthesizes_adjust b i ws))]

/-- **Unless two writers have one name, binding them again changes nothing.** -/
theorem adjust_adjust_of_nodup (hi : i.WellFormed)
    (h : ((b.adjust i ws).map (·.name)).Nodup) :
    b.adjust i (b.adjust i ws) = b.adjust i ws := by
  rw [adjust_adjust]
  unfold adjust at h ⊢
  split
  · rename_i hsynthesizes
    rw [if_pos hsynthesizes, List.map_map] at h
    rw [List.map_map]
    have hnames : (i.properties.map (·.externalName)).Nodup := by
      rwa [show (i.properties.map fun p => p.externalName) = _ from
        List.map_congr_left fun p _ => (name_synthesize b p).symm]
    exact List.map_congr_left fun p hp =>
      b.bind_synthesize hi hp fun r hr hname => List.inj_on_of_nodup_map hnames hr hp hname
  · rw [List.map_map]
    exact List.map_congr_left fun w _ => bind_bind i w

end SerializationBinder

/-! ## Settable properties that are bound again -/

namespace DeserializationBinder

/-- What a settable property is bound to depends on its name and its kind, which stay. -/
theorem bind_bind (i : Introspection σ) (s : Settable σ) : bind i (bind i s) = bind i s := by
  cases ht : target i s with
  | none =>
    have hbind : bind i s = s := bind_of_target_none ht
    rw [hbind, hbind]
  | some p =>
    have hagain : target i (s.through p) = some p := ht
    rw [bind_of_target ht, bind_of_target hagain]
    rfl

/-- The second time, there is nothing left to bind, and nothing to make properties from. -/
theorem adjust_adjust (i : Introspection σ) (ss : List (Settable σ)) :
    adjust i (adjust i ss) = adjust i ss := by
  have hmap : ∀ ss' : List (Settable σ), (ss'.isEmpty && !i.properties.isEmpty) = false →
      adjust i ss' = ss'.map (bind i) := by
    intro ss' h
    rw [adjust, h]
    rfl
  cases h : ss.isEmpty && !i.properties.isEmpty with
  | true =>
    have hvirtual : adjust i ss = i.properties.map .virtual := by
      rw [adjust, if_pos h]
    rw [hvirtual, hmap _ (by simp), List.map_map]
    -- what is made from properties is not backed by methods
    rfl
  | false =>
    rw [hmap ss h, hmap _ (by rwa [List.isEmpty_map]), List.map_map]
    exact List.map_congr_left fun s _ => bind_bind i s

end DeserializationBinder

/-! ## Drafts that are modified again -/

section Drafts

variable {registry : Registry σ} {config : Config} {type : BeanType} {i : Introspection σ}

/-- The draft of a serializer as the binder leaves it. -/
def SerializerDraft.bound (draft : SerializerDraft σ) (b : SerializationBinder)
    (i : Introspection σ) : SerializerDraft σ :=
  { draft with writers := b.adjust i draft.writers, onBuildError := some noteBuildError }

theorem bindSerializers_of_find (h : registry.find type = some i) (draft : SerializerDraft σ) :
    bindSerializers registry config type draft =
      ⟨draft.bound (.ofConfig config) i,
        (SerializationBinder.ofConfig config).warnings i draft.writers⟩ := by
  rw [bindSerializers, h]
  rfl

/-- The draft of a deserializer as the binder leaves it. -/
def DeserializerDraft.bound (draft : DeserializerDraft σ) (i : Introspection σ) :
    DeserializerDraft σ :=
  { draft with
    properties := DeserializationBinder.adjust i draft.properties
    instantiator := .ofIntrospection i }

theorem bindDeserializers_of_find (h : registry.find type = some i)
    (draft : DeserializerDraft σ) :
    bindDeserializers registry config type draft = pure (draft.bound i) := by
  rw [bindDeserializers, h]
  rfl

/-- Binding the draft of a deserializer again changes nothing at all. -/
theorem DeserializerDraft.bound_bound (draft : DeserializerDraft σ) (i : Introspection σ) :
    (draft.bound i).bound i = draft.bound i := by
  show ({ draft with
    properties := DeserializationBinder.adjust i (DeserializationBinder.adjust i draft.properties)
    instantiator := .ofIntrospection i } : DeserializerDraft σ) = _
  rw [DeserializationBinder.adjust_adjust]
  rfl

/-- **Binding a draft again changes nothing that can be built**, nor why it cannot. -/
theorem SerializerDraft.build_bound_bound (hi : i.WellFormed) (draft : SerializerDraft σ)
    (b : SerializationBinder) :
    ((draft.bound b i).bound b i).build = (draft.bound b i).build := by
  by_cases hnodup : ((b.adjust i draft.writers).map (·.name)).Nodup
  · have hwriters := SerializationBinder.adjust_adjust_of_nodup hi hnodup
    show build { draft with writers := b.adjust i (b.adjust i draft.writers), .. } = _
    rw [hwriters]
    rfl
  · -- the names stay, so neither draft can be built
    have hproblem : ((draft.bound b i).bound b i).problem = (draft.bound b i).problem := by
      refine problem_congr ?_ rfl
      show (b.adjust i (b.adjust i draft.writers)).map (·.name) = _
      rw [SerializationBinder.adjust_adjust, List.map_map]
      exact List.map_congr_left fun w _ => SerializationBinder.name_bind i w
    cases hp : (draft.bound b i).problem with
    | none =>
      have hbuild : (draft.bound b i).build =
          .ok ⟨draft.bean, draft.shape, (draft.bound b i).writers⟩ := by
        rw [build, hp]
        rfl
      exact absurd (build_eq_ok_iff.mp hbuild).2.1 hnodup
    | some problem =>
      rw [build, build, hproblem, hp]
      rfl

/-- However often a draft is bound, the same can be built as if it is bound once. -/
theorem modifyDraft_bindSerializers (config : Config) (hfind : registry.find type = some i)
    (hi : i.WellFormed) (copies : Nat) (draft : SerializerDraft σ) :
    let once := bindSerializers registry config type draft
    let passed := modifyDraft registry config type
      (List.replicate (copies + 1) bindSerializers) draft
    passed.value.build = once.value.build ∧ passed.value.bean = once.value.bean ∧
      passed.value.onBuildError = once.value.onBuildError ∧ passed.notes = once.notes := by
  intro once passed
  induction copies generalizing draft with
  | zero => exact ⟨rfl, rfl, rfl, List.append_nil _⟩
  | succ copies ih =>
    -- the other copies start from a draft that is bound already
    obtain ⟨hbuild, hbean, hhook, hnotes⟩ := ih once.value
    refine ⟨hbuild.trans ?_, hbean.trans ?_, hhook.trans ?_, ?_⟩
    · simp only [once, bindSerializers_of_find hfind]
      exact SerializerDraft.build_bound_bound hi draft _
    · simp only [once, bindSerializers_of_find hfind]
      rfl
    · simp only [once, bindSerializers_of_find hfind]
      rfl
    · show once.notes ++ _ = once.notes
      rw [hnotes]
      simp only [once, bindSerializers_of_find hfind, SerializationBinder.warnings,
        SerializerDraft.bound, SerializationBinder.synthesizes_adjust]
      exact List.append_nil _

theorem build_modifyDraft_bindSerializers (hfind : registry.find type = some i) (hi : i.WellFormed)
    (copies : Nat) (draft : SerializerDraft σ) :
    (modifyDraft registry config type (List.replicate (copies + 1) bindSerializers) draft >>=
        fun passed => (⟨passed.build, passed.buildNotes⟩ : Noted _)) =
      bindSerializers registry config type draft >>=
        fun passed => (⟨passed.build, passed.buildNotes⟩ : Noted _) := by
  obtain ⟨hbuild, hbean, hhook, hnotes⟩ :=
    modifyDraft_bindSerializers config hfind hi copies draft
  show (⟨_, _ ++ _⟩ : Noted _) = ⟨_, _ ++ _⟩
  simp only [SerializerDraft.buildNotes, hbuild, hbean, hhook, hnotes]

/-- Nor is there a difference in what is made of the draft of a deserializer. -/
theorem modifyDraft_bindDeserializers (hfind : registry.find type = some i) (copies : Nat)
    (draft : DeserializerDraft σ) :
    modifyDraft registry config type (List.replicate (copies + 1) bindDeserializers) draft =
      pure (draft.bound i) := by
  induction copies generalizing draft with
  | zero =>
    show bindDeserializers registry config type draft >>= pure = _
    rw [bindDeserializers_of_find hfind]
    rfl
  | succ copies ih =>
    show bindDeserializers registry config type draft >>= _ = _
    rw [bindDeserializers_of_find hfind]
    refine (ih (draft.bound i)).trans ?_
    rw [DeserializerDraft.bound_bound]

/-- A modifier that leaves drafts as they are does so however often it is installed. -/
theorem modifyDraft_replicate_of_pure {D : Type} {m : DraftModifier σ D}
    (h : ∀ draft, m registry config type draft = pure draft) (copies : Nat) (draft : D) :
    modifyDraft registry config type (List.replicate copies m) draft = pure draft := by
  induction copies with
  | zero => rfl
  | succ copies ih =>
    show m registry config type draft >>= _ = _
    rw [h draft]
    exact ih

end Drafts

/-! ## Codecs -/

namespace Codec

variable {registry : Registry σ} {config : Config} {ds : List (Description σ)} {type : BeanType}

/-- A codec with some copies of the introspection module. -/
def withCopies (config : Config) (ds : List (Description σ)) (copies : Nat) : Codec σ :=
  setup config ds (List.replicate copies introspectionModule)

theorem modifiers_withCopies (config : Config) (ds : List (Description σ)) (copies : Nat) :
    (withCopies config ds copies).modifiers =
      if config.useIntrospection then
        ⟨List.replicate copies bindSerializers, List.replicate copies bindDeserializers⟩
      else .none := by
  rw [withCopies, modifiers_setup_eq]
  cases hconfig : config.useIntrospection with
  | true => simp [introspectionModule, hconfig, List.flatMap_replicate]
  | false => simp [introspectionModule, hconfig, Modifiers.none]

theorem withCopies_of_unused (h : config.useIntrospection = false) (copies : Nat) :
    withCopies config ds copies = setup config ds [] := by
  have hmodifiers : (withCopies config ds copies).modifiers = .none := by
    rw [modifiers_withCopies, h]
    rfl
  show Codec.mk config _ (withCopies config ds copies).modifiers = _
  rw [hmodifiers]
  rfl

/-- Where there is no introspection, copies change nothing. -/
theorem builds_withCopies_of_none (config : Config) (ds : List (Description σ))
    (hfind : registry.find type = none) (copies : Nat) :
    (withCopies config ds copies).buildSerializer registry type =
        (setup config ds []).buildSerializer registry type ∧
      (withCopies config ds copies).buildDeserializer registry type =
        (setup config ds []).buildDeserializer registry type := by
  cases hconfig : config.useIntrospection with
  | false =>
    rw [withCopies_of_unused hconfig]
    exact ⟨rfl, rfl⟩
  | true =>
    simp only [buildSerializer, buildDeserializer, modifiers_withCopies, hconfig, if_true]
    -- binding leaves drafts as they are without an introspection
    constructor
    · have hbind : ∀ config draft, bindSerializers registry config type draft = pure draft :=
        fun config draft => by rw [bindSerializers, hfind]
      rw [funext (modifyDraft_replicate_of_pure (hbind _) copies)]
      rfl
    · have hbind : ∀ config draft, bindDeserializers registry config type draft = pure draft :=
        fun config draft => by rw [bindDeserializers, hfind]
      rw [modifyDraft_replicate_of_pure (hbind _)]
      rfl

/-- Copies after the first one change nothing that is built, nor what is noted about it. -/
theorem builds_withCopies (hr : ∀ i ∈ registry.introspections, i.WellFormed)
    (copies copies' : Nat) :
    (withCopies config ds (copies + 1)).buildSerializer registry type =
        (withCopies config ds (copies' + 1)).buildSerializer registry type ∧
      (withCopies config ds (copies + 1)).buildDeserializer registry type =
        (withCopies config ds (copies' + 1)).buildDeserializer registry type := by
  cases hconfig : config.useIntrospection with
  | false =>
    rw [withCopies_of_unused hconfig, withCopies_of_unused hconfig]
    exact ⟨rfl, rfl⟩
  | true =>
    cases hfind : registry.find type with
    | none =>
      obtain ⟨hs, hd⟩ := builds_withCopies_of_none config ds hfind (copies + 1)
      obtain ⟨hs', hd'⟩ := builds_withCopies_of_none config ds hfind (copies' + 1)
      exact ⟨hs.trans hs'.symm, hd.trans hd'.symm⟩
    | some i =>
      have hi : i.WellFormed := hr i (List.mem_of_find?_eq_some hfind)
      simp only [buildSerializer, buildDeserializer, modifiers_withCopies, hconfig, if_true]
      constructor
      · rw [funext (build_modifyDraft_bindSerializers hfind hi copies),
          funext (build_modifyDraft_bindSerializers hfind hi copies')]
        rfl
      · rw [modifyDraft_bindDeserializers hfind, modifyDraft_bindDeserializers hfind]
        rfl

/-- Codecs that build the same from every registry of a run give the same after it. -/
theorem outcomeAfter_eq_of_builds {c c' : Codec σ} {ops : List (Operation σ)} {op : Operation σ}
    (h : ∀ before, before <+: ops →
      c.buildSerializer (Operation.enterAll before registry) op.type =
          c'.buildSerializer (Operation.enterAll before registry) op.type ∧
        c.buildDeserializer (Operation.enterAll before registry) op.type =
          c'.buildDeserializer (Operation.enterAll before registry) op.type) :
    c.outcomeAfter registry ops op = c'.outcomeAfter registry ops op := by
  let same : Registry σ → Registry σ → Prop := fun r r' =>
    r = r' ∧ c.buildSerializer r op.type = c'.buildSerializer r op.type ∧
      c.buildDeserializer r op.type = c'.buildDeserializer r op.type
  have hmet : ∀ needs, List.Forall₂ same (Operation.met needs op.type ops registry)
      (Operation.met needs op.type ops registry) := by
    intro needs
    refine List.forall₂_same.mpr fun found hfound => ?_
    obtain ⟨before, hprefix, rfl⟩ := Operation.exists_prefix_of_mem_met hfound
    exact ⟨rfl, h before hprefix⟩
  refine outcomeAfter_congr ?_ ?_ ?_ (hmet _) (hmet _)
    ⟨rfl, h ops (List.prefix_refl ops)⟩
  · rintro r _ ⟨rfl, -⟩
    rfl
  · rintro r _ ⟨rfl, hserializer, -⟩
    rw [hserializer]
  · rintro r _ ⟨rfl, -, hdeserializer⟩
    rw [hdeserializer]

end Codec

/--
**Installing the introspection module again changes nothing**, nor does installing it
where it has nothing to say.

Take a codec with some copies of the introspection module and one with a single copy, over
a registry of well-formed introspections, as declared ones are, and let well-formed
introspections be registered while both are used in the same way. Both build the same and
note the same about it; and whatever is done with them next, the results are the same. If
the settings do not ask for introspection, or if nothing has been registered for the type
in question, they are those of a codec without the module.
-/
theorem copies_behave_as_one (config : Config) (ds : List (Description σ)) (copies : Nat)
    {registry : Registry σ} {ops : List (Operation σ)}
    (hregistry : ∀ i ∈ registry.introspections, i.WellFormed)
    (hops : ∀ i, .register i ∈ ops → i.WellFormed) (op : Operation σ) :
    let several := Codec.setup config ds (List.replicate (copies + 1) introspectionModule)
    let single := Codec.setup config ds [introspectionModule]
    let without := Codec.setup config ds []
    (several.buildSerializer registry op.type = single.buildSerializer registry op.type ∧
        several.buildDeserializer registry op.type = single.buildDeserializer registry op.type) ∧
      several.outcomeAfter registry ops op = single.outcomeAfter registry ops op ∧
      (config.useIntrospection = false ∨ (Operation.enterAll ops registry).find op.type = none →
        several.outcomeAfter registry ops op = without.outcomeAfter registry ops op) := by
  intro several single without
  have hbuilds : ∀ before, before <+: ops →
      let r := Operation.enterAll before registry
      several.buildSerializer r op.type = single.buildSerializer r op.type ∧
        several.buildDeserializer r op.type = single.buildDeserializer r op.type := by
    intro before hbefore r
    have hformed : ∀ i ∈ r.introspections, i.WellFormed :=
      Operation.forall_introspections hregistry fun i hi => hops i (hbefore.subset hi)
    exact Codec.builds_withCopies hformed copies 0
  refine ⟨hbuilds [] List.nil_prefix, Codec.outcomeAfter_eq_of_builds hbuilds, ?_⟩
  rintro (hunused | hnone)
  · have hsame : several = without := Codec.withCopies_of_unused hunused (copies + 1)
    rw [hsame]
  · refine Codec.outcomeAfter_eq_of_builds fun before hbefore => ?_
    obtain ⟨after, rfl⟩ := hbefore
    rw [Operation.enterAll_append] at hnone
    have hgrown := Operation.isPrefix_enterAll after (Operation.enterAll before registry)
    exact Codec.builds_withCopies_of_none config ds (hgrown.find?_eq_none hnone) (copies + 1)

/-- Two copies bind a pair as one does, if one side goes by a name of its own. -/
theorem pair_bound_once :
    let i := Pair.introspection "first"
    let several := Codec.setup .default [] [introspectionModule, introspectionModule]
    let single := Codec.setup .default [] [introspectionModule]
    i.WellFormed ∧
      several.outcomeAfter ⟨[i]⟩ [] (.write (Pair.of 1 2)) =
        single.outcomeAfter ⟨[i]⟩ [] (.write (Pair.of 1 2)) := by
  intro i several single
  have hi : i.WellFormed := (Pair.introspection_declared "first").wellFormed
  have hregistry : ∀ j ∈ (⟨[i]⟩ : Registry (Tree × Tree)).introspections, j.WellFormed := by
    intro j hj
    rw [List.mem_singleton.mp hj]
    exact hi
  have hops : ∀ j, .register j ∈ ([] : List (Operation (Tree × Tree))) → j.WellFormed := by simp
  exact ⟨hi, (copies_behave_as_one .default [] 1 hregistry hops (.write (Pair.of 1 2))).2.1⟩

end BeanBinding
