import BeanBinding.Proofs.Runs
import BeanBinding.Proofs.Synthesis

/-!
# What is built once is kept

A codec is asked for serializers and deserializers in any order, while introspections are
still being registered. What it answers for a type depends on very little of that:

* once it has built something, it gives that, whatever is registered after;
* as long as it cannot, it tries again with the registry as it is;
* operations on other types do not matter, nor do registrations for them if the modifiers
  look at no other introspection than that of the type, like those of the introspection
  module;
* and if nothing was registered since somebody first asked for the type, the answers are
  those of a new codec.

`built_once_then_kept` says all of it, for any codec and any run. The last two points rest
on one observation: two runs give the same if they cannot be told apart by the registries
that they found (`outcomeAfter_congr`).
-/

namespace BeanBinding

variable {σ α : Type}

/-! ## Modifiers that look at one introspection -/

/-- The modifiers look at no other introspection than that of the type that they modify. -/
structure Modifiers.Local (ms : Modifiers σ) : Prop where
  serializer : ∀ m ∈ ms.serializer, ∀ (r r' : Registry σ) (config : Config) (type : BeanType),
    r.find type = r'.find type → m r config type = m r' config type
  deserializer : ∀ m ∈ ms.deserializer, ∀ (r r' : Registry σ) (config : Config) (type : BeanType),
    r.find type = r'.find type → m r config type = m r' config type

theorem modifyDraft_congr {D : Type} {r r' : Registry σ} {config : Config} {type : BeanType}
    {ms : List (DraftModifier σ D)} (h : ∀ m ∈ ms, m r config type = m r' config type)
    (draft : D) : modifyDraft r config type ms draft = modifyDraft r' config type ms draft := by
  induction ms generalizing draft with
  | nil => rfl
  | cons m ms ih =>
    rw [modifyDraft, modifyDraft, h m List.mem_cons_self]
    exact congrArg _ (funext (ih fun m' hm' => h m' (List.mem_cons_of_mem m hm')))

/-- The introspection module looks at the introspection of the type and at no other. -/
theorem local_introspectionModule (config : Config) :
    ((introspectionModule (σ := σ)).setup config).Local := by
  have hserializers : ∀ (r r' : Registry σ) (config : Config) (type : BeanType),
      r.find type = r'.find type →
        bindSerializers r config type = bindSerializers r' config type := by
    intro r r' config type h
    funext draft
    rw [bindSerializers, bindSerializers, h]
  have hdeserializers : ∀ (r r' : Registry σ) (config : Config) (type : BeanType),
      r.find type = r'.find type →
        bindDeserializers r config type = bindDeserializers r' config type := by
    intro r r' config type h
    funext draft
    rw [bindDeserializers, bindDeserializers, h]
  show Modifiers.Local (if config.useIntrospection then _ else .none)
  split
  · refine ⟨fun m hm => ?_, fun m hm => ?_⟩
    · rw [List.mem_singleton.mp hm]
      exact hserializers
    · rw [List.mem_singleton.mp hm]
      exact hdeserializers
  · exact ⟨by simp [Modifiers.none], by simp [Modifiers.none]⟩

namespace Codec

theorem local_setup {config : Config} {ds : List (Description σ)} {modules : List (Module σ)}
    (h : ∀ m ∈ modules, (m.setup config).Local) :
    (setup config ds modules).modifiers.Local := by
  rw [modifiers_setup_eq]
  refine ⟨fun m hm => ?_, fun m hm => ?_⟩
  · obtain ⟨module, hmodule, hm⟩ := List.mem_flatMap.mp hm
    exact (h module hmodule).serializer m hm
  · obtain ⟨module, hmodule, hm⟩ := List.mem_flatMap.mp hm
    exact (h module hmodule).deserializer m hm

variable {c : Codec σ}

/-- What such modifiers let be built depends on the introspection of the type alone. -/
theorem builds_eq_of_local (h : c.modifiers.Local) {r r' : Registry σ} {type : BeanType}
    (hfind : r.find type = r'.find type) :
    c.buildSerializer r type = c.buildSerializer r' type ∧
      c.buildDeserializer r type = c.buildDeserializer r' type := by
  constructor
  · rw [buildSerializer, buildSerializer,
      funext (modifyDraft_congr fun m hm => h.serializer m hm r r' c.config type hfind)]
  · rw [buildDeserializer, buildDeserializer,
      modifyDraft_congr fun m hm => h.deserializer m hm r r' c.config type hfind]

/-! ## Requests for one kind of things -/

/-- How a codec answers those who ask for what it builds once for a type. -/
structure Keeps (c : Codec σ) (ask : BeanType → CodecState σ → Step σ (Except CodecError α))
    (build : Registry σ → BeanType → Except CodecError α) (needs : Operation σ → Bool) : Prop where
  /-- Once an operation has got it, everyone gets the same, whatever happens in between. -/
  again : ∀ op st a, needs op = true → (ask op.type st).result = .ok a →
    ∀ ops, (ask op.type (c.run ops (c.perform op st).state)).result = .ok a
  /-- If an operation does not get it, the codec stays as it is. -/
  failed : ∀ op st e, needs op = true → (ask op.type st).result = .error e →
    (c.perform op st).state = st
  /-- As long as nobody has got it, it is built from the registry as it is. -/
  anew : ∀ r ops type,
    (∀ found ∈ Operation.met needs type ops r, ∃ e, build found type = .error e) →
    (ask type (c.run ops (.ofRegistry r))).result = build (Operation.enterAll ops r) type

theorem Kept.keeps (k : c.Kept α) : c.Keeps k.ask k.build k.needs where
  again op st a hneeds h ops := by
    -- the operation has left it behind, and nothing that is kept is replaced
    have hkept : k.find (c.perform op st).state op.type = some a := by
      rw [k.result_ask, keptOr_eq_ok_iff] at h
      rw [k.find_perform, hneeds]
      simpa using h
    rw [k.result_ask, k.find_run, hkept]
    rfl
  failed op st e hneeds h := by
    rw [k.result_ask] at h
    cases hkept : k.find st op.type with
    | some a =>
      rw [hkept] at h
      cases h
    | none =>
      rw [hkept] at h
      exact k.state_perform_error op st e hneeds h
  anew r ops type h := by
    have hnone : (Operation.met k.needs type ops r).findSome?
        (fun r => (k.build r type).toOption) = none := by
      refine List.findSome?_eq_none_iff.mpr fun found hfound => ?_
      obtain ⟨e, he⟩ := h found hfound
      rw [he]
      rfl
    rw [k.result_ask_run, hnone, registry_run]
    rfl

/-! ## What can be left out of a run -/

/--
A way to compare registries that tells all that a codec needs to know of them for a type,
and by which operations that are not relevant leave everything as it is.
-/
structure Overlooks (c : Codec σ) (type : BeanType) (same : Registry σ → Registry σ → Prop)
    (relevant : Operation σ → Bool) : Prop where
  refl : ∀ r, same r r
  contains : ∀ r r', same r r' → r.contains type = r'.contains type
  serializer : ∀ r r', same r r' →
    (c.buildSerializer r type).value = (c.buildSerializer r' type).value
  deserializer : ∀ r r', same r r' →
    (c.buildDeserializer r type).value = (c.buildDeserializer r' type).value
  enter : ∀ op r r', same r r' → same (Operation.enter op r) (Operation.enter op r')
  enter_irrelevant : ∀ op r r', relevant op = false → same r r' → same (Operation.enter op r) r'
  relevant_own : ∀ op, Operation.type op = type → relevant op = true

namespace Overlooks

variable {type : BeanType} {same : Registry σ → Registry σ → Prop} {relevant : Operation σ → Bool}

/-- Without the operations that are not relevant, the same registries are found. -/
theorem filter_same (h : c.Overlooks type same relevant) (needs : Operation σ → Bool)
    (ops : List (Operation σ)) {r r' : Registry σ} (hr : same r r') :
    List.Forall₂ same (Operation.met needs type ops r)
        (Operation.met needs type (ops.filter relevant) r') ∧
      same (Operation.enterAll ops r) (Operation.enterAll (ops.filter relevant) r') := by
  induction ops generalizing r r' with
  | nil => exact ⟨.nil, hr⟩
  | cons op ops ih =>
    cases hop : relevant op with
    | true =>
      obtain ⟨hmet, hnow⟩ := ih (h.enter op r r' hr)
      rw [List.filter_cons_of_pos hop]
      refine ⟨?_, hnow⟩
      rw [Operation.met, Operation.met]
      split
      · exact .cons hr hmet
      · exact hmet
    | false =>
      -- the operation is on another type
      have hother : (needs op && op.type = type) = false := by
        rw [Bool.and_eq_false_iff, decide_eq_false_iff_not]
        right
        intro hown
        rw [h.relevant_own op hown] at hop
        cases hop
      have hneg : ¬ relevant op = true := by simp [hop]
      rw [List.filter_cons_of_neg hneg, Operation.met, hother]
      exact ih (h.enter_irrelevant op r r' hop hr)

/-- **What is not relevant can be left out of a run.** -/
theorem outcomeAfter_filter (h : c.Overlooks type same relevant) (r : Registry σ)
    (ops : List (Operation σ)) {op : Operation σ} (hop : op.type = type) :
    c.outcomeAfter r ops op = c.outcomeAfter r (ops.filter relevant) op := by
  subst hop
  obtain ⟨hwrites, hnow⟩ := h.filter_same Operation.writes ops (h.refl r)
  obtain ⟨hreads, -⟩ := h.filter_same Operation.reads ops (h.refl r)
  exact outcomeAfter_congr h.contains h.serializer h.deserializer hwrites hreads hnow

end Overlooks

/-- Any codec overlooks what is done with other types, if nothing is registered. -/
theorem overlooks_others (c : Codec σ) (type : BeanType) :
    c.Overlooks type Eq fun op => op.registers || op.type = type where
  refl _ := rfl
  contains r r' h := by rw [h]
  serializer r r' h := by rw [h]
  deserializer r r' h := by rw [h]
  enter op r r' h := by rw [h]
  enter_irrelevant op r r' hop h := by
    rw [Bool.or_eq_false_iff] at hop
    rw [Operation.enter_of_not_registers hop.1, h]
  relevant_own op h := by simp [h]

/-- With such modifiers it overlooks what is registered for other types, too. -/
theorem overlooks_others_of_local (h : c.modifiers.Local) (type : BeanType) :
    c.Overlooks type (fun r r' => r.find type = r'.find type) fun op => op.type = type where
  refl _ := rfl
  contains r r' hr := by rw [Registry.contains, Registry.contains, hr]
  serializer r r' hr := by rw [(builds_eq_of_local h hr).1]
  deserializer r r' hr := by rw [(builds_eq_of_local h hr).2]
  enter op r r' hr := by
    cases op with
    | register i =>
      show (r.register i).find type = (r'.register i).find type
      rw [Registry.find_register, Registry.find_register, hr]
    | _ => exact hr
  enter_irrelevant op r r' hop hr := by
    cases op with
    | register i =>
      have hother : i.type ≠ type := of_decide_eq_false hop
      show (r.register i).find type = r'.find type
      rw [Registry.find_register, if_neg hother, Option.or_none, hr]
    | _ => exact hr
  relevant_own op hop := decide_eq_true hop

/-! ## While nothing is registered -/

/-- Before the first operation that needs something of a type, nothing of it is built. -/
theorem met_of_only_registered {type : BeanType} {before : List (Operation σ)}
    (h : ∀ op ∈ before, op.type = type → op.registers = true) {needs : Operation σ → Bool}
    (hneeds : ∀ op : Operation σ, needs op = true → op.registers = false) (r : Registry σ) :
    Operation.met needs type before r = [] := by
  induction before generalizing r with
  | nil => rfl
  | cons op before ih =>
    have hother : (needs op && op.type = type) = false := by
      by_contra hmet
      rw [Bool.not_eq_false, Bool.and_eq_true, decide_eq_true_eq] at hmet
      have hregisters := h op List.mem_cons_self hmet.2
      rw [hneeds op hmet.1] at hregisters
      cases hregisters
    rw [Operation.met, hother]
    exact ih (fun op' hop' => h op' (List.mem_cons_of_mem op hop')) (op.enter r)

/-- **If the registry is as at the first use of a type, a new codec would do the same.** -/
theorem outcomeAfter_of_unchanged (c : Codec σ) {r : Registry σ}
    {before after : List (Operation σ)} {op : Operation σ}
    (hbefore : ∀ o ∈ before, o.type = op.type → o.registers = true)
    (hafter : Operation.enterAll after (Operation.enterAll before r) =
      Operation.enterAll before r) :
    c.outcomeAfter r (before ++ after) op =
      c.outcomeAfter (Operation.enterAll before r) [] op := by
  have hnow : Operation.enterAll (before ++ after) r = Operation.enterAll before r := by
    rw [Operation.enterAll_append, hafter]
  have hmet : ∀ needs : Operation σ → Bool, (∀ o, needs o = true → o.registers = false) →
      ∀ found ∈ Operation.met needs op.type (before ++ after) r,
        found = Operation.enterAll (before ++ after) r := by
    intro needs hneeds found hfound
    -- nobody asked before, and whoever asked since found the registry as it is now
    rw [Operation.met_append, met_of_only_registered hbefore hneeds, List.nil_append] at hfound
    rw [hnow]
    exact Operation.eq_of_mem_met hafter hfound
  refine result_perform_congr ?_ ?_ ?_
  · rw [registry_run, registry_run]
    exact congrArg (Registry.contains · op.type) hnow
  · have hwrites := hmet Operation.writes fun o ho => (Operation.of_writes ho).1
    refine (c.keptSerializers.result_ask_run_of_met hwrites).trans ?_
    rw [hnow]
    exact (c.keptSerializers.result_ask_new _ op.type).symm
  · have hreads := hmet Operation.reads fun o ho => (Operation.of_reads ho).1
    refine (c.keptDeserializers.result_ask_run_of_met hreads).trans ?_
    rw [hnow]
    exact (c.keptDeserializers.result_ask_new _ op.type).symm

end Codec

/--
**What is built once is kept, and nothing else of the past matters.**

Take a codec that has kept nothing yet, any run of it, and any operation after the run.
Serializers and deserializers are kept as `Keeps` says. The operation gives what it would
have given without all that was done before with other types, except that introspections
were registered; and those for other types do not matter either if the modifiers are
local, as they are if the introspection module is installed any number of times. If the
registry is as it was when something was first needed of the type, the operation gives
what it gives with a new codec.
-/
theorem built_once_then_kept (c : Codec σ) :
    c.Keeps c.serializerFor (fun r type => (c.buildSerializer r type).value) Operation.writes ∧
      c.Keeps c.deserializerFor (fun r type => (c.buildDeserializer r type).value)
        Operation.reads ∧
      (∀ r ops op, c.outcomeAfter r ops op =
        c.outcomeAfter r (ops.filter fun o => o.registers || o.type = op.type) op) ∧
      (c.modifiers.Local → ∀ r ops op, c.outcomeAfter r ops op =
        c.outcomeAfter r (ops.filter fun o => o.type = op.type) op) ∧
      (∀ config copies (ds : List (Description σ)),
        (Codec.setup config ds (List.replicate copies introspectionModule)).modifiers.Local) ∧
      ∀ r before after op, (∀ o ∈ before, o.type = op.type → o.registers = true) →
        Operation.enterAll after (Operation.enterAll before r) = Operation.enterAll before r →
        c.outcomeAfter r (before ++ after) op =
          c.outcomeAfter (Operation.enterAll before r) [] op := by
  refine ⟨c.keptSerializers.keeps, c.keptDeserializers.keeps, ?_, ?_, ?_, ?_⟩
  · intro r ops op
    exact (c.overlooks_others op.type).outcomeAfter_filter r ops rfl
  · intro hlocal r ops op
    exact (Codec.overlooks_others_of_local hlocal op.type).outcomeAfter_filter r ops rfl
  · intro config copies ds
    refine Codec.local_setup fun m hm => ?_
    rw [List.eq_of_mem_replicate hm]
    exact local_introspectionModule config
  · intro r before after op hbefore hafter
    exact c.outcomeAfter_of_unchanged hbefore hafter

/-- A pair is written as by a new codec, after another pair and a type that nobody knows. -/
theorem pair_written_as_by_new_codec :
    let i := Pair.made Pair.leftProperty
    let other : BeanType := ⟨"Other"⟩
    Pair.codec.outcomeAfter .empty
        [.register i, .deserializerFor other, .write (Pair.of 3 4)] (.write (Pair.of 1 2)) =
      Pair.codec.outcomeAfter ⟨[i]⟩ [] (.write (Pair.of 1 2)) := by
  intro i other
  have hlast := (built_once_then_kept Pair.codec).2.2.2.2.2
  refine hlast .empty [.register i] [.deserializerFor other, .write (Pair.of 3 4)]
    (.write (Pair.of 1 2)) ?_ rfl
  intro o ho _
  rw [List.mem_singleton.mp ho]
  rfl

end BeanBinding
