import BeanBinding.Codec
import Mathlib.Data.List.Forall2

/-!
# Codecs in use

While a codec is used, two things change: introspections are registered, and serializers
and deserializers are kept that were built on the way. An `Operation` is anything that
can happen; a run is a list of operations.

The registry only follows the registrations (`registry_run`). Of what is kept for a type,
`Kept.find_run` says all there is to say: it is the first that could be built of those
that the operations of the run asked for, each from the registry as it was then. Both
come from what a single operation does (`state_perform`).

So two runs of two codecs give the same for a type if, one by one, the registries that
they found there make them build the same (`outcomeAfter_congr`).
-/

namespace BeanBinding

variable {σ α β : Type}

/-! ## Operations -/

/-- What can be done with a codec, or with the registry that it looks into. -/
inductive Operation (σ : Type) where
  | register (i : Introspection σ)
  | serializerFor (type : BeanType)
  | deserializerFor (type : BeanType)
  | write (bean : Bean σ)
  | read (type : BeanType) (document : Document)
  | update (bean : Bean σ) (document : Document)

/-- What an operation gives. -/
inductive Outcome (σ : Type) where
  /-- Whether the introspection is new. -/
  | registered (new : Bool)
  | serializer (result : Except CodecError (Serializer σ))
  | deserializer (result : Except CodecError (Deserializer σ))
  | written (result : Except WriteError Json)
  | made (result : Except ReadError (Bean σ))
  | updated (result : EStateM.Result ReadError (Bean σ) Unit)

def Step.map (f : α → β) (s : Step σ α) : Step σ β := ⟨f s.result, s.state, s.notes⟩

def Codec.perform (c : Codec σ) : Operation σ → CodecState σ → Step σ (Outcome σ)
  | .register i, st => ⟨.registered !st.registry.contains i.type, st.register i, []⟩
  | .serializerFor type, st => (c.serializerFor type st).map .serializer
  | .deserializerFor type, st => (c.deserializerFor type st).map .deserializer
  | .write bean, st => (c.write bean st).map .written
  | .read type document, st => (c.read type document st).map .made
  | .update bean document, st => (c.update bean document st).map .updated

/-- The state after some operations, one after the other. -/
def Codec.run (c : Codec σ) (ops : List (Operation σ)) (st : CodecState σ) : CodecState σ :=
  ops.foldl (fun st op => (c.perform op st).state) st

namespace Operation

/-- The type of beans that an operation is about. -/
def type : Operation σ → BeanType
  | register i => i.type
  | serializerFor type | deserializerFor type | read type _ => type
  | write bean | update bean _ => bean.type

def registers : Operation σ → Bool
  | register _ => true
  | _ => false

/-- Whether the operation needs the serializer of its type. -/
def writes : Operation σ → Bool
  | serializerFor _ | write _ => true
  | _ => false

/-- Whether the operation needs the deserializer of its type. -/
def reads : Operation σ → Bool
  | deserializerFor _ | read .. | update .. => true
  | _ => false

/-! ## The registry along a run -/

/-- The registry after an operation. -/
def enter : Operation σ → Registry σ → Registry σ
  | register i, r => r.register i
  | _, r => r

/-- The registry after some operations. -/
def enterAll (ops : List (Operation σ)) (r : Registry σ) : Registry σ :=
  ops.foldl (fun r op => op.enter r) r

/-- The registries that those operations found which needed something of a type. -/
def met (needs : Operation σ → Bool) (type : BeanType) :
    List (Operation σ) → Registry σ → List (Registry σ)
  | [], _ => []
  | op :: ops, r =>
    if needs op && op.type = type then r :: met needs type ops (op.enter r)
    else met needs type ops (op.enter r)

theorem enter_of_not_registers {op : Operation σ} (h : op.registers = false) (r : Registry σ) :
    op.enter r = r := by
  cases op with
  | register i => cases h
  | _ => rfl

/-- No operation registers and needs a serializer, or a serializer and a deserializer. -/
theorem of_writes {op : Operation σ} (h : op.writes = true) :
    op.registers = false ∧ op.reads = false := by
  cases op with
  | serializerFor type | write bean => exact ⟨rfl, rfl⟩
  | _ => cases h

theorem of_reads {op : Operation σ} (h : op.reads = true) :
    op.registers = false ∧ op.writes = false := by
  cases op with
  | deserializerFor type | read type document | update bean document => exact ⟨rfl, rfl⟩
  | _ => cases h

theorem enterAll_append (ops ops' : List (Operation σ)) (r : Registry σ) :
    enterAll (ops ++ ops') r = enterAll ops' (enterAll ops r) :=
  List.foldl_append

theorem met_append (needs : Operation σ → Bool) (type : BeanType) (ops ops' : List (Operation σ))
    (r : Registry σ) :
    met needs type (ops ++ ops') r =
      met needs type ops r ++ met needs type ops' (enterAll ops r) := by
  induction ops generalizing r with
  | nil => rfl
  | cons op ops ih =>
    rw [List.cons_append, met, met, ih]
    split
    · rfl
    · rfl

end Operation

/-- Registering adds an introspection at the end, for its own type and for no other. -/
theorem Registry.find_register (r : Registry σ) (i : Introspection σ) (type : BeanType) :
    (r.register i).find type =
      (r.find type).or (if i.type = type then some i else none) := by
  rw [register]
  split
  · -- the type of the introspection has one already
    rename_i hcontains
    split
    · rename_i htype
      subst htype
      obtain ⟨j, hj⟩ := Option.isSome_iff_exists.mp hcontains
      rw [hj, Option.some_or]
    · rw [Option.or_none]
  · rw [find, find, List.find?_append, List.find?_singleton]
    simp only [decide_eq_true_eq]

/-- A registry is never shortened. -/
theorem Operation.isPrefix_enter (op : Operation σ) (r : Registry σ) :
    r.introspections <+: (op.enter r).introspections := by
  cases op with
  | register i =>
    show _ <+: (r.register i).introspections
    rw [Registry.register]
    split
    · exact List.prefix_refl _
    · exact List.prefix_append _ _
  | _ => exact List.prefix_refl _

theorem Operation.isPrefix_enterAll (ops : List (Operation σ)) (r : Registry σ) :
    r.introspections <+: (enterAll ops r).introspections := by
  induction ops generalizing r with
  | nil => exact List.prefix_refl _
  | cons op ops ih => exact (op.isPrefix_enter r).trans (ih (op.enter r))

/-- If the registry ends as it began, every operation has found it so. -/
theorem Operation.eq_of_mem_met {needs : Operation σ → Bool} {type : BeanType}
    {ops : List (Operation σ)} {r found : Registry σ} (h : enterAll ops r = r)
    (hfound : found ∈ met needs type ops r) : found = r := by
  induction ops with
  | nil => cases hfound
  | cons op ops ih =>
    have hgrown : (op.enter r).introspections <+: r.introspections := by
      have hrest := isPrefix_enterAll ops (op.enter r)
      rwa [show enterAll ops (op.enter r) = r from h] at hrest
    have hsame : op.enter r = r := by
      have hlist := (op.isPrefix_enter r).eq_of_length_le hgrown.length_le
      cases r
      exact congrArg Registry.mk hlist.symm
    rw [met, hsame] at hfound
    rw [enterAll, List.foldl_cons, hsame] at h
    split at hfound
    · rcases List.mem_cons.mp hfound with hfirst | hrest
      · exact hfirst
      · exact ih h hrest
    · exact ih h hfound

/-- The registries that were found on the way are those after the first operations. -/
theorem Operation.exists_prefix_of_mem_met {needs : Operation σ → Bool} {type : BeanType}
    {ops : List (Operation σ)} {r found : Registry σ} (h : found ∈ met needs type ops r) :
    ∃ before, before <+: ops ∧ enterAll before r = found := by
  induction ops generalizing r with
  | nil => cases h
  | cons op ops ih =>
    have hlater : found ∈ met needs type ops (op.enter r) →
        ∃ before, before <+: op :: ops ∧ enterAll before r = found := by
      intro hrest
      obtain ⟨before, hprefix, hfound⟩ := ih hrest
      exact ⟨op :: before, (List.prefix_cons_inj op).mpr hprefix, hfound⟩
    rw [met] at h
    split at h
    · rcases List.mem_cons.mp h with rfl | hrest
      · exact ⟨[], List.nil_prefix, rfl⟩
      · exact hlater hrest
    · exact hlater h

/-- What holds of all introspections, those registered on the way included, holds in every
registry of a run. -/
theorem Operation.forall_introspections {P : Introspection σ → Prop} {ops : List (Operation σ)}
    {r : Registry σ} (hr : ∀ i ∈ r.introspections, P i) (hops : ∀ i, .register i ∈ ops → P i) :
    ∀ i ∈ (enterAll ops r).introspections, P i := by
  induction ops generalizing r with
  | nil => exact hr
  | cons op ops ih =>
    refine ih ?_ fun i hi => hops i (List.mem_cons_of_mem op hi)
    cases op with
    | register i =>
      show ∀ j ∈ (r.register i).introspections, P j
      rw [Registry.register]
      split
      · exact hr
      · intro j hj
        rcases List.mem_append.mp hj with hj | hj
        · exact hr j hj
        · rw [List.mem_singleton.mp hj]
          exact hops i List.mem_cons_self
    | _ => exact hr

/-! ## What is kept -/

/-- What is kept, or else what is built now. -/
def keptOr (kept : Option α) (built : Except CodecError α) : Except CodecError α :=
  match kept with
  | some a => .ok a
  | none => built

theorem toOption_eq_some_iff {x : Except CodecError α} {a : α} :
    x.toOption = some a ↔ x = .ok a := by
  cases x with
  | ok b => simp [Except.toOption]
  | error e => simp [Except.toOption]

theorem keptOr_eq_ok_iff {kept : Option α} {built : Except CodecError α} {a : α} :
    keptOr kept built = .ok a ↔ kept.or built.toOption = some a := by
  cases kept with
  | some b => simp [keptOr]
  | none =>
    cases built with
    | ok b => simp [keptOr, Except.toOption]
    | error e => simp [keptOr, Except.toOption]

/-- A table that keeps what was built for a type, unless it has something for the type. -/
def keep (type : BeanType) (built : Except CodecError α) (table : List (BeanType × α)) :
    List (BeanType × α) :=
  match table.lookup type with
  | some _ => table
  | none =>
    match built with
    | .ok a => table ++ [(type, a)]
    | .error _ => table

theorem lookup_keep (type other : BeanType) (built : Except CodecError α)
    (table : List (BeanType × α)) :
    (keep type built table).lookup other =
      (table.lookup other).or (if type = other then built.toOption else none) := by
  unfold keep
  cases hkept : table.lookup type with
  | some a =>
    dsimp only
    split
    · rename_i htype
      rw [← htype, hkept, Option.some_or]
    · rw [Option.or_none]
  | none =>
    cases built with
    | error e => simp [Except.toOption]
    | ok a =>
      have hbeq : (other == type) = decide (type = other) := by
        rw [Bool.eq_iff_iff, beq_iff_eq, decide_eq_true_eq, eq_comm]
      dsimp only
      rw [List.lookup_append, List.lookup_cons, hbeq]
      by_cases htype : type = other
      · simp [htype, Except.toOption]
      · simp [htype]

/-- What cannot be built is not kept. -/
theorem keep_error (type : BeanType) (e : CodecError) (table : List (BeanType × α)) :
    keep type (.error e) table = table := by
  unfold keep
  cases table.lookup type with
  | none => rfl
  | some a => rfl

/-- Only an operation on a type that needs something of it adds to what is kept of the type. -/
theorem lookup_keep_of_needed (needed : Bool) (type other : BeanType)
    (build : BeanType → Except CodecError α) (table : List (BeanType × α)) :
    (if needed then keep type (build type) table else table).lookup other =
      (table.lookup other).or
        (if needed && type = other then (build other).toOption else none) := by
  cases needed with
  | false => simp
  | true =>
    simp only [if_true, lookup_keep, Bool.true_and, decide_eq_true_eq]
    split
    · rename_i htype
      rw [htype]
    · rfl

namespace Codec

theorem serializerFor_eq (c : Codec σ) (type : BeanType) (st : CodecState σ) :
    let built := (c.buildSerializer st.registry type).value
    (c.serializerFor type st).result = keptOr (st.serializer type) built ∧
      (c.serializerFor type st).state =
        { st with serializers := keep type built st.serializers } := by
  unfold serializerFor CodecState.serializer keep
  cases st.serializers.lookup type with
  | some s => exact ⟨rfl, rfl⟩
  | none =>
    dsimp only
    cases (c.buildSerializer st.registry type).value with
    | ok s => exact ⟨rfl, rfl⟩
    | error e => exact ⟨rfl, rfl⟩

theorem deserializerFor_eq (c : Codec σ) (type : BeanType) (st : CodecState σ) :
    let built := (c.buildDeserializer st.registry type).value
    (c.deserializerFor type st).result = keptOr (st.deserializer type) built ∧
      (c.deserializerFor type st).state =
        { st with deserializers := keep type built st.deserializers } := by
  unfold deserializerFor CodecState.deserializer keep
  cases st.deserializers.lookup type with
  | some d => exact ⟨rfl, rfl⟩
  | none =>
    dsimp only
    cases (c.buildDeserializer st.registry type).value with
    | ok d => exact ⟨rfl, rfl⟩
    | error e => exact ⟨rfl, rfl⟩

/-- **What one operation leaves behind**: an introspection, a serializer or a deserializer. -/
theorem state_perform (c : Codec σ) (op : Operation σ) (st : CodecState σ) :
    (c.perform op st).state = {
      registry := op.enter st.registry
      serializers :=
        if op.writes then keep op.type (c.buildSerializer st.registry op.type).value st.serializers
        else st.serializers
      deserializers :=
        if op.reads then
          keep op.type (c.buildDeserializer st.registry op.type).value st.deserializers
        else st.deserializers } := by
  cases op with
  | register i => rfl
  | serializerFor type => exact (c.serializerFor_eq type st).2
  | write bean => exact (c.serializerFor_eq bean.type st).2
  | deserializerFor type => exact (c.deserializerFor_eq type st).2
  | read type document => exact (c.deserializerFor_eq type st).2
  | update bean document => exact (c.deserializerFor_eq bean.type st).2

/-- The registry follows the registrations, whatever else is done. -/
theorem registry_run (c : Codec σ) (ops : List (Operation σ)) (st : CodecState σ) :
    (c.run ops st).registry = Operation.enterAll ops st.registry := by
  induction ops generalizing st with
  | nil => rfl
  | cons op ops ih =>
    show (c.run ops (c.perform op st).state).registry = _
    rw [ih, state_perform]
    rfl

/-- Something that a codec builds for a type when it is asked for, and then keeps. -/
structure Kept (c : Codec σ) (α : Type) where
  ask : BeanType → CodecState σ → Step σ (Except CodecError α)
  build : Registry σ → BeanType → Except CodecError α
  /-- The operations that ask for it. -/
  needs : Operation σ → Bool
  find : CodecState σ → BeanType → Option α
  find_ofRegistry : ∀ r type, find (.ofRegistry r) type = none
  result_ask : ∀ type st,
    (ask type st).result = keptOr (find st type) (build st.registry type)
  find_perform : ∀ op st type, find (c.perform op st).state type =
    (find st type).or
      (if needs op && op.type = type then (build st.registry type).toOption else none)
  state_perform_error : ∀ op st e, needs op = true → build st.registry op.type = .error e →
    (c.perform op st).state = st

/-- The serializers. -/
def keptSerializers (c : Codec σ) : c.Kept (Serializer σ) where
  ask := c.serializerFor
  build r type := (c.buildSerializer r type).value
  needs := Operation.writes
  find := CodecState.serializer
  find_ofRegistry _ _ := rfl
  result_ask type st := (c.serializerFor_eq type st).1
  find_perform op st type := by
    rw [state_perform]
    exact lookup_keep_of_needed op.writes op.type type
      (fun type => (c.buildSerializer st.registry type).value) st.serializers
  state_perform_error op st e hneeds he := by
    obtain ⟨hregisters, hreads⟩ := Operation.of_writes hneeds
    rw [state_perform, hneeds, he, keep_error, hreads,
      Operation.enter_of_not_registers hregisters]
    rfl

/-- The deserializers. -/
def keptDeserializers (c : Codec σ) : c.Kept (Deserializer σ) where
  ask := c.deserializerFor
  build r type := (c.buildDeserializer r type).value
  needs := Operation.reads
  find := CodecState.deserializer
  find_ofRegistry _ _ := rfl
  result_ask type st := (c.deserializerFor_eq type st).1
  find_perform op st type := by
    rw [state_perform]
    exact lookup_keep_of_needed op.reads op.type type
      (fun type => (c.buildDeserializer st.registry type).value) st.deserializers
  state_perform_error op st e hneeds he := by
    obtain ⟨hregisters, hwrites⟩ := Operation.of_reads hneeds
    rw [state_perform, hneeds, he, keep_error, hwrites,
      Operation.enter_of_not_registers hregisters]
    rfl

namespace Kept

variable {c : Codec σ}

/-- **What is kept after a run is what could be built first.** -/
theorem find_run (k : c.Kept α) (ops : List (Operation σ)) (st : CodecState σ) (type : BeanType) :
    k.find (c.run ops st) type =
      (k.find st type).or ((Operation.met k.needs type ops st.registry).findSome?
        fun r => (k.build r type).toOption) := by
  induction ops generalizing st with
  | nil => exact Option.or_none.symm
  | cons op ops ih =>
    have hregistry : (c.perform op st).state.registry = op.enter st.registry := by
      rw [state_perform]
    show k.find (c.run ops (c.perform op st).state) type = _
    rw [ih, k.find_perform, hregistry, Operation.met, Option.or_assoc]
    split
    · -- the operation asks for the type: what it builds comes before what is built later
      rw [List.findSome?_cons]
      cases (k.build st.registry type).toOption with
      | some a => rfl
      | none => rfl
    · rw [Option.none_or]

/-- A request is answered with what could be built first of all that was asked for so far. -/
theorem result_ask_run (k : c.Kept α) (r : Registry σ) (ops : List (Operation σ))
    (type : BeanType) :
    (k.ask type (c.run ops (.ofRegistry r))).result =
      keptOr ((Operation.met k.needs type ops r).findSome? fun r => (k.build r type).toOption)
        (k.build (c.run ops (.ofRegistry r)).registry type) := by
  rw [k.result_ask, k.find_run, k.find_ofRegistry, Option.none_or]
  rfl

/-- With nothing kept, a request is answered with what is built. -/
theorem result_ask_new (k : c.Kept α) (r : Registry σ) (type : BeanType) :
    (k.ask type (.ofRegistry r)).result = k.build r type := by
  rw [k.result_ask, k.find_ofRegistry]
  rfl

/-- What a request fails with, building fails with. -/
theorem build_of_ask_error (k : c.Kept α) {type : BeanType} {st : CodecState σ} {e : CodecError}
    (h : (k.ask type st).result = .error e) : k.build st.registry type = .error e := by
  rw [k.result_ask] at h
  cases hkept : k.find st type with
  | some a =>
    rw [hkept] at h
    cases h
  | none =>
    rw [hkept] at h
    exact h

/-- If every request found the registry as it is now, the answer is what is built from it. -/
theorem result_ask_run_of_met (k : c.Kept α) {r : Registry σ} {ops : List (Operation σ)}
    {type : BeanType}
    (h : ∀ found ∈ Operation.met k.needs type ops r, found = Operation.enterAll ops r) :
    (k.ask type (c.run ops (.ofRegistry r))).result = k.build (Operation.enterAll ops r) type := by
  rw [k.result_ask_run, registry_run]
  show keptOr _ (k.build (Operation.enterAll ops r) type) = _
  cases hearlier : (Operation.met k.needs type ops r).findSome?
      fun r => (k.build r type).toOption with
  | none => rfl
  | some a =>
    obtain ⟨found, hfound, hbuilt⟩ := List.exists_of_findSome?_eq_some hearlier
    rw [h found hfound] at hbuilt
    exact (toOption_eq_some_iff.mp hbuilt).symm

/-- What is given was built first on the way, or else is built now. -/
theorem ask_run_eq_ok_iff (k : c.Kept α) {r : Registry σ} {ops : List (Operation σ)}
    {type : BeanType} {a : α} :
    (k.ask type (c.run ops (.ofRegistry r))).result = .ok a ↔
      ((Operation.met k.needs type ops r).findSome? fun r => (k.build r type).toOption).or
        (k.build (Operation.enterAll ops r) type).toOption = some a := by
  rw [k.result_ask_run, registry_run, keptOr_eq_ok_iff]
  rfl

/-- Whatever is given comes from a registry of the run. -/
theorem exists_build_of_run (k : c.Kept α) {r : Registry σ} {ops : List (Operation σ)}
    {type : BeanType} {a : α} (h : (k.ask type (c.run ops (.ofRegistry r))).result = .ok a) :
    ∃ before, before <+: ops ∧ k.build (Operation.enterAll before r) type = .ok a := by
  rw [k.ask_run_eq_ok_iff, Option.or_eq_some_iff] at h
  rcases h with hearlier | ⟨-, hnow⟩
  · obtain ⟨found, hfound, hbuilt⟩ := List.exists_of_findSome?_eq_some hearlier
    obtain ⟨before, hprefix, rfl⟩ := Operation.exists_prefix_of_mem_met hfound
    exact ⟨before, hprefix, toOption_eq_some_iff.mp hbuilt⟩
  · exact ⟨ops, List.prefix_refl _, toOption_eq_some_iff.mp hnow⟩

end Kept

/-! ## Comparing runs -/

/-- What an operation gives after others, if nothing has been kept before them. -/
def outcomeAfter (c : Codec σ) (r : Registry σ) (ops : List (Operation σ)) (op : Operation σ) :
    Outcome σ :=
  (c.perform op (c.run ops (.ofRegistry r))).result

variable {c c' : Codec σ} {same : Registry σ → Registry σ → Prop} {ops ops' : List (Operation σ)}
  {r r' : Registry σ}

theorem findSome?_eq_of_forall₂ {f g : Registry σ → Option α}
    (hf : ∀ s s', same s s' → f s = g s') {rs rs' : List (Registry σ)}
    (h : List.Forall₂ same rs rs') : rs.findSome? f = rs'.findSome? g := by
  induction h with
  | nil => rfl
  | cons hfirst _ ih => rw [List.findSome?_cons, List.findSome?_cons, hf _ _ hfirst, ih]

/-- Requests are answered alike if what was built on the way and what is built now are alike. -/
theorem Kept.result_ask_run_congr (k : c.Kept α) (k' : c'.Kept α) {type : BeanType}
    (hbuild : ∀ s s', same s s' → k.build s type = k'.build s' type)
    (hmet : List.Forall₂ same (Operation.met k.needs type ops r)
      (Operation.met k'.needs type ops' r'))
    (hnow : same (Operation.enterAll ops r) (Operation.enterAll ops' r')) :
    (k.ask type (c.run ops (.ofRegistry r))).result =
      (k'.ask type (c'.run ops' (.ofRegistry r'))).result := by
  have hearlier := findSome?_eq_of_forall₂
    (fun s s' hs => congrArg Except.toOption (hbuild s s' hs)) hmet
  rw [k.result_ask_run, k'.result_ask_run, registry_run, registry_run, hearlier]
  exact congrArg (keptOr _) (hbuild _ _ hnow)

theorem exists_of_rel {β : Type} {related : α → β → Prop} {x : Option α} {b : β}
    (h : Option.Rel related x (some b)) : ∃ a, x = some a ∧ related a b := by
  cases h with
  | some hrelated => exact ⟨_, rfl, hrelated⟩

/-- Where one of two alternatives is taken, so is the related one. -/
theorem rel_or {β : Type} {related : α → β → Prop} {x x' : Option α} {y y' : Option β}
    (h : Option.Rel related x y) (h' : Option.Rel related x' y') :
    Option.Rel related (x.or x') (y.or y') := by
  cases h with
  | none => exact h'
  | some hrelated => exact .some hrelated

/-- The first results that there are in two lists are related if all are, one by one. -/
theorem rel_findSome? {β : Type} {related : α → β → Prop} {f : Registry σ → Option α}
    {g : Registry σ → Option β} (h : ∀ s, Option.Rel related (f s) (g s))
    (rs : List (Registry σ)) : Option.Rel related (rs.findSome? f) (rs.findSome? g) := by
  induction rs with
  | nil => exact .none
  | cons s rs ih =>
    rw [List.findSome?_cons, List.findSome?_cons]
    have hfirst := h s
    generalize f s = x at hfirst ⊢
    generalize g s = y at hfirst ⊢
    cases hfirst with
    | none => exact ih
    | some hrelated => exact .some hrelated

/--
If two codecs build what is related or both nothing, then in the same run they give what is
related as well.
-/
theorem Kept.exists_ask_run {β : Type} {related : α → β → Prop} (k : c.Kept α) (k' : c'.Kept β)
    (hneeds : k.needs = k'.needs) {type : BeanType}
    (hbuild : ∀ s, Option.Rel related (k.build s type).toOption (k'.build s type).toOption)
    {b : β} (h : (k'.ask type (c'.run ops (.ofRegistry r))).result = .ok b) :
    ∃ a, (k.ask type (c.run ops (.ofRegistry r))).result = .ok a ∧ related a b := by
  have hrel := rel_or (rel_findSome? hbuild (Operation.met k.needs type ops r))
    (hbuild (Operation.enterAll ops r))
  rw [k'.ask_run_eq_ok_iff, ← hneeds] at h
  rw [h] at hrel
  simp only [k.ask_run_eq_ok_iff]
  exact exists_of_rel hrel

/-- An operation gives what the codec answers for its type makes it give. -/
theorem result_perform_congr {op : Operation σ} {st st' : CodecState σ}
    (hknown : st.registry.contains op.type = st'.registry.contains op.type)
    (hs : (c.serializerFor op.type st).result = (c'.serializerFor op.type st').result)
    (hd : (c.deserializerFor op.type st).result = (c'.deserializerFor op.type st').result) :
    (c.perform op st).result = (c'.perform op st').result := by
  cases op with
  | register i => exact congrArg (fun known => Outcome.registered !known) hknown
  | serializerFor type => exact congrArg Outcome.serializer hs
  | deserializerFor type => exact congrArg Outcome.deserializer hd
  | write bean =>
    have hsame : (c.write bean st).result = (c'.write bean st').result := by
      unfold write
      dsimp only
      rw [show (c.serializerFor bean.type st).result = _ from hs]
      rfl
    exact congrArg Outcome.written hsame
  | read type document =>
    have hsame : (c.read type document st).result = (c'.read type document st').result := by
      unfold read
      dsimp only
      rw [show (c.deserializerFor type st).result = _ from hd]
      rfl
    exact congrArg Outcome.made hsame
  | update bean document =>
    have hsame : (c.update bean document st).result = (c'.update bean document st').result := by
      unfold update
      dsimp only
      rw [show (c.deserializerFor bean.type st).result = _ from hd]
      rfl
    exact congrArg Outcome.updated hsame

/-- **Runs that found the same of a type give the same for it.** -/
theorem outcomeAfter_congr {op : Operation σ}
    (hknown : ∀ s s', same s s' → s.contains op.type = s'.contains op.type)
    (hserializer : ∀ s s', same s s' →
      (c.buildSerializer s op.type).value = (c'.buildSerializer s' op.type).value)
    (hdeserializer : ∀ s s', same s s' →
      (c.buildDeserializer s op.type).value = (c'.buildDeserializer s' op.type).value)
    (hwrites : List.Forall₂ same (Operation.met Operation.writes op.type ops r)
      (Operation.met Operation.writes op.type ops' r'))
    (hreads : List.Forall₂ same (Operation.met Operation.reads op.type ops r)
      (Operation.met Operation.reads op.type ops' r'))
    (hnow : same (Operation.enterAll ops r) (Operation.enterAll ops' r')) :
    c.outcomeAfter r ops op = c'.outcomeAfter r' ops' op := by
  refine result_perform_congr ?_ ?_ ?_
  · rw [registry_run, registry_run]
    exact hknown _ _ hnow
  · exact c.keptSerializers.result_ask_run_congr c'.keptSerializers hserializer hwrites hnow
  · exact c.keptDeserializers.result_ask_run_congr c'.keptDeserializers hdeserializer hreads hnow

end Codec

end BeanBinding
