import BeanBinding.Proofs.Typing

/-!
# No bean is taken for one of another type

Whoever works on a bean compares its type first: a serializer before it writes, a
deserializer before it updates, and a codec before it hands over what was created. Each of
them could find a bean of another type.

It never happens, because what was kept for a type was built for that type, from a
registry in which an introspection is found under its own type only (`find_enterAll`). So
of all errors the one about a bean of another type is never met, whatever was done before
(`types_never_confused`).
-/

namespace BeanBinding

variable {σ : Type}

/-! ## The introspection that is found -/

namespace Operation

/-- The introspections that were to be registered, in order. -/
def introduced (ops : List (Operation σ)) : List (Introspection σ) :=
  ops.filterMap fun
    | register i => some i
    | _ => none

/-- **The first introspection of a type is found**, unless there was one before. -/
theorem find_enterAll (ops : List (Operation σ)) (r : Registry σ) (type : BeanType) :
    (enterAll ops r).find type =
      (r.find type).or ((introduced ops).find? fun i => i.type = type) := by
  induction ops generalizing r with
  | nil => exact Option.or_none.symm
  | cons op ops ih =>
    show (enterAll ops (op.enter r)).find type = _
    rw [ih]
    cases op with
    | register i =>
      show ((r.register i).find type).or _ = _
      rw [Registry.find_register, Option.or_assoc]
      by_cases htype : i.type = type
      · simp [introduced, htype]
      · simp [introduced, htype]
    | _ => rfl

end Operation

/-! ## Errors of writing -/

theorem bind_ne_error {ε α β : Type} {x : Except ε α} {f : α → Except ε β} {e : ε}
    (hx : x ≠ .error e) (hf : ∀ a, f a ≠ .error e) : x >>= f ≠ .error e := by
  cases x with
  | ok a => exact hf a
  | error e' =>
    intro h
    cases h
    exact hx rfl

theorem map_ne_error {ε α β : Type} {x : Except ε α} {f : α → β} {e : ε} (hx : x ≠ .error e) :
    x.map f ≠ .error e := by
  cases x with
  | ok a => intro h; cases h
  | error e' =>
    intro h
    cases h
    exact hx rfl

namespace Writer

variable {w : Writer σ} {bean : Bean σ} {name : String}

theorem emit_ne_mismatch : w.emit bean ≠ .error (.beanMismatch name) := by
  intro h
  unfold emit at h
  split at h
  · split at h
    · cases h
    · cases h
    · split at h
      · cases h
      · split at h
        · unfold emitSelf at h
          cases hself : w.selfReference with
          | fail => rw [hself] at h; cases h
          | writeNull | passThrough | alternate s => rw [hself] at h; cases h
        · cases h
  · cases h

theorem encode_ne_mismatch {v : Value} {s : Option ValueSerializer} :
    w.encode v s ≠ .error (.codec (.beanMismatch name)) := by
  have hvalue : ∀ v : Value,
      v.toJson.mapError WriteError.value ≠ .error (.codec (.beanMismatch name)) := by
    intro v h
    cases hj : v.toJson with
    | ok j => rw [hj] at h; cases h
    | error fault => rw [hj] at h; cases h
  unfold encode
  split
  · exact hvalue v
  · split
    · exact hvalue _
    · intro h
      cases h

theorem field_ne_mismatch : w.field bean ≠ .error (.codec (.beanMismatch name)) := by
  refine bind_ne_error ?_ fun e => ?_
  · intro h
    cases hemit : w.emit bean with
    | ok e => rw [hemit] at h; cases h
    | error e =>
      rw [hemit] at h
      cases h
      exact emit_ne_mismatch hemit
  · cases e with
    | nothing | null => intro h; cases h
    | fixed v => exact map_ne_error encode_ne_mismatch
    | value v s => exact map_ne_error encode_ne_mismatch

theorem element_ne_mismatch : w.element bean ≠ .error (.codec (.beanMismatch name)) := by
  refine bind_ne_error field_ne_mismatch fun written => ?_
  cases written with
  | some j => intro h; cases h
  | none =>
    unfold placeholder
    dsimp only
    split
    · exact encode_ne_mismatch
    · intro h
      cases h

end Writer

namespace Serializer

variable {bean : Bean σ} {name : String}

theorem fields_ne_mismatch (ws : List (Writer σ)) :
    fields bean ws ≠ .error (.codec (.beanMismatch name)) := by
  induction ws with
  | nil => intro h; cases h
  | cons w ws ih =>
    refine bind_ne_error Writer.field_ne_mismatch fun written => ?_
    cases written with
    | none => exact ih
    | some j => exact bind_ne_error ih fun _ h => by cases h

theorem elements_ne_mismatch (ws : List (Writer σ)) :
    elements bean ws ≠ .error (.codec (.beanMismatch name)) := by
  induction ws with
  | nil => intro h; cases h
  | cons w ws ih =>
    exact bind_ne_error Writer.element_ne_mismatch fun _ =>
      bind_ne_error ih fun _ h => by cases h

/-- **A bean of the right type is not found to be of another one.** -/
theorem serialize_ne_mismatch {s : Serializer σ} (hb : bean.type = s.bean) :
    s.serialize bean ≠ .error (.codec (.beanMismatch name)) := by
  rw [serialize, if_neg (not_not.mpr hb)]
  split
  · exact map_ne_error (fields_ne_mismatch s.writers)
  · exact map_ne_error (elements_ne_mismatch s.writers)

end Serializer

/-! ## Errors of building -/

theorem SerializerDraft.build_ne_mismatch {draft : SerializerDraft σ} {name : String} :
    draft.build ≠ .error (.beanMismatch name) := by
  intro h
  unfold build at h
  split at h
  · cases h
  · cases h

theorem DeserializerDraft.build_ne_mismatch {draft : DeserializerDraft σ} {name : String} :
    draft.build ≠ .error (.beanMismatch name) := by
  intro h
  unfold build at h
  grind

/-! ## Errors of reading -/

namespace Deserializer

variable {d : Deserializer σ} {name : String}

theorem Fails.ne_mismatch {e : ReadError} (h : d.Fails e) : e ≠ .codec (.beanMismatch name) := by
  rintro rfl
  cases h with
  | document hdocument => exact hdocument

theorem update_ne_mismatch {document : Document} (hgiven : document.Given) {bean left : Bean σ}
    (hb : bean.type = d.bean) :
    d.update document bean ≠ .error (.codec (.beanMismatch name)) left := by
  intro h
  exact (fails_of_filled (error_of_update hgiven hb h)).ne_mismatch rfl

/-- What is created is handed on, since it has the type that it is expected to have. -/
theorem Typed.create_ne_mismatch {type : BeanType} (h : d.Typed type) {document : Document}
    (hgiven : document.Given) :
    d.create document >>= Codec.ofType type ≠ .error (.codec (.beanMismatch name)) := by
  cases hcreate : d.create document with
  | error e =>
    intro he
    cases he
    exact (fails_of_create hgiven hcreate).ne_mismatch rfl
  | ok bean =>
    have hof : Codec.ofType type bean = .ok bean :=
      Codec.ofType_eq_ok_iff.mpr ⟨h.type_of_create hcreate, rfl⟩
    intro he
    rw [show (Except.ok bean >>= Codec.ofType type) = Codec.ofType type bean from rfl, hof] at he
    cases he

end Deserializer

/-! ## Errors of a codec -/

namespace Codec

variable {c : Codec σ} {st : CodecState σ} {name : String}

/-- A codec writes beans of a type by a serializer for that type, if it has one. -/
theorem write_ne_mismatch {bean : Bean σ}
    (h : ∀ s, (c.serializerFor bean.type st).result = .ok s → s.bean = bean.type) :
    (c.write bean st).result ≠ .error (.codec (.beanMismatch name)) := by
  unfold write
  dsimp only
  cases hs : (c.serializerFor bean.type st).result with
  | ok s => exact Serializer.serialize_ne_mismatch (h s hs).symm
  | error e =>
    rintro ⟨⟩
    exact SerializerDraft.build_ne_mismatch (c.keptSerializers.build_of_ask_error hs)

theorem read_ne_mismatch {type : BeanType}
    (h : ∀ d, (c.deserializerFor type st).result = .ok d → d.Typed type) {document : Document}
    (hgiven : document.Given) :
    (c.read type document st).result ≠ .error (.codec (.beanMismatch name)) := by
  unfold read
  dsimp only
  cases hd : (c.deserializerFor type st).result with
  | ok d => exact (h d hd).create_ne_mismatch hgiven
  | error e =>
    rintro ⟨⟩
    exact DeserializerDraft.build_ne_mismatch (c.keptDeserializers.build_of_ask_error hd)

theorem update_ne_mismatch {bean left : Bean σ}
    (h : ∀ d, (c.deserializerFor bean.type st).result = .ok d → d.Typed bean.type)
    {document : Document} (hgiven : document.Given) :
    (c.update bean document st).result ≠ .error (.codec (.beanMismatch name)) left := by
  unfold update
  dsimp only
  cases hd : (c.deserializerFor bean.type st).result with
  | ok d => exact Deserializer.update_ne_mismatch hgiven (h d hd).bean.symm
  | error e =>
    rintro ⟨⟩
    exact DeserializerDraft.build_ne_mismatch (c.keptDeserializers.build_of_ask_error hd)

/-! ### Along a run -/

variable {config : Config} {ds : List (Description σ)} {copies : Nat} {ops : List (Operation σ)}
  {type : BeanType}

/-- Whenever in a run a serializer was built for a type, it is for that type. -/
theorem bean_of_run {s : Serializer σ}
    (h : ((withCopies config ds copies).serializerFor type
      ((withCopies config ds copies).run ops (.ofRegistry .empty))).result = .ok s) :
    s.bean = type := by
  obtain ⟨before, -, hbuilt⟩ := (withCopies config ds copies).keptSerializers.exists_build_of_run h
  exact bean_of_buildSerializer hbuilt

theorem typed_of_run (hds : ∀ d ∈ ds, ∀ m ∈ d.members, m.property.Declared)
    (hops : ∀ i, .register i ∈ ops → ∀ p ∈ i.properties, p.Declared) {d : Deserializer σ}
    (h : ((withCopies config ds copies).deserializerFor type
      ((withCopies config ds copies).run ops (.ofRegistry .empty))).result = .ok d) :
    d.Typed type := by
  obtain ⟨before, hbefore, hbuilt⟩ :=
    (withCopies config ds copies).keptDeserializers.exists_build_of_run h
  -- what had been registered by then is among what the run registers
  have hregistry : ∀ i ∈ (Operation.enterAll before .empty).introspections,
      ∀ p ∈ i.properties, KeepsType p.write := by
    refine Operation.forall_introspections (fun _ hi => by cases hi) fun i hi p hp => ?_
    exact (hops i (hbefore.subset hi) p hp).keepsType
  exact typed_of_buildDeserializer (fun d hd m hm => (hds d hd m hm).keepsType) hregistry hbuilt

end Codec

/--
**Types are never confused.**

Let introspections of any types be registered, several of one type among them, and let a
codec with any descriptions be used meanwhile, where all properties are declared ones.
Then the introspection that is found for a type is of that type, and the first one that
was registered for it. And whatever bean is then written or updated, and whatever type of
beans is read, from whatever document: nobody finds a bean of another type than expected.
-/
theorem types_never_confused (config : Config) (copies : Nat) {ds : List (Description σ)}
    {ops : List (Operation σ)} (hds : ∀ d ∈ ds, ∀ m ∈ d.members, m.property.Declared)
    (hops : ∀ i, .register i ∈ ops → ∀ p ∈ i.properties, p.Declared) :
    let c := Codec.setup config ds (List.replicate copies introspectionModule)
    let st := c.run ops (.ofRegistry .empty)
    (∀ type, st.registry.find type = (Operation.introduced ops).find? (fun i => i.type = type) ∧
        ∀ i, st.registry.find type = some i → i.type = type) ∧
      ∀ name,
        (∀ bean, (c.write bean st).result ≠ .error (.codec (.beanMismatch name))) ∧
        (∀ type document, document.Given →
          (c.read type document st).result ≠ .error (.codec (.beanMismatch name))) ∧
        ∀ bean document left, document.Given →
          (c.update bean document st).result ≠ .error (.codec (.beanMismatch name)) left := by
  intro c st
  refine ⟨fun type => ⟨?_, fun i => Registry.type_of_find⟩, fun name => ⟨?_, ?_, ?_⟩⟩
  · rw [Codec.registry_run, Operation.find_enterAll]
    rfl
  · intro bean
    exact Codec.write_ne_mismatch fun _ => Codec.bean_of_run
  · intro type document hgiven
    exact Codec.read_ne_mismatch (fun _ => Codec.typed_of_run hds hops) hgiven
  · intro bean document left hgiven
    exact Codec.update_ne_mismatch (fun _ => Codec.typed_of_run hds hops) hgiven

/-! ### Pairs that are introduced twice -/

/-- Of two introspections of pairs the first is found, and pairs are read and updated as pairs. -/
theorem pair_introduced_twice :
    let first := (Pair.introspection "first").withFresh (Pair.of 0 0).state
    let c := Codec.setup .default [Pair.rightOnly] [introspectionModule]
    let st := c.run [.register first, .register Pair.copied] (.ofRegistry .empty)
    let document := Document.ofJson .streamed 0 (.record [("right", .number (.ofInt 1))])
    st.registry.find Pair.type = some first ∧
      (c.read Pair.type document st).result = .ok (Pair.of 0 1) ∧
      (c.update (Pair.of 2 2) document st).result = .ok () (Pair.of 2 1) ∧
      (c.read Pair.type document st).result ≠
        .error (.codec (.beanMismatch Pair.type.name)) := by
  intro first c st document
  have hright : (Pair.rightProperty).Declared := Part.declared_property _ _ _ _ _
  have hmembers : ∀ d ∈ [Pair.rightOnly], ∀ m ∈ d.members, m.property.Declared := by
    intro d hd m hm
    cases List.mem_singleton.mp hd
    cases List.mem_singleton.mp hm
    exact hright
  have hproperties : ∀ i, .register i ∈ [Operation.register first, .register Pair.copied] →
      ∀ p ∈ i.properties, p.Declared := by
    intro i hi p hp
    rcases List.mem_cons.mp hi with hi | hi
    · cases hi
      rcases List.mem_cons.mp hp with rfl | hp
      · exact Part.declared_property _ _ _ _ _
      · cases List.mem_singleton.mp hp
        exact hright
    · cases List.mem_singleton.mp hi
      cases List.mem_singleton.mp hp
      exact hright.getterOwned _
  obtain ⟨hfound, hsafe⟩ := types_never_confused .default 1 hmembers hproperties
  exact ⟨(hfound Pair.type).1, rfl, rfl,
    (hsafe Pair.type.name).2.1 Pair.type _ (.ofJson _ _ _)⟩

end BeanBinding
