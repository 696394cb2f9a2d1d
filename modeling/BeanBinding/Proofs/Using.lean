import BeanBinding.Codec
import BeanBinding.Proofs.Elements
import BeanBinding.Proofs.Writing

/-!
# One write and one read

A codec builds the serializer of a type when it first writes a bean of the type, and the
deserializer when it first reads one, and keeps both. So a write with nothing kept is the
work of the serializer just built, and a read after it that of a deserializer just built.

An object or a list that was written is a document again: nothing in it is malformed, so
it consists of names and values, or of values.
-/

namespace BeanBinding

variable {σ : Type}

namespace Codec

variable {c : Codec σ} {registry : Registry σ} {bean : Bean σ}

/-! ## Writing -/

/-- A bean is written by the serializer that is given for its type. -/
theorem write_eq_ok_iff {st : CodecState σ} {j : Json} :
    (c.write bean st).result = .ok j ↔
      ∃ s, (c.serializerFor bean.type st).result = .ok s ∧ s.serialize bean = .ok j := by
  simp only [write]
  cases (c.serializerFor bean.type st).result with
  | ok s => simp
  | error e => simp

theorem result_write (c : Codec σ) (registry : Registry σ) (bean : Bean σ) :
    (c.write bean (.ofRegistry registry)).result =
      match (c.buildSerializer registry bean.type).value with
      | .ok s => s.serialize bean
      | .error e => .error (.codec e) := by
  simp only [write, serializerFor, CodecState.serializer, CodecState.ofRegistry, List.lookup_nil]
  cases (c.buildSerializer registry bean.type).value with
  | ok s => rfl
  | error e => rfl

/-- What was written was written by the serializer that is kept. -/
theorem of_write {j : Json} (h : (c.write bean (.ofRegistry registry)).result = .ok j) :
    ∃ s, (c.buildSerializer registry bean.type).value = .ok s ∧
      (c.write bean (.ofRegistry registry)).state = ⟨registry, [(bean.type, s)], []⟩ ∧
      s.serialize bean = .ok j := by
  rw [result_write] at h
  cases hs : (c.buildSerializer registry bean.type).value with
  | error e =>
    rw [hs] at h
    cases h
  | ok s =>
    rw [hs] at h
    refine ⟨s, rfl, ?_, h⟩
    simp only [write, serializerFor, CodecState.serializer, CodecState.ofRegistry,
      List.lookup_nil, hs, List.nil_append]

/-! ## Reading -/

/-- The deserializer is built anew, whatever serializers are kept. -/
theorem result_deserializerFor (c : Codec σ) (registry : Registry σ) (type : BeanType)
    (ss : List (BeanType × Serializer σ)) :
    (c.deserializerFor type ⟨registry, ss, []⟩).result =
      (c.buildDeserializer registry type).value := by
  simp only [deserializerFor, CodecState.deserializer, List.lookup_nil]
  cases (c.buildDeserializer registry type).value with
  | ok d => rfl
  | error e => rfl

theorem result_read (c : Codec σ) (registry : Registry σ) (type : BeanType) (document : Document)
    (ss : List (BeanType × Serializer σ)) :
    (c.read type document ⟨registry, ss, []⟩).result =
      match (c.buildDeserializer registry type).value with
      | .ok d => d.create document >>= ofType type
      | .error e => .error (.codec e) := by
  show (match (c.deserializerFor type ⟨registry, ss, []⟩).result with
    | .ok d => d.create document >>= ofType type
    | .error e => .error (.codec e)) = _
  rw [result_deserializerFor]

theorem result_update (c : Codec σ) (registry : Registry σ) (bean : Bean σ) (document : Document) :
    (c.update bean document (.ofRegistry registry)).result =
      match (c.buildDeserializer registry bean.type).value with
      | .ok d => d.update document bean
      | .error e => .error (.codec e) bean := by
  show (match (c.deserializerFor bean.type ⟨registry, [], []⟩).result with
    | .ok d => d.update document bean
    | .error e => .error (.codec e) bean) = _
  rw [result_deserializerFor]

/-- A bean of the type that was asked for is handed on. -/
theorem ofType_eq_ok_iff {type : BeanType} {back : Bean σ} :
    ofType type bean = .ok back ↔ bean.type = type ∧ bean = back := by
  rw [ofType]
  split
  · rename_i h
    simp [h]
  · rename_i h
    simp [h]

/-- Any other error than that a bean has the wrong type arises before this is looked at. -/
theorem bind_ofType_eq_error_iff {x : Except ReadError (Bean σ)} {type : BeanType} {e : ReadError}
    (he : e ≠ .codec (.beanMismatch type.name)) :
    x >>= ofType type = .error e ↔ x = .error e := by
  cases x with
  | error e' => simp [bind, Except.bind]
  | ok bean =>
    constructor
    · intro h
      have hof : ofType type bean = .error e := h
      unfold ofType at hof
      split at hof
      · cases hof
      · cases hof
        exact absurd rfl he
    · intro h
      cases h

end Codec

/-! ## Documents that were written -/

theorem Json.record_injective {es es' : List (String × Json)} (h : Json.record es = .record es') :
    es = es' := by
  have hmap := (Json.object.inj h).1
  refine List.map_injective_iff.mpr ?_ hmap
  rintro ⟨name, j⟩ ⟨name', j'⟩ he
  obtain ⟨hkey, hj⟩ := Prod.mk.inj he
  rw [Json.Key.name.inj hkey, show j = j' from hj]

/-- The entries of an object are those that the writers write. -/
theorem Serializer.fields_of_serialize {s : Serializer σ} (hs : s.shape = .object) {bean : Bean σ}
    {es : List (String × Json)} (h : s.serialize bean = .ok (.record es)) :
    fields bean s.writers = .ok es := by
  obtain ⟨-, es', hfields, hrecord⟩ := (serialize_eq_ok_iff_fields hs).mp h
  rw [hfields, Json.record_injective hrecord]

/-- The elements of a list are those that the writers write, at their places. -/
theorem Serializer.forall₂_of_serialize {s : Serializer σ} (hs : s.shape = .array) {bean : Bean σ}
    {js : List Json} (h : s.serialize bean = .ok (.list js)) :
    List.Forall₂ (fun w j => w.element bean = .ok j) s.writers js := by
  obtain ⟨js', hlist, helements⟩ := serialize_list hs h
  cases hlist
  exact helements

/-- Whatever a writer writes stands at its place in a document. -/
theorem Writer.colonFault_of_field {w : Writer σ} {bean : Bean σ} {j : Json}
    (h : w.field bean = .ok (some j)) : j.colonFault = none := by
  have hencode : ∀ v s, (w.encode v s).map some = .ok (some j) → j.colonFault = none := by
    intro v s hv
    obtain ⟨k, hk, he⟩ := map_eq_ok_iff.mp hv
    cases he
    unfold encode at hk
    split at hk
    · exact Tree.colonFault_toJson (mapError_eq_ok_iff.mp hk)
    · split at hk
      · exact Tree.colonFault_toJson (mapError_eq_ok_iff.mp hk)
      · cases hk
  obtain ⟨e, -, he⟩ := bind_eq_ok_iff.mp h
  cases e with
  | nothing => cases he
  | null =>
    cases he
    rfl
  | fixed v => exact hencode v none he
  | value v s => exact hencode v s he

/-- Written entries are a document of names and values, in any order. -/
theorem Document.ofJson_record {mode : Mode} {depth : Nat} {es : List (String × Json)}
    (h : ∀ e ∈ es, e.2.colonFault = none) :
    Document.ofJson mode depth (.record es) =
      .ofEntries ⟨mode, Json.maxDepth - depth - 1⟩ es := by
  have hentries : (es.map fun e => (Json.Key.name e.1, e.2)).map (fun e => entryOf e.1 e.2) =
      es.map fun e => ⟨.ok e.1, .ok e.2⟩ := by
    rw [List.map_map]
    refine List.map_congr_left fun e he => ?_
    show (⟨.ok e.1, _⟩ : Entry) = _
    rw [h e he]
  show (⟨_, .entries _ none⟩ : Document) = ⟨_, .entries _ none⟩
  rw [← hentries]

end BeanBinding
