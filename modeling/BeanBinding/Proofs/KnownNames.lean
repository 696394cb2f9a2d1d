import BeanBinding.Proofs.Describing
import BeanBinding.Proofs.Using

/-!
# Which names a codec knows

A described bean is written under the names of the members that can be read, and read
under the names of those that can be set. These are two different selections: a computed
member, or one without a way to write it, shows in the object and has no place to go when
this is read again.

If unknown names are refused, an object of a codec's own making is therefore refused by
it at the first name that no member sets, unless something before it fails. It is never
refused for its names if each readable member shares its name with one that can be set.
-/

namespace BeanBinding

variable {σ : Type}

namespace Deserializer

variable {d : Deserializer σ} {r : Position} {bean : Bean σ} {type name : String}

/-! ## Unknown names -/

/-- A value may be refused for many reasons, but its name is none of them. -/
theorem receive_ne_unknown (fault : Fault) (s : Settable σ) (j : Json) (left : Bean σ) :
    d.receive r fault s j bean ≠ .error (.codec (.unknownProperty type name)) left := by
  rw [receive_eq]
  cases s.decoder.decode r j with
  | error e => simp
  | ok value =>
    cases hset : s.set value bean with
    | error e left' => simp [hset]
    | ok a next =>
      cases s.decoder.leavesRest r.mode j with
      | true => simp [hset]
      | false => simp [hset]

/-- One entry is refused for its name exactly if no property has the name. -/
theorem fillEntry_eq_unknown_iff (hd : d.failOnUnknown = true) {e : String × Json} :
    (∃ left, d.fillEntry r e bean = .error (.codec (.unknownProperty type name)) left) ↔
      type = d.bean.name ∧ d.property name = none ∧ e.1 = name := by
  rw [fillEntry]
  cases hp : d.property e.1 with
  | none =>
    have hskip : (lift (d.skipUnknown e.1 (.ok e.2)) : ChangeM ReadError σ Unit) bean =
        .error (.codec (.unknownProperty d.bean.name e.1)) bean := by
      rw [skipUnknown, if_pos hd]
      rfl
    dsimp only
    rw [hskip]
    constructor
    · rintro ⟨left, h⟩
      cases h
      exact ⟨rfl, hp, rfl⟩
    · rintro ⟨rfl, -, rfl⟩
      exact ⟨bean, rfl⟩
  | some s =>
    constructor
    · rintro ⟨left, h⟩
      exact absurd h (receive_ne_unknown .noObjectSeparator s e.2 left)
    · rintro ⟨-, hnone, rfl⟩
      rw [hnone] at hp
      cases hp

/-- A new bean is refused for the first name that no property has, if it is filled up to there. -/
theorem create_eq_unknown_iff (hd : d.shape = .object) (hc : d.creators = [])
    (hstrict : d.failOnUnknown = true) {es : List (String × Json)} :
    d.create (.ofEntries r es) = .error (.codec (.unknownProperty type name)) ↔
      type = d.bean.name ∧ d.property name = none ∧
        ∃ before j after made, es = before ++ (name, j) :: after ∧
          d.create (.ofEntries r before) = .ok made := by
  simp only [create_ofEntries_eq hd hc, fill_eq_error_iff, fill_eq_ok_iff]
  constructor
  · rintro (hfresh | ⟨made, left, hmade, hfill⟩)
    · -- that no bean could be made is another error
      rw [instantiate] at hfresh
      cases hm : d.instantiator.make with
      | error e =>
        rw [hm] at hfresh
        cases hfresh
      | ok made =>
        rw [hm] at hfresh
        cases hfresh
    · obtain ⟨before, e, after, reached, rfl, hbefore, he⟩ := forM_eq_error_iff.mp hfill
      obtain ⟨htype, hnone, rfl⟩ := (fillEntry_eq_unknown_iff hstrict).mp ⟨left, he⟩
      exact ⟨htype, hnone, before, e.2, after, reached, rfl, made, hmade, hbefore⟩
  · rintro ⟨htype, hnone, before, j, after, reached, rfl, made, hmade, hbefore⟩
    have hunknown : ∃ left, d.fillEntry r (name, j) reached =
        .error (.codec (.unknownProperty type name)) left :=
      (fillEntry_eq_unknown_iff hstrict).mpr ⟨htype, hnone, rfl⟩
    obtain ⟨left, he⟩ := hunknown
    exact .inr ⟨made, left, hmade,
      forM_eq_error_iff.mpr ⟨before, (name, j), after, reached, rfl, hbefore, he⟩⟩

end Deserializer

/-! ## Codecs of described types -/

namespace Codec.Describes

variable {c : Codec σ} {registry : Registry σ} {d : Description σ} {b : Bean σ}
  {es : List (String × Json)}

/-- Every entry that is written stands under the name of a readable member. -/
theorem reads_of_write (hc : c.Describes registry d)
    (hshape : d.shape.getD c.config.shape = .object) (hb : b.type = d.bean)
    (h : (c.write b (.ofRegistry registry)).result = .ok (.record es)) :
    ∀ e ∈ es, d.Reads e.1 ∧ e.2.colonFault = none := by
  obtain ⟨s, hs, -, hserialize⟩ := Codec.of_write h
  rw [hb, hc.buildSerializer] at hs
  obtain ⟨rfl, -⟩ := SerializerDraft.build_eq_ok_iff.mp hs
  have hfields := Serializer.fields_of_serialize hshape hserialize
  intro e he
  obtain ⟨w, hw, hname, hfield⟩ := (Serializer.mem_fields_iff hfields).mp he
  obtain ⟨m, hm, hreadable, rfl⟩ := mem_writers_ofDescription.mp hw
  rw [name_writerOf] at hname
  exact ⟨⟨m, hm, hreadable, hname⟩, Writer.colonFault_of_field hfield⟩

/-- Reading fails for the first name that no member sets, if a bean is made of what is before it. -/
theorem read_eq_unknown_iff (hc : c.Describes registry d)
    (hshape : d.shape.getD c.config.shape = .object) (hstrict : c.config.failOnUnknown = true)
    (hes : ∀ e ∈ es, e.2.colonFault = none) (mode : Mode) (depth : Nat)
    (ss : List (BeanType × Serializer σ)) (type name : String) :
    (c.read d.bean (.ofJson mode depth (.record es)) ⟨registry, ss, []⟩).result =
        .error (.codec (.unknownProperty type name)) ↔
      type = d.bean.name ∧ ¬ d.Sets name ∧ ∃ before j after, es = before ++ (name, j) :: after ∧
        ∃ s made, (c.deserializerFor d.bean ⟨registry, ss, []⟩).result = .ok s ∧
          s.create (.ofJson mode depth (.record before)) = .ok made := by
  rw [result_read, result_deserializerFor, hc.buildDeserializer]
  cases hs : (DeserializerDraft.ofDescription d c.config).build with
  | error e =>
    obtain ⟨p, rfl⟩ := DeserializerDraft.exists_problem_of_build hs
    simp
  | ok s =>
    obtain ⟨hk, hi⟩ := DeserializerDraft.indexed_of_build hs
    have hsets : s.property name = none ↔ ¬ d.Sets name := by
      rw [hi.property_eq_none_iff, hk.properties, ← exists_property_ofDescription_iff d c.config]
      simp only [not_exists, not_and, ne_eq]
    have hcreate : s.create (.ofEntries ⟨mode, Json.maxDepth - depth - 1⟩ es) =
        .error (.codec (.unknownProperty type name)) ↔ _ :=
      s.create_eq_unknown_iff (hk.shape.trans hshape) (elements_ofDescription hs).1
        (hk.failOnUnknown.trans hstrict)
    rw [hk.bean, hsets] at hcreate
    dsimp only
    rw [bind_ofType_eq_error_iff (by simp), Document.ofJson_record hes, hcreate]
    refine and_congr_right fun _ => and_congr_right fun _ => ?_
    constructor
    · rintro ⟨before, j, after, made, rfl, hmade⟩
      refine ⟨before, j, after, rfl, s, made, rfl, ?_⟩
      rw [Document.ofJson_record fun e he => hes e (List.mem_append_left _ he)]
      exact hmade
    · rintro ⟨before, j, after, rfl, s', made, hs', hmade⟩
      cases hs'
      rw [Document.ofJson_record fun e he => hes e (List.mem_append_left _ he)] at hmade
      exact ⟨before, j, after, made, rfl, hmade⟩

end Codec.Describes

/--
**A codec refuses its own object exactly at the first name that no member sets.**

Let a bean be written as an object by a codec that knows its type by a description and
refuses unknown names. Each name in the object is that of a member that can be read. When
the object is read again, a name is reported as unknown exactly if it was written, no
member of that name can be set, and the entries before it made a bean. So no name is ever
reported if each readable member shares its name with one that can be set.
-/
theorem own_name_unknown_iff {c : Codec σ} {registry : Registry σ} {d : Description σ}
    (hc : c.Describes registry d) (hshape : d.shape.getD c.config.shape = .object)
    (hstrict : c.config.failOnUnknown = true) {b : Bean σ} (hb : b.type = d.bean)
    {es : List (String × Json)}
    (hes : (c.write b (.ofRegistry registry)).result = .ok (.record es))
    (mode : Mode) (depth : Nat) :
    let st := (c.write b (.ofRegistry registry)).state
    let outcome := (c.read d.bean (.ofJson mode depth (.record es)) st).result
    (∀ e ∈ es, d.Reads e.1) ∧
      (∀ name, outcome = .error (.codec (.unknownProperty d.bean.name name)) ↔
        ¬ d.Sets name ∧ ∃ before j after, es = before ++ (name, j) :: after ∧
          ∃ s made, (c.deserializerFor d.bean st).result = .ok s ∧
            s.create (.ofJson mode depth (.record before)) = .ok made) ∧
      ((∀ name, d.Reads name → d.Sets name) →
        ∀ type name, outcome ≠ .error (.codec (.unknownProperty type name))) := by
  have hwritten := hc.reads_of_write hshape hb hes
  obtain ⟨kept, -, hstate, -⟩ := Codec.of_write hes
  rw [hstate]
  have hiff := hc.read_eq_unknown_iff hshape hstrict (fun e he => (hwritten e he).2) mode depth
    [(b.type, kept)]
  intro st outcome
  refine ⟨fun e he => (hwritten e he).1, fun name => ?_, ?_⟩
  · rw [hiff]
    simp only [true_and]
    rfl
  · intro hall type name h
    obtain ⟨-, hnot, before, j, after, rfl, -⟩ := (hiff type name).mp h
    exact hnot (hall name (hwritten (name, j) (by simp)).1)

/-! ### Pairs with computed sides -/

namespace Pair

/-- A pair that shows its left side only, as computed. -/
def leftComputed : Description (Tree × Tree) :=
  ⟨type, [.declare .computed leftProperty], some (of 0 0).state, none⟩

/-- A pair whose right side is shown by one member and set by another. -/
def rightDivided : Description (Tree × Tree) where
  bean := type
  members := [.declare .computed rightProperty,
    .declare .method { rightProperty with reader := none }]
  fresh := some (of 0 0).state
  shape := none

/-- What is written if a single member can be read. -/
theorem write_single {d : Description (Tree × Tree)} {m : Member (Tree × Tree)}
    (hd : (Codec.setup .default [d] []).description type = some d) (hbean : d.bean = type)
    (hm : SerializerDraft.readableMembers d = [m]) (hshape : d.shape = none)
    (b : Bean (Tree × Tree)) (hb : b.type = type) :
    ((Codec.setup .default [d] []).write b (.ofRegistry .empty)).result =
      (Serializer.fields b [SerializerDraft.writerOf .default m]).map .record := by
  have hdescribes : (Codec.setup .default [d] []).Describes .empty d :=
    Codec.describes_setup (hbean ▸ hd)
  have hwriters : (SerializerDraft.ofDescription d .default).writers =
      [SerializerDraft.writerOf .default m] := by
    show SerializerDraft.sortByKey ((SerializerDraft.readableMembers d).map _) = _
    rw [hm]
    exact List.mergeSort_singleton _
  have hbuild : (SerializerDraft.ofDescription d .default).build =
      .ok ⟨type, .object, [SerializerDraft.writerOf .default m]⟩ := by
    refine SerializerDraft.build_eq_ok_iff.mpr ⟨?_, ?_, ?_⟩
    · rw [hwriters]
      simp [SerializerDraft.ofDescription, hbean, hshape, Config.default]
    · rw [hwriters]
      exact List.nodup_singleton _
    · rw [hwriters]
      simp
  have hserializer : (Codec.buildSerializer _ .empty d.bean).value = _ :=
    hdescribes.buildSerializer.trans hbuild
  rw [Codec.result_write, hb, ← hbean, hserializer]
  show Serializer.serialize _ b = _
  rw [Serializer.serialize, if_neg (not_not.mpr hb)]

end Pair

/-- If the right side is set under the name under which it is shown, the name is known. -/
theorem divided_name_known :
    let c := Codec.setup .default [Pair.rightDivided] []
    let written := Json.record [("right", .number (.ofInt 2))]
    (c.write (Pair.of 1 2) (.ofRegistry .empty)).result = .ok written ∧
      ∀ type name, (c.read Pair.type (.ofJson .streamed 0 written)
        (c.write (Pair.of 1 2) (.ofRegistry .empty)).state).result ≠
          .error (.codec (.unknownProperty type name)) := by
  intro c written
  have hwrite : (c.write (Pair.of 1 2) (.ofRegistry .empty)).result = .ok written :=
    (Pair.write_single rfl rfl rfl rfl (Pair.of 1 2) rfl).trans rfl
  have hdescribes : c.Describes .empty Pair.rightDivided := Codec.describes_setup rfl
  refine ⟨hwrite, (own_name_unknown_iff hdescribes rfl rfl rfl hwrite .streamed 0).2.2 ?_⟩
  rintro name ⟨m, hm, hreadable, rfl⟩
  refine ⟨.declare .method { Pair.rightProperty with reader := none }, by simp [Pair.rightDivided],
    rfl, ?_⟩
  rcases List.mem_pair.mp hm with rfl | rfl
  · rfl
  · rfl

/-- A computed side is written, and then unknown. -/
theorem computed_name_unknown :
    let c := Codec.setup .default [Pair.leftComputed] []
    let written := Json.record [("left", .number (.ofInt 1))]
    Pair.leftComputed.fresh.isSome = true ∧ c.config.shape = .object ∧
      c.config.failOnUnknown = true ∧
      (c.write (Pair.of 1 2) (.ofRegistry .empty)).result = .ok written ∧
      (c.read Pair.type (.ofJson .streamed 0 written)
        (c.write (Pair.of 1 2) (.ofRegistry .empty)).state).result =
          .error (.codec (.unknownProperty "Pair" "left")) := by
  intro c written
  have hwrite : (c.write (Pair.of 1 2) (.ofRegistry .empty)).result = .ok written :=
    (Pair.write_single rfl rfl rfl rfl (Pair.of 1 2) rfl).trans rfl
  obtain ⟨s, -, hstate, -⟩ := Codec.of_write hwrite
  refine ⟨rfl, rfl, rfl, hwrite, ?_⟩
  rw [hstate, Codec.result_read]
  rfl

end BeanBinding
