import BeanBinding.Proofs.Updating
import BeanBinding.Proofs.Using

/-!
# Placeholders

In a list every property has its place. A value that is left out of an object leaves null
behind in a list, so that the elements after it keep theirs.

Nothing tells such a null from one that was a value. When the list is read, it is handed
to the property like any other null: a property that accepts no null refuses it, and one
that does is null from then on, whatever it was on the new bean. Only the null of a
property that cannot be read is passed over.
-/

namespace BeanBinding

variable {σ : Type}

/-! ## Elements -/

namespace Writer

variable {w : Writer σ} {bean : Bean σ}

/-- The writer leaves its property of a bean out. -/
def LeavesOut (w : Writer σ) (bean : Bean σ) : Prop := w.emit bean = .ok .nothing

theorem field_eq_none_iff : w.field bean = .ok none ↔ w.LeavesOut bean := by
  constructor
  · intro h
    obtain ⟨e, he, hj⟩ := bind_eq_ok_iff.mp h
    rw [mapError_eq_ok_iff] at he
    cases e with
    | nothing => exact he
    | null => cases hj
    | fixed v =>
      obtain ⟨_, -, hsome⟩ := map_eq_ok_iff.mp hj
      cases hsome
    | value v s =>
      obtain ⟨_, -, hsome⟩ := map_eq_ok_iff.mp hj
      cases hsome
  · intro h
    rw [field, h]
    rfl

/-- An element is what the entry would hold, or what stands for no entry. -/
theorem element_eq_ok_iff {j : Json} :
    w.element bean = .ok j ↔
      w.field bean = .ok (some j) ∨ w.LeavesOut bean ∧ w.placeholder = .ok j := by
  rw [← field_eq_none_iff, element]
  cases hf : w.field bean with
  | error e => simp [bind, Except.bind]
  | ok written =>
    cases written with
    | none => simp [bind, Except.bind]
    | some k => simp [bind, Except.bind, pure, Except.pure]

/-- Without a serializer for null, null stands for what is left out. -/
theorem element_eq_null (hw : w.nullSerializer = none) (h : w.LeavesOut bean) :
    w.element bean = .ok .null := by
  refine element_eq_ok_iff.mpr (.inr ⟨h, ?_⟩)
  rw [placeholder, hw]

end Writer

/-- A list that was written has an element for each property. -/
theorem Codec.Introspects.of_write_list {c : Codec σ} {registry : Registry σ}
    {i : Introspection σ} (hc : c.Introspects registry i) (hshape : c.config.shape = .array)
    {b : Bean σ} (hb : b.type = i.type) {js : List Json}
    (h : (c.write b (.ofRegistry registry)).result = .ok (.list js)) :
    (∃ s, (c.write b (.ofRegistry registry)).state = ⟨registry, [(i.type, s)], []⟩) ∧
      List.Forall₂ (fun p j =>
        ((SerializationBinder.ofConfig c.config).synthesize p).element b = .ok j)
          i.properties js := by
  obtain ⟨s, hs, hstate, hserialize⟩ := Codec.of_write h
  rw [hb] at hs hstate
  rw [hc.buildSerializer] at hs
  have hbuilt := (SerializerDraft.build_eq_ok_iff.mp hs).1
  have hsshape : s.shape = .array := by rw [hbuilt]; exact hshape
  have helements := Serializer.forall₂_of_serialize hsshape hserialize
  rw [hbuilt] at helements
  exact ⟨⟨s, hstate⟩, List.forall₂_map_left_iff.mp helements⟩

/-! ## Reading the elements of a list -/

namespace Deserializer

variable {d : Deserializer σ} {r : Position} {js js' : List Json} {fault : Fault}

/-- Changes in a row fill a bean one after the other. -/
theorem fill_bind (fresh : Except ReadError (Bean σ)) (x y : ChangeM ReadError σ Unit) :
    fill fresh (do x; y) = fill (fill fresh x) y := by
  cases fresh with
  | error e => rfl
  | ok made =>
    cases hx : x made with
    | ok a bean =>
      have hbind : (do x; y : ChangeM ReadError σ Unit) made = y bean := change_bind_ok hx
      simp only [fill, bind, Except.bind, hx] at hbind ⊢
      rw [hbind]
    | error e left =>
      have hbind : (do x; y : ChangeM ReadError σ Unit) made = .error e left :=
        change_bind_error hx
      simp only [fill, bind, Except.bind, hx] at hbind ⊢
      rw [hbind]

/-- **A longer list goes on with the bean that the shorter one makes.** -/
theorem create_ofList_append (hd : d.shape = .array) (hc : d.creators = [])
    (h : (js ++ js').length ≤ d.elements.length) :
    d.create (.ofList r (js ++ js')) = fill (d.create (.ofList r js))
      (d.receiveAll r .noListSeparator (((d.elements.map (·.2)).drop js.length).zip js')) := by
  have hjs : js.length ≤ d.elements.length := by
    rw [List.length_append] at h
    omega
  rw [create_ofList hd hc h, create_ofList hd hc hjs, zip_append_right, receiveAll_append,
    fill_bind]

/-- Reading a list fails on the element of a place: the elements before it make a bean. -/
def FailsOn (d : Deserializer σ) (r : Position) (js : List Json) (k : Nat) (e : ReadError) :
    Prop :=
  (∃ reached, d.create (.ofList r (js.take k)) = .ok reached) ∧
    d.create (.ofList r (js.take (k + 1))) = .error e

/-- Then reading the whole list fails. -/
theorem FailsOn.create_eq {k : Nat} {e : ReadError} (h : d.FailsOn r js k e)
    (hd : d.shape = .array) (hc : d.creators = []) (hjs : js.length ≤ d.elements.length) :
    d.create (.ofList r js) = .error e := by
  rw [← List.take_append_drop (k + 1) js] at hjs ⊢
  rw [create_ofList_append hd hc hjs, h.2]
  rfl

/-- Null is decoded as the absence of a value, whatever the type, and then set. -/
theorem receive_null {p : Property σ} :
    d.receive r fault (.virtual p) .null = d.set (.virtual p) none := by
  funext bean
  have hdecode : (Settable.virtual p).decoder.decode r .null = .ok none := rfl
  have hrest : (Settable.virtual p).decoder.leavesRest r.mode .null = false :=
    p.valueType.schema.leavesRest_null r.mode
  rw [receive_eq, hdecode, hrest, set]
  dsimp only
  cases (Settable.virtual p).set none bean with
  | ok a bean' => rfl
  | error e left => rfl

section

variable {k : Nat} {p : Property σ} (hd : d.shape = .array) (hc : d.creators = [])
  (hjs : js.length ≤ d.elements.length) (hk : (d.elements.map (·.2))[k]? = some (.virtual p))
  (hnull : js[k]? = some .null)

include hd hc hjs hk hnull

/-- A null goes to the property of its place, on the bean that was made so far. -/
theorem create_take_null :
    d.create (.ofList r (js.take (k + 1))) =
      fill (d.create (.ofList r (js.take k))) (d.set (.virtual p) none) := by
  have hlt : k < js.length := (List.getElem?_eq_some_iff.mp hnull).1
  have htake : js.take (k + 1) = js.take k ++ [.null] := by
    rw [List.take_add_one, hnull]
    rfl
  have hlength : (js.take k).length = k := by
    rw [List.length_take]
    omega
  have hle : (js.take k ++ [Json.null]).length ≤ d.elements.length := by
    rw [List.length_append, hlength, List.length_singleton]
    omega
  have hle' : (js.take k).length ≤ d.elements.length := by omega
  have hslot : (d.elements.map (·.2))[(js.take k).length]? = some (.virtual p) := by
    rw [hlength]
    exact hk
  -- reading one element more is reading those before it, and then handing this one over
  rw [htake, create_ofList hd hc hle, create_ofList hd hc hle', receiveAll_snoc .null hslot,
    fill_bind, receive_null]

/-- **Reading fails on a null exactly if the property, which can be read, refuses it.** -/
theorem failsOn_null_iff (hp : p.isReadable = true) {e : ReadError} :
    d.FailsOn r js k e ↔ ∃ reached cause left,
      d.create (.ofList r (js.take k)) = .ok reached ∧ p.write none reached = .error cause left ∧
        e = .codec (.access d.bean.name p.externalName cause) := by
  have hset : ∀ reached left, d.set (.virtual p) none reached = .error e left ↔
      ∃ cause, p.write none reached = .error cause left ∧
        e = .codec (.access d.bean.name p.externalName cause) := by
    intro reached left
    rw [set_eq_error_iff, Settable.set_virtual hp]
    rfl
  rw [FailsOn, create_take_null hd hc hjs hk hnull, fill_eq_error_iff]
  constructor
  · rintro ⟨⟨reached, hreached⟩, herror | ⟨made, left, hmade, herror⟩⟩
    · rw [hreached] at herror
      cases herror
    · obtain ⟨cause, hwrite, he⟩ := (hset made left).mp herror
      exact ⟨made, cause, left, hmade, hwrite, he⟩
  · rintro ⟨reached, cause, left, hreached, hwrite, he⟩
    exact ⟨⟨reached, hreached⟩, .inr ⟨reached, left, hreached,
      (hset reached left).mpr ⟨cause, hwrite, he⟩⟩⟩

end

end Deserializer

/-! ## What becomes of the property -/

/--
Only writes into the property change it, those that succeed, and a null that it accepts makes
it null.
-/
structure Introspection.Isolates (i : Introspection σ) (p : Property σ) : Prop where
  erased : ∀ bean bean', p.write none bean = .ok () bean' → p.value bean' = .ok none
  untouched : ∀ q ∈ i.properties, q.externalName ≠ p.externalName → ∀ v bean bean',
    q.write v bean = .ok () bean' → p.value bean' = p.value bean

/-- Changes to other properties leave a property as it is. -/
theorem Deserializer.value_receiveAll {d : Deserializer σ} {r : Position} {fault : Fault}
    {p : Property σ} {xs : List (Settable σ × Json)}
    (h : ∀ x ∈ xs, ∀ v bean bean', x.1.set v bean = .ok () bean' → p.value bean' = p.value bean)
    {bean bean' : Bean σ} (hrun : d.receiveAll r fault xs bean = .ok () bean') :
    p.value bean' = p.value bean := by
  rw [receiveAll_eq_forM] at hrun
  refine forM_preserves (fun x hx next next' hstep => ?_) hrun
  obtain ⟨value, -, hset, -⟩ := receive_eq_ok_iff.mp hstep
  exact h x hx value next next' hset

/-- What stands after the place of a property has another name. -/
theorem externalName_ne_of_mem_drop {ps : List (Property σ)}
    (hnodup : (ps.map (·.externalName)).Nodup) {k : Nat} {p q : Property σ}
    (hk : ps[k]? = some p) (hq : q ∈ ps.drop (k + 1)) : q.externalName ≠ p.externalName := by
  obtain ⟨hlt, rfl⟩ := List.getElem?_eq_some_iff.mp hk
  have hsub := (List.drop_sublist k ps).map (·.externalName)
  rw [List.drop_eq_getElem_cons hlt, List.map_cons] at hsub
  have hnot := (List.nodup_cons.mp (hnodup.sublist hsub)).1
  exact fun hname => hnot (List.mem_map.mpr ⟨q, hq, hname⟩)

/-- A property that accepted null in its place is null in the end. -/
theorem Introspection.Isolates.value_create {i : Introspection σ} {p : Property σ}
    (h : i.Isolates p) {d : Deserializer σ} (hd : d.shape = .array) (hc : d.creators = [])
    (helements : d.elements.map (·.2) = i.properties.map .virtual)
    (hnodup : (i.properties.map (·.externalName)).Nodup)
    (hreadable : ∀ q ∈ i.properties, q.isReadable = true) {r : Position} {js : List Json}
    (hjs : js.length ≤ d.elements.length) {k : Nat} (hk : i.properties[k]? = some p)
    (hnull : js[k]? = some .null) {back : Bean σ} (hback : d.create (.ofList r js) = .ok back) :
    p.value back = .ok none := by
  have hke : (d.elements.map (·.2))[k]? = some (.virtual p) := by
    rw [helements, List.getElem?_map, hk]
    rfl
  have hlt : k < js.length := (List.getElem?_eq_some_iff.mp hnull).1
  have hle : (js.take (k + 1) ++ js.drop (k + 1)).length ≤ d.elements.length := by
    rw [List.take_append_drop]
    exact hjs
  have hlength : (js.take (k + 1)).length = k + 1 := by
    rw [List.length_take]
    omega
  -- the list is split behind the null: the first part ends with it
  have hcreate := Deserializer.create_ofList_append (r := r) hd hc hle
  rw [List.take_append_drop, hback, hlength] at hcreate
  obtain ⟨made, hmade, hrest⟩ := Deserializer.fill_eq_ok_iff.mp hcreate.symm
  rw [Deserializer.create_take_null hd hc hjs hke hnull] at hmade
  obtain ⟨reached, -, hset⟩ := Deserializer.fill_eq_ok_iff.mp hmade
  have hwrite : p.write none reached = .ok () made := by
    rw [Deserializer.set_eq_ok_iff,
      Settable.set_virtual (hreadable p (List.mem_of_getElem? hk))] at hset
    exact hset
  rw [Deserializer.value_receiveAll ?_ hrest]
  · exact h.erased reached made hwrite
  · -- the elements that follow belong to other properties
    intro x hx v bean bean' hxset
    have hmem := (List.of_mem_zip hx).1
    rw [helements, ← List.map_drop] at hmem
    obtain ⟨q, hq, hxq⟩ := List.mem_map.mp hmem
    have hqm := List.mem_of_mem_drop hq
    rw [← hxq, Settable.set_virtual (hreadable q hqm)] at hxset
    exact h.untouched q hqm (externalName_ne_of_mem_drop hnodup hk hq) v bean bean' hxset

/-! ## Lists of an introspected type -/

/--
**What was left out of a list is read as null.**

Let a bean of an introspected type without arguments be written as a list, all of its
properties being readable. Where a property is left out, the list holds null. Reading the
list fails on it exactly if the elements before it make a bean, beginning with the new
bean, on which the property refuses null; the error is that of the property. A property
that accepts it, and that the other properties leave alone, is null in the end, so it
keeps the value that it has on a new bean exactly if that is null.
-/
theorem left_out_read_as_null {c : Codec σ} {registry : Registry σ} {i : Introspection σ}
    (hi : i.WellFormed) (hc : c.Introspects registry i) (hshape : c.config.shape = .array)
    (harguments : i.arguments = []) (hnames : (i.properties.map (·.externalName)).Nodup)
    (hreadable : ∀ p ∈ i.properties, p.isReadable = true)
    {fresh : Bean σ} (hfresh : i.instantiate = .ok fresh) {b : Bean σ} (hb : b.type = i.type)
    {js : List Json} (hjs : (c.write b (.ofRegistry registry)).result = .ok (.list js))
    (mode : Mode) (depth : Nat) :
    let st := (c.write b (.ofRegistry registry)).state
    let r : Position := ⟨mode, Json.maxDepth - depth - 1⟩
    let outcome := (c.read i.type (.ofJson mode depth (.list js)) st).result
    ∃ d, (c.deserializerFor i.type st).result = .ok d ∧
      d.create (.ofList r []) = .ok fresh ∧
      ∀ k p, i.properties[k]? = some p →
        ((SerializationBinder.ofConfig c.config).synthesize p).LeavesOut b →
          js[k]? = some .null ∧
          (∀ e, d.FailsOn r js k e ↔ ∃ reached cause left,
            d.create (.ofList r (js.take k)) = .ok reached ∧
              p.write none reached = .error cause left ∧
                e = .codec (.access i.type.name p.externalName cause)) ∧
          (∀ e, d.FailsOn r js k e → outcome = .error e) ∧
          (i.Isolates p → ∀ back, outcome = .ok back →
            p.value back = .ok none ∧
              (p.value back = p.value fresh ↔ p.value fresh = .ok none)) := by
  obtain ⟨⟨s, hstate⟩, helements⟩ := hc.of_write_list hshape hb hjs
  rw [hstate]
  intro st r outcome
  obtain ⟨d, hbuild, hd⟩ := c.exists_reads hi hnames (by rw [harguments]; exact List.nodup_nil)
  have hdshape : d.shape = .array := hd.shape.trans hshape
  have hcreators : d.creators = [] := by rw [hd.creators, harguments]; rfl
  have hslots : d.elements.map (·.2) = i.properties.map .virtual :=
    (hd.indexed.elements_eq_properties hcreators).trans hd.properties
  have hlength : js.length ≤ d.elements.length := by
    have hcount := congrArg List.length hslots
    rw [List.length_map, List.length_map, helements.length_eq] at hcount
    exact Nat.le_of_eq hcount.symm
  have hread : outcome = d.create (.ofList r js) >>= Codec.ofType i.type := by
    show (c.read i.type _ _).result = _
    rw [Codec.result_read, hc.buildDeserializer, hbuild]
    rfl
  refine ⟨d, ?_, ?_, ?_⟩
  · -- the write keeps a serializer only, so the deserializer is built here
    rw [Codec.result_deserializerFor, hc.buildDeserializer, hbuild]
  · rw [Deserializer.create_ofList hdshape hcreators (Nat.zero_le _), List.zip_nil_right,
      Deserializer.instantiate, hd.instantiator]
    show Deserializer.fill ((i.instantiate).mapError _) _ = _
    rw [hfresh]
    rfl
  · intro k p hk hout
    have hp := hreadable p (List.mem_of_getElem? hk)
    have hnull : js[k]? = some .null := by
      obtain ⟨hlt, rfl⟩ := List.getElem?_eq_some_iff.mp hk
      have hlt' : k < js.length := by rw [← helements.length_eq]; exact hlt
      have hwritten := helements.get hlt hlt'
      rw [List.get_eq_getElem, List.get_eq_getElem,
        Writer.element_eq_null (SerializationBinder.plain_synthesize hp).nullSerializer hout]
        at hwritten
      rw [List.getElem?_eq_getElem hlt', ← Except.ok.inj hwritten]
    have hslot : (d.elements.map (·.2))[k]? = some (.virtual p) := by
      rw [hslots, List.getElem?_map, hk]
      rfl
    refine ⟨hnull, ?_, ?_, ?_⟩
    · intro e
      rw [← hd.bean]
      exact Deserializer.failsOn_null_iff hdshape hcreators hlength hslot hnull hp
    · intro e he
      rw [hread, he.create_eq hdshape hcreators hlength]
      rfl
    · intro hisolates back hback
      rw [hread] at hback
      obtain ⟨made, hcreate, htype⟩ := bind_eq_ok_iff.mp hback
      obtain ⟨-, rfl⟩ := Codec.ofType_eq_ok_iff.mp htype
      have hvalue := hisolates.value_create hdshape hcreators hslots hnames hreadable hlength hk
        hnull hcreate
      refine ⟨hvalue, ?_⟩
      rw [hvalue, eq_comm]

/-! ### Numbers with a label -/

namespace Labelled

/-- The type of numbers with a label, which may be missing. -/
def type : BeanType := ⟨"Labelled"⟩

/-- The type of labels. -/
def text : ValueType := ⟨"text", .text⟩

/-- A number with a label. -/
def of (n : Int) (label : Option String) : Bean (Tree × Option Tree) :=
  ⟨type, (.int .i64 n, label.map .text)⟩

/-- The property of the number. -/
def number : Property (Tree × Option Tree) :=
  ((Property.declare type "number" Pair.number).getter Prod.fst).setter fun s t => (t, s.2)

/-- The property of the label, which can be null. -/
def label : Property (Tree × Option Tree) :=
  ((Property.declare type "label" text).getterOpt Prod.snd).setterOpt fun s t => (s.1, t)

/-- The property of the label, as one that is never null. -/
def fullLabel : Property (Tree × Option Tree) :=
  ((Property.declare type "label" text).getter fun s => s.2.getD (.text "")).setter
    fun s t => (s.1, some t)

/-- The introspection of numbers that have the given label, and a label when they are new. -/
def introspection (label : Property (Tree × Option Tree)) : Introspection (Tree × Option Tree) :=
  (((Introspection.declare type).withProperty number).withProperty label).withFresh
    (of 0 (some "new")).state

/-- A codec for lists with some elements left out. -/
def codec (rule : Inclusion) : Codec (Tree × Option Tree) :=
  .setup { Config.default with shape := .array, inclusion := rule } [] [introspectionModule]

/-- A label is changed through its property only. -/
theorem isolates_label : (introspection label).Isolates label where
  erased := by
    intro bean bean' hwrite
    obtain ⟨hb, rfl⟩ := Property.write_setterOpt_none_eq_ok_iff.mp hwrite
    exact Property.value_getterOpt hb
  untouched := by
    intro q hq hne v bean bean' hwrite
    rcases List.mem_pair.mp hq with rfl | rfl
    · obtain ⟨-, _, t, -, -, rfl⟩ := Property.write_setter_eq_ok_iff.mp hwrite
      rfl
    · exact absurd rfl hne

end Labelled

/-- A missing label is read back as missing, where a new bean has one. -/
theorem missing_label_read_back :
    let c := Labelled.codec .nonNull
    let st := .ofRegistry ⟨[Labelled.introspection Labelled.label]⟩
    let written := .list [.number (.ofInt 1), .null]
    (c.write (Labelled.of 1 none) st).result = .ok written ∧
      ∃ back, (c.read Labelled.type (.ofJson .streamed 0 written)
          (c.write (Labelled.of 1 none) st).state).result = .ok back ∧
        Labelled.label.value back = .ok none ∧
        Labelled.label.value back ≠ Labelled.label.value (Labelled.of 0 (some "new")) := by
  intro c st written
  have hwrite : (c.write (Labelled.of 1 none) st).result = .ok written := rfl
  have hdeclared : (Labelled.introspection Labelled.label).Declared :=
    (((Introspection.Declared.declare _).withProperty _).withProperty _).withFresh _
  have hintrospects : c.Introspects ⟨[Labelled.introspection Labelled.label]⟩
      (Labelled.introspection Labelled.label) :=
    Codec.introspects_setup rfl (by simp) (by simp [Registry.find])
  have hreadable : ∀ p ∈ (Labelled.introspection Labelled.label).properties,
      p.isReadable = true := by
    intro p hp
    rcases List.mem_pair.mp hp with rfl | rfl
    · rfl
    · rfl
  obtain ⟨d, -, -, hplaces⟩ := left_out_read_as_null hdeclared.wellFormed hintrospects rfl rfl
    (by decide) hreadable rfl rfl hwrite .streamed 0
  obtain ⟨-, -, -, hvalue⟩ := hplaces 1 Labelled.label rfl rfl
  have hread : ∃ back, (c.read Labelled.type (.ofJson .streamed 0 written)
      (c.write (Labelled.of 1 none) st).state).result = .ok back := ⟨_, rfl⟩
  obtain ⟨back, hback⟩ := hread
  obtain ⟨hnull, hkept⟩ := hvalue Labelled.isolates_label back hback
  refine ⟨hwrite, back, hback, hnull, fun hsame => ?_⟩
  cases hkept.mp hsame

/-- An empty label is left out, and the null in its place is refused. -/
theorem empty_label_refused :
    let i := Labelled.introspection Labelled.fullLabel
    let c := Labelled.codec .nonEmpty
    let st := .ofRegistry ⟨[i]⟩
    let written := .list [.number (.ofInt 1), .null]
    i.arguments = [] ∧ (∀ p ∈ i.properties, p.isReadable = true ∧ p.isWritable = true) ∧
      (i.properties.map (·.externalName)).Nodup ∧
      i.instantiate = .ok (Labelled.of 0 (some "new")) ∧
      ((SerializationBinder.ofConfig c.config).synthesize Labelled.fullLabel).LeavesOut
        (Labelled.of 1 (some "")) ∧
      (c.write (Labelled.of 1 (some "")) st).result = .ok written ∧
      (c.read Labelled.type (.ofJson .streamed 0 written)
        (c.write (Labelled.of 1 (some "")) st).state).result =
          .error (.codec (.access "Labelled" "label" .nullNotAccepted)) := by
  intro i c st written
  refine ⟨rfl, ?_, by decide, rfl, rfl, rfl, rfl⟩
  intro p hp
  rcases List.mem_pair.mp hp with rfl | rfl
  · exact ⟨rfl, rfl⟩
  · exact ⟨rfl, rfl⟩

end BeanBinding
