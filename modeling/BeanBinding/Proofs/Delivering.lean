import BeanBinding.Proofs.Collecting
import BeanBinding.Proofs.Using

/-!
# How arguments get to a constructor

Three numberings meet when a bean is made from arguments: the places in which arguments
are declared, the indices that their creators carry, and the slots that values are kept
in. Building a deserializer makes them one, so the constructor finds in each slot what
the document says about the argument declared there.

The constructor is handed a slot for each argument, and never a list of another length.
Its own check of the length is there for callers other than a codec: whatever document is
read, an error about the number of arguments can only come from the constructor itself.
-/

namespace BeanBinding

variable {σ : Type}

/-! ## Documents that are given -/

/-- A document that somebody can hand to a codec: a JSON value, or integers under integers. -/
inductive Document.Given : Document → Prop where
  | ofJson (mode : Mode) (depth : Nat) (j : Json) : Given (.ofJson mode depth j)
  | ofNumbers (es : List (Int × Int)) : Given (.ofNumbers es)

theorem Document.ofDocument_of_nameOf {key : Json.Key} {value : Json} {e : ReadError}
    (h : nameOf key value = .error e) : e.OfDocument := by
  cases key with
  | name s => cases h
  | broken read skip =>
    cases h
    trivial
  | misplaced =>
    cases h
    trivial

/-- If there is no name where one is due, this is the document's fault. -/
theorem Document.Given.ofDocument_of_key {document : Document} (h : document.Given)
    {es : List Entry} {ending : Option Fault}
    (hes : document.seenAs .object = .entries es ending) {e : Entry} (he : e ∈ es) {x : ReadError}
    (hx : e.key = .error x) : x.OfDocument := by
  cases h with
  | ofJson mode depth j =>
    cases j with
    | object entries last =>
      cases hes
      obtain ⟨⟨key, value⟩, -, rfl⟩ := List.mem_map.mp he
      exact ofDocument_of_nameOf hx
    | _ => cases hes
  | ofNumbers numbers =>
    cases hes
    obtain ⟨number, -, rfl⟩ := List.mem_map.mp he
    cases hx
    trivial

/-! ## Binding -/

/-- Beans are made by the introspection if binding to it comes last. -/
theorem instantiator_modifyDraft {registry : Registry σ} {config : Config}
    {type : BeanType} {i : Introspection σ} (hi : registry.find type = some i)
    (before : List (DeserializerModifier σ)) (draft : DeserializerDraft σ) :
    (modifyDraft registry config type (before ++ [bindDeserializers])
      draft).value.instantiator = .ofIntrospection i := by
  induction before generalizing draft with
  | nil =>
    show (bindDeserializers registry config type draft).value.instantiator = _
    rw [bindDeserializers, hi]
    rfl
  | cons m before ih => exact ih _

theorem Codec.makesBy_of_build {c : Codec σ} {registry : Registry σ} {type : BeanType}
    {i : Introspection σ} (hi : i.WellFormed) (hreg : registry.find type = some i)
    {before : List (DeserializerModifier σ)}
    (hm : c.modifiers.deserializer = before ++ [bindDeserializers]) {d : Deserializer σ}
    (hd : (c.buildDeserializer registry type).value = .ok d) : d.MakesBy i := by
  have hinstantiator : (modifyDraft registry c.config type (before ++ [bindDeserializers])
      (c.draftDeserializer type)).value.instantiator = .ofIntrospection i :=
    instantiator_modifyDraft hreg before _
  rw [← hm] at hinstantiator
  exact DeserializerDraft.makesBy_of_build hd hi hinstantiator

/-! ## Making a bean from what was collected -/

/-- The bean that the constructor makes of values, one for each argument. -/
def Introspection.constructed (i : Introspection σ) (values : List (Option Value)) :
    Except InstantiationError (Bean σ) :=
  match i.constructor with
  | none => .error (.noConstructor i.type.name)
  | some k => i.construct k values

/-- The number of values is not complained about if it is right. -/
theorem Introspection.instantiateWith_of_length {i : Introspection σ}
    {values : List (Option Value)} (h : values.length = i.arguments.length) :
    i.instantiateWith values = i.constructed values := by
  unfold instantiateWith constructed
  cases i.constructor with
  | none => rfl
  | some k =>
    dsimp only
    rw [if_neg (not_not.mpr h)]

namespace Deserializer

variable {d : Deserializer σ} {i : Introspection σ} {r : Position} {es : List (String × Json)}

/-- The deserializer, with another way to make beans from values. -/
def making (d : Deserializer σ) (make : List (Option Value) → Except InstantiationError (Bean σ)) :
    Deserializer σ :=
  { d with instantiator := { d.instantiator with makeWith := make } }

theorem Gathers.making (h : d.Gathers i)
    (make : List (Option Value) → Except InstantiationError (Bean σ)) :
    (d.making make).Gathers i where
  indexed :=
    ⟨h.indexed.propertyNames, h.indexed.propertyIndex, h.indexed.creatorNames,
      h.indexed.creatorIndex, h.indexed.creatorSlots, h.indexed.slot_lt, h.indexed.elementOrder⟩
  creators := h.creators
  slotOf := h.slotOf

theorem Gathers.usesCreators (h : d.Gathers i) (hi : i.arguments ≠ []) :
    d.usesCreators = true := by
  rw [Deserializer.usesCreators, h.creators, List.isEmpty_map]
  simpa using hi

/-- With creators, entries are collected, and then a bean is made. -/
theorem create_ofEntries_of_creators (hshape : d.shape = .object) (huses : d.usesCreators = true) :
    d.create (.ofEntries r es) =
      d.collectEntries r none (es.map fun e => ⟨.ok e.1, .ok e.2⟩) d.pending >>= d.complete := by
  simp only [create, hshape, Document.seenAs, Document.ofEntries, huses, if_true]

/-- A bean is made from what accepted entries leave behind. -/
theorem Gathers.create_ofEntries (h : d.Gathers i) (hi : i.arguments ≠ [])
    (hshape : d.shape = .object) (hes : ∀ e ∈ es, d.Accepts r e) :
    d.create (.ofEntries r es) = d.complete (d.gathered i r es) := by
  rw [create_ofEntries_of_creators hshape (h.usesCreators hi), h.collectEntries_gathered hes]
  rfl

/-- **An argument that is missing is reported before a bean is made**, however it would be. -/
theorem Gathers.create_of_missing (h : d.Gathers i) (hshape : d.shape = .object)
    (hes : ∀ e ∈ es, d.Accepts r e) {a : Argument}
    (ha : i.firstMissing (es.map (·.1)) = some a) :
    d.create (.ofEntries r es) =
      .error (.codec (.missingProperty d.bean.name a.externalName)) := by
  have harguments : i.arguments ≠ [] := by
    intro hnil
    rw [Introspection.firstMissing, hnil] at ha
    cases ha
  have hmissing := h.firstMissing_eq (p := d.gathered i r es) rfl
  rw [ha] at hmissing
  rw [h.create_ofEntries harguments hshape hes, complete, hmissing]
  rfl

/-- **The constructor is handed a value for each argument**, and then the others are set. -/
theorem MakesBy.create_of_complete (h : d.MakesBy i) (hi : i.arguments ≠ [])
    (hshape : d.shape = .object) (hes : ∀ e ∈ es, d.Accepts r e)
    (hm : i.firstMissing (es.map (·.1)) = none) :
    d.create (.ofEntries r es) =
      fill ((i.constructed (i.arguments.map (·.valueIn r es))).mapError fun e =>
        .codec (.instantiation d.bean.name e)) (d.setAll (d.waiting i r es)) := by
  rw [h.create_ofEntries hi hshape hes, h.complete_eq rfl, hm,
    ← Introspection.instantiateWith_of_length (List.length_map _)]
  rfl

/-! ## Errors of making a bean -/

/-- The bean refuses a value. -/
def Refuses (d : Deserializer σ) (e : ReadError) : Prop :=
  ∃ name cause, e = .codec (.access d.bean.name name cause)

theorem refuses_of_setAll {xs : List (Settable σ × Option Value)} {bean left : Bean σ}
    {e : ReadError} (h : d.setAll xs bean = .error e left) : d.Refuses e := by
  induction xs generalizing bean with
  | nil => cases h
  | cons x xs ih =>
    obtain ⟨s, value⟩ := x
    rw [setAll] at h
    cases hset : d.set s value bean with
    | ok a next =>
      rw [change_bind_ok hset] at h
      exact ih h
    | error e' left' =>
      rw [change_bind_error hset] at h
      cases h
      obtain ⟨cause, -, he⟩ := set_eq_error_iff.mp hset
      exact ⟨s.name, cause, he⟩

/-- Either no bean is made, or the bean that is made cannot be filled. -/
theorem error_of_fill {type : String} {fresh : Except InstantiationError (Bean σ)}
    {change : ChangeM ReadError σ Unit} {e : ReadError}
    (h : fill (fresh.mapError fun cause => .codec (.instantiation type cause)) change = .error e) :
    (∃ cause, fresh = .error cause ∧ e = .codec (.instantiation type cause)) ∨
      ∃ made left, change made = .error e left := by
  rcases fill_eq_error_iff.mp h with hfresh | ⟨made, left, -, hchange⟩
  · cases fresh with
    | ok made => cases hfresh
    | error cause =>
      cases hfresh
      exact .inl ⟨cause, rfl, rfl⟩
  · exact .inr ⟨made, left, hchange⟩

/-- What was collected either lacks an argument, or makes no bean, or the bean refuses a value. -/
theorem error_of_complete {p : Pending σ} {e : ReadError} (h : d.complete p = .error e) :
    (∃ s, d.firstMissing p = some s ∧ e = .codec (.missingProperty d.bean.name s.name)) ∨
      (∃ cause, d.instantiator.makeWith p.arguments = .error cause ∧
        e = .codec (.instantiation d.bean.name cause)) ∨ d.Refuses e := by
  unfold complete at h
  split at h
  · rename_i s hs
    cases h
    exact .inl ⟨s, hs, rfl⟩
  · rcases error_of_fill h with hmake | ⟨made, left, hset⟩
    · exact .inr (.inl hmake)
    · exact .inr (.inr (refuses_of_setAll hset))

/-- What was properly collected has a value for each argument. -/
theorem MakesBy.constructed_of_proper (h : d.MakesBy i) {x : Except ReadError (Pending σ)}
    (hx : d.Proper x) {type : String} {cause : InstantiationError}
    (he : x >>= d.complete = .error (.codec (.instantiation type cause))) :
    ∃ values, values.length = i.arguments.length ∧ i.constructed values = .error cause := by
  cases x with
  | error e =>
    -- the document is at fault, so no bean was ever to be made
    cases he
    exact hx.elim
  | ok p =>
    have hlength : p.arguments.length = i.arguments.length := by
      rw [show p.arguments.length = d.creators.length from hx, h.creators, List.length_map]
    have hcomplete : d.complete p = .error (.codec (.instantiation type cause)) := he
    rcases error_of_complete hcomplete with ⟨s, -, he⟩ | ⟨cause', hmake, he⟩ | ⟨name, cause', he⟩
    · cases he
    · cases he
      rw [h.instantiator] at hmake
      exact ⟨p.arguments, hlength,
        (Introspection.instantiateWith_of_length hlength).symm.trans hmake⟩
    · cases he

theorem ofDocument_notABean (content : Content) : (d.notABean content).OfDocument := by
  cases content with
  | neither found =>
    cases found with
    | ok found => trivial
    | error fault => trivial
  | _ => trivial

/-- **If making a bean fails, the constructor was handed a value for each argument.** -/
theorem MakesBy.constructed_of_create (h : d.MakesBy i) (hi : i.arguments ≠ [])
    {document : Document} (hgiven : document.Given) {type : String} {cause : InstantiationError}
    (he : d.create document = .error (.codec (.instantiation type cause))) :
    ∃ values, values.length = i.arguments.length ∧ i.constructed values = .error cause := by
  have hpending : d.pending.arguments.length = d.creators.length := List.length_replicate
  unfold create at he
  rw [h.usesCreators hi] at he
  split at he
  · rename_i es ending hshape hcontent
    rw [hshape] at hcontent
    exact h.constructed_of_proper (proper_collectEntries
      (fun e hmem x hx => hgiven.ofDocument_of_key hcontent hmem hx) hpending) he
  · exact h.constructed_of_proper (proper_collectItems hpending) he
  · -- nothing is made of a document of another form
    have hdocument := ofDocument_notABean (d := d) (document.seenAs d.shape)
    rw [Except.error.inj he] at hdocument
    exact hdocument.elim

/-! ## Missing arguments -/

/-- An entry of a new bean fails for a reason in the document, or the bean refuses its value. -/
theorem error_of_fillEntry {e : String × Json} {bean left : Bean σ} {x : ReadError}
    (h : d.fillEntry r e bean = .error x left) : x.OfDocument ∨ d.Refuses x := by
  rw [fillEntry] at h
  cases hp : d.property e.1 with
  | none =>
    simp only [hp, lift] at h
    cases hskip : d.skipUnknown e.1 (.ok e.2) with
    | ok u =>
      rw [hskip] at h
      cases h
    | error cause =>
      rw [hskip] at h
      cases h
      exact .inl (ofDocument_of_skipUnknown hskip)
  | some s =>
    simp only [hp, receive_eq] at h
    cases hdecode : s.decoder.decode r e.2 with
    | error cause =>
      simp only [hdecode] at h
      cases h
      exact .inl trivial
    | ok value =>
      cases hset : s.set value bean with
      | error cause left' =>
        simp only [hdecode, hset] at h
        cases h
        exact .inr ⟨s.name, cause, rfl⟩
      | ok u next =>
        simp only [hdecode, hset] at h
        split at h
        · cases h
          exact .inl trivial
        · cases h

/-- Without arguments, nothing is missing. -/
theorem create_ne_missing (hshape : d.shape = .object) (hc : d.creators = []) {type name : String} :
    d.create (.ofEntries r es) ≠ .error (.codec (.missingProperty type name)) := by
  intro he
  rw [create_ofEntries_eq hshape hc] at he
  rcases error_of_fill he with ⟨cause, -, hcause⟩ | ⟨made, left, hfill⟩
  · cases hcause
  · obtain ⟨before, e, after, reached, -, -, hentry⟩ := forM_eq_error_iff.mp hfill
    rcases error_of_fillEntry hentry with hdocument | ⟨_, _, hrefused⟩
    · exact hdocument
    · cases hrefused

/-- **A missing argument is reported exactly if all entries are accepted.** -/
theorem Gathers.create_eq_missing_iff (h : d.Gathers i) (hshape : d.shape = .object)
    {type name : String} :
    d.create (.ofEntries r es) = .error (.codec (.missingProperty type name)) ↔
      (∀ e ∈ es, d.Accepts r e) ∧ ∃ a, i.firstMissing (es.map (·.1)) = some a ∧
        type = d.bean.name ∧ name = a.externalName := by
  constructor
  · intro he
    have hi : i.arguments ≠ [] := by
      intro hi
      exact create_ne_missing hshape (by rw [h.creators, hi]; rfl) he
    rw [create_ofEntries_of_creators hshape (h.usesCreators hi)] at he
    cases hcollect :
        d.collectEntries r none (es.map fun e => ⟨.ok e.1, .ok e.2⟩) d.pending with
    | error x =>
      -- entries are refused for other reasons
      have hkeys : ∀ e ∈ es.map fun e : String × Json => (⟨.ok e.1, .ok e.2⟩ : Entry),
          ∀ x, e.key = .error x → x.OfDocument := by
        intro entry hentry x hx
        obtain ⟨e, -, rfl⟩ := List.mem_map.mp hentry
        cases hx
      have hproper : d.Proper (d.collectEntries r none _ d.pending) :=
        proper_collectEntries hkeys List.length_replicate
      rw [hcollect] at he hproper
      cases he
      exact hproper.elim
    | ok p =>
      have hes := (collectEntries_eq_ok_iff.mp hcollect).1
      refine ⟨hes, ?_⟩
      -- all entries are accepted, so what is missing can be read off them
      rw [h.collectEntries_gathered hes] at hcollect
      cases hcollect
      rw [h.collectEntries_gathered hes] at he
      rcases error_of_complete (p := d.gathered i r es) he with
        ⟨s, hs, hcause⟩ | ⟨cause, -, hcause⟩ | ⟨_, _, hcause⟩
      · have hfirst : d.firstMissing (d.gathered i r es) =
            (i.firstMissing (es.map (·.1))).map (.creator i) := h.firstMissing_eq rfl
        rw [hfirst] at hs
        obtain ⟨a, ha, rfl⟩ := Option.map_eq_some_iff.mp hs
        cases hcause
        exact ⟨a, ha, rfl, rfl⟩
      · cases hcause
      · cases hcause
  · rintro ⟨hes, a, ha, rfl, rfl⟩
    exact h.create_of_missing hshape hes ha

end Deserializer

/-! ## Reading -/

/--
**Each argument is handed what the document says about it last.**

Let a deserializer be built whose beans an introspection makes from arguments, and let it
read entries that it accepts. If an argument that is required has no entry, not even
null, the first such argument is reported, whatever the constructor would have done.
Otherwise the constructor is handed one slot for each argument, in the order of their
declarations, with the last value under its name or nothing; and what it makes is then
set, in the order of the document, to the values that no argument claims.

Whatever document is read in whatever shape, the number of arguments is not complained
about, unless the constructor itself does so when it is handed the right number.
-/
theorem arguments_delivered {c : Codec σ} {registry : Registry σ} {type : BeanType}
    {i : Introspection σ} (hi : i.WellFormed) (hreg : registry.find type = some i)
    (harguments : i.arguments ≠ []) {before : List (DeserializerModifier σ)}
    (hm : c.modifiers.deserializer = before ++ [bindDeserializers]) {d : Deserializer σ}
    (hd : (c.buildDeserializer registry type).value = .ok d)
    (ss : List (BeanType × Serializer σ)) :
    let outcome document := (c.read type document ⟨registry, ss, []⟩).result
    (d.shape = .object → ∀ r es, (∀ e ∈ es, d.Accepts r e) →
      (∀ a, i.firstMissing (es.map (·.1)) = some a →
        outcome (.ofEntries r es) =
            .error (.codec (.missingProperty d.bean.name a.externalName)) ∧
          ∀ make, (d.making make).create (.ofEntries r es) =
            .error (.codec (.missingProperty d.bean.name a.externalName))) ∧
      (i.firstMissing (es.map (·.1)) = none →
        let values := i.arguments.map (·.valueIn r es)
        values.length = i.arguments.length ∧
          outcome (.ofEntries r es) =
            Deserializer.fill ((i.constructed values).mapError fun e =>
              .codec (.instantiation d.bean.name e)) (d.setAll (d.waiting i r es)) >>=
                Codec.ofType type)) ∧
    ∀ document, document.Given → ∀ bean owner expected found,
      (∀ values, values.length = i.arguments.length →
        i.constructed values ≠ .error (.argumentCount owner expected found)) →
      outcome document ≠
        .error (.codec (.instantiation bean (.argumentCount owner expected found))) := by
  intro outcome
  have hmakes := Codec.makesBy_of_build hi hreg hm hd
  have hread : ∀ document, outcome document = d.create document >>= Codec.ofType type := by
    intro document
    show (c.read type document _).result = _
    rw [Codec.result_read, hd]
  refine ⟨?_, ?_⟩
  · intro hshape r es hes
    refine ⟨?_, ?_⟩
    · intro a ha
      refine ⟨?_, ?_⟩
      · rw [hread, hmakes.create_of_missing hshape hes ha]
        rfl
      · intro make
        exact (hmakes.making make).create_of_missing hshape hes ha
    · intro hnone values
      refine ⟨List.length_map _, ?_⟩
      rw [hread, hmakes.create_of_complete harguments hshape hes hnone]
  · intro document hgiven bean owner expected found hconstructor he
    rw [hread, Codec.bind_ofType_eq_error_iff (by simp)] at he
    obtain ⟨values, hlength, hmade⟩ := hmakes.constructed_of_create harguments hgiven he
    exact hconstructor values hlength hmade

/-! ### Pairs that need their left side -/

/-- An argument that must be given. -/
def Argument.demand (name : String) (type : ValueType) : Argument :=
  { Argument.declare name type with
    annotations := Annotations.empty.set Annotations.Kind.property Annotations.Attribute.required
      (.bool true) }

namespace Pair

/-- The introspection of pairs that are made from their left side, which must be given. -/
def demanding : Introspection (Tree × Tree) :=
  ((((Introspection.declare type).withProperty fixedLeft).withProperty rightProperty).withArgument
    (.demand "left" number)).withConstructor constructor

theorem demanding_wellFormed : demanding.WellFormed :=
  Introspection.Declared.wellFormed <|
    ((((Introspection.Declared.declare _).withProperty _).withProperty _).withArgument
      _).withConstructor _

end Pair

/-- Of two left sides the last is taken, behind a right side that waits; with none, nothing is. -/
theorem last_left_delivered :
    let outcome (es : List (String × Json)) := (Pair.codec.read Pair.type
      (.ofEntries (.start .streamed) es) (.ofRegistry ⟨[Pair.demanding]⟩)).result
    let right := ("right", .number (.ofInt 2))
    outcome [right, ("left", .number (.ofInt 5)), ("left", .number (.ofInt 1))] =
        .ok (Pair.of 1 2) ∧
      outcome [right] = .error (.codec (.missingProperty "Pair" "left")) := by
  intro outcome right
  obtain ⟨d, hd⟩ :
      ∃ d, (Pair.codec.buildDeserializer ⟨[Pair.demanding]⟩ Pair.type).value = .ok d := ⟨_, rfl⟩
  have harguments : Pair.demanding.arguments ≠ [] := List.cons_ne_nil _ _
  have hshape : d.shape = .object := by
    cases hd
    rfl
  have hright : d.Accepts (.start .streamed) right := by
    cases hd
    exact ⟨⟨_, rfl⟩, rfl⟩
  have hleft : ∀ n, n = 1 ∨ n = 5 →
      d.Accepts (.start .streamed) ("left", .number (.ofInt n)) := by
    intro n hn
    cases hd
    rcases hn with rfl | rfl
    · exact ⟨⟨_, rfl⟩, rfl⟩
    · exact ⟨⟨_, rfl⟩, rfl⟩
  have hmodifiers : Pair.codec.modifiers.deserializer = [] ++ [bindDeserializers] := rfl
  obtain ⟨hentries, -⟩ :=
    arguments_delivered Pair.demanding_wellFormed rfl harguments hmodifiers hd []
  refine ⟨?_, ?_⟩
  · obtain ⟨-, hcomplete⟩ := hentries hshape (.start .streamed)
      [right, ("left", .number (.ofInt 5)), ("left", .number (.ofInt 1))] (by simp [hright, hleft])
    obtain ⟨-, hmade⟩ := hcomplete rfl
    refine hmade.trans ?_
    cases hd
    rfl
  · obtain ⟨hmissing, -⟩ := hentries hshape (.start .streamed) [right] (by simp [hright])
    refine (hmissing _ rfl).1.trans ?_
    cases hd
    rfl

end BeanBinding
