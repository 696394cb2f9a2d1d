import BeanBinding.Proofs.Updating
import BeanBinding.Proofs.Writing

/-!
# Creating from a list and from entries

A bean can be created by place, from a list, or by name, from entries. When a bean is
created a name goes to a creator before it goes to a property, and so does the place of
an element. So whatever stands in a slot is found again under its name, and a list says
the same as the entries that give each value the name of its place.

Errors are the same too, except that one of them tells which bracket it was in front of.
-/

namespace BeanBinding

variable {σ : Type}

namespace Deserializer

variable {d : Deserializer σ} {r : Position}

/-! ## Slots and names -/

/-- What stands in a slot is what a new bean takes the value of its name for. -/
def Finds (d : Deserializer σ) : Slot × Settable σ → Prop
  | (.creator position, s) => d.creator s.name = some (position, s)
  | (.property _, s) => d.creator s.name = none ∧ d.property s.name = some s

/-- No creator has the name of a property that keeps its slot. -/
theorem Indexed.creator_eq_none_of_mem_elementOrder (h : d.Indexed) {index : Nat}
    (hslot : .property index ∈ d.elementOrder) {s : Settable σ}
    (hs : d.properties[index]? = some s) : d.creator s.name = none := by
  rw [h.elementOrder, DeserializerDraft.elementOrder, List.mem_append] at hslot
  rcases hslot with hslot | hslot
  · obtain ⟨⟨s', index'⟩, hentry, hplace⟩ := List.mem_map.mp hslot
    dsimp only at hplace
    split at hplace
    · cases hplace
    · -- the slot was left to the property because no creator has its name
      rename_i hl
      cases hplace
      rw [List.mem_zipIdx_iff_getElem?.mp hentry] at hs
      cases hs
      rw [creator, hl]
      rfl
  · -- the slots after those of the properties are slots of creators
    obtain ⟨position, -, hplace⟩ := List.mem_map.mp (List.mem_filter.mp hslot).1
    cases hplace

/-- **Every element is found under its name.** -/
theorem Indexed.finds (h : d.Indexed) {e : Slot × Settable σ} (he : e ∈ d.elements) :
    d.Finds e := by
  obtain ⟨slot, hslot, hin⟩ := List.mem_filterMap.mp he
  obtain ⟨s, hs, rfl⟩ := Option.map_eq_some_iff.mp hin
  cases slot with
  | creator position => exact h.creator_eq_some_iff.mpr ⟨hs, rfl⟩
  | property index =>
    exact ⟨h.creator_eq_none_of_mem_elementOrder hslot hs,
      h.property_eq_some_iff.mpr ⟨List.mem_of_getElem? hs, rfl⟩⟩

/-- Creators that have names of properties stand in slots of properties only. -/
theorem Indexed.elementOrder_eq (h : d.Indexed)
    (hclaimed : ∀ c ∈ d.creators, ∃ s ∈ d.properties, s.name = c.name) :
    d.elementOrder = DeserializerDraft.propertySlots d.creatorIndex d.properties := by
  rw [h.elementOrder, DeserializerDraft.elementOrder]
  -- each creator has a slot among those of the properties, so none is left to follow them
  refine List.append_right_eq_self.mpr (List.filter_eq_nil_iff.mpr ?_)
  intro slot hslot
  obtain ⟨position, hposition, rfl⟩ := List.mem_map.mp hslot
  rw [List.mem_range] at hposition
  obtain ⟨s, hs, hname⟩ := hclaimed d.creators[position] (List.getElem_mem hposition)
  obtain ⟨index, hindex⟩ := List.mem_iff_getElem?.mp hs
  have hlookup : d.creatorIndex.lookup s.name = some position :=
    h.creatorIndex_lookup_eq_some_iff.mpr ⟨_, List.getElem?_eq_getElem hposition, hname.symm⟩
  have hmem : Slot.creator position ∈
      DeserializerDraft.propertySlots d.creatorIndex d.properties := by
    refine List.mem_map.mpr ⟨(s, index), List.mem_zipIdx_iff_getElem?.mpr hindex, ?_⟩
    simp only [hlookup]
  simpa using hmem

/-- Then there is one element for each property, of its name. -/
theorem Indexed.elementNames_eq (h : d.Indexed)
    (hclaimed : ∀ c ∈ d.creators, ∃ s ∈ d.properties, s.name = c.name) :
    d.elementNames = d.properties.map (·.name) := by
  rw [elementNames, elements, h.elementOrder_eq hclaimed, DeserializerDraft.propertySlots,
    List.filterMap_map, List.map_filterMap]
  refine (List.filterMap_congr (g := fun entry => some entry.1.name) ?_).trans ?_
  · rintro ⟨s, index⟩ hentry
    simp only [Function.comp_apply]
    split
    · -- a creator stands in the slot, under the name of the property
      rename_i position hlookup
      obtain ⟨c, hc, hname⟩ := h.creatorIndex_lookup_eq_some_iff.mp hlookup
      simp [inSlot, hc, hname]
    · simp [inSlot, List.mem_zipIdx_iff_getElem?.mp hentry]
  · have hfst := congrArg (List.map (·.name)) (List.zipIdx_map_fst 0 d.properties)
    rw [List.map_map] at hfst
    rw [List.filterMap_eq_map']
    exact hfst

/-! ## Collecting -/

/-- The value of an element, of which nothing may be left unread. -/
def valueAt (s : Settable σ) (r : Position) (fault : Fault) (j : Json) :
    Except ReadError (Option Value) := do
  let value ← decodeEntry s r (.ok j)
  checkRest s r fault j
  return value

/-- Keeps the value of an element until the bean is made. -/
def keep (d : Deserializer σ) (e : Slot × Settable σ) (value : Option Value)
    (p : Pending σ) : Pending σ :=
  match e.1 with
  | .creator position => p.argument (d.slotOf position) value
  | .property _ => p.buffer e.2 value

theorem valueAt_inObject (s : Settable σ) (j : Json) :
    valueAt s r .noObjectSeparator j =
      (valueAt s r .noListSeparator j).mapError ReadError.inObject := by
  unfold valueAt decodeEntry checkRest
  dsimp only
  cases s.decoder.decode r j with
  | error e => rfl
  | ok value =>
    cases s.decoder.leavesRest r.mode j with
    | true => rfl
    | false => rfl

theorem collectItems_cons (e : Slot × Settable σ) (slots : List (Slot × Settable σ)) (j : Json)
    (items : List Item) (p : Pending σ) :
    d.collectItems r none (e :: slots) (.ok j :: items) p = (do
      let value ← valueAt e.2 r .noListSeparator j
      d.collectItems r none slots items (d.keep e value p)) := by
  obtain ⟨slot, s⟩ := e
  rw [collectItems]
  simp only [valueAt, bind_assoc]
  cases slot with
  | creator position => rfl
  | property index => rfl

theorem collectEntries_cons {e : Slot × Settable σ} (h : d.Finds e) (j : Json)
    (es : List Entry) (p : Pending σ) :
    d.collectEntries r none (⟨.ok e.2.name, .ok j⟩ :: es) p = (do
      let value ← valueAt e.2 r .noObjectSeparator j
      d.collectEntries r none es (d.keep e value p)) := by
  obtain ⟨slot, s⟩ := e
  have hname : (Except.ok s.name : Except ReadError String) = pure s.name := rfl
  rw [collectEntries, hname, pure_bind]
  simp only [valueAt, bind_assoc]
  cases slot with
  | creator position =>
    have hc : d.creator s.name = some (position, s) := h
    simp only [hc]
    rfl
  | property index =>
    obtain ⟨hc, hp⟩ : d.creator s.name = none ∧ d.property s.name = some s := h
    simp only [hc, hp]
    rfl

theorem mapError_bind_mapError {ε ε' α β : Type} (f : ε → ε') (x : Except ε α)
    (g : α → Except ε β) :
    (x.mapError f >>= fun a => (g a).mapError f) = (x >>= g).mapError f := by
  cases x with
  | error e => rfl
  | ok a => rfl

/-- Entries are collected as the items in their places are. -/
theorem collectEntries_eq_collectItems {slots : List (Slot × Settable σ)}
    (h : ∀ e ∈ slots, d.Finds e) {js : List Json} (hjs : js.length ≤ slots.length)
    (p : Pending σ) :
    d.collectEntries r none
        (((slots.map (·.2.name)).zip js).map fun e => ⟨.ok e.1, .ok e.2⟩) p =
      (d.collectItems r none slots (js.map .ok) p).mapError ReadError.inObject := by
  induction slots generalizing js p with
  | nil =>
    cases js with
    | nil => rfl
    | cons j js => simp at hjs
  | cons e slots ih =>
    cases js with
    | nil => rfl
    | cons j js =>
      have hrest := ih (fun e he => h e (List.mem_cons_of_mem _ he)) (Nat.le_of_succ_le_succ hjs)
      rw [List.map_cons, List.zip_cons_cons, List.map_cons, List.map_cons,
        collectEntries_cons (h e List.mem_cons_self), collectItems_cons, valueAt_inObject,
        ← mapError_bind_mapError]
      simp only [hrest]

/-! ## Making the bean -/

/-- A bean is filled in an object as it is in a list, if no bean is missing for another reason. -/
theorem fill_inObject {fresh : Except ReadError (Bean σ)}
    {change change' : ChangeM ReadError σ Unit}
    (hfresh : fresh.mapError ReadError.inObject = fresh)
    (h : ∀ bean, change' bean = inObject (change bean)) :
    fill fresh change' = (fill fresh change).mapError ReadError.inObject := by
  cases fresh with
  | error e =>
    rw [Except.mapError, Except.error.injEq] at hfresh
    simp [fill, bind, Except.bind, Except.mapError, hfresh]
  | ok made =>
    simp only [fill, bind, Except.bind, h]
    cases change made with
    | ok a bean => rfl
    | error e left => rfl

theorem set_inObject (s : Settable σ) (value : Option Value) (bean : Bean σ) :
    d.set s value bean = inObject (d.set s value bean) := by
  rw [set]
  cases s.set value bean with
  | ok a bean' => rfl
  | error e left => rfl

theorem setAll_inObject (xs : List (Settable σ × Option Value)) (bean : Bean σ) :
    d.setAll xs bean = inObject (d.setAll xs bean) := by
  induction xs generalizing bean with
  | nil => rfl
  | cons x xs ih =>
    have hx := set_inObject (d := d) x.1 x.2 bean
    rw [setAll]
    cases hset : d.set x.1 x.2 bean with
    | ok a next => rw [change_bind_ok hset, ← ih]
    | error e left =>
      rw [hset] at hx
      rw [change_bind_error hset]
      exact hx

theorem complete_inObject (p : Pending σ) :
    d.complete p = (d.complete p).mapError ReadError.inObject := by
  rw [complete]
  cases d.firstMissing p with
  | some s => rfl
  | none =>
    refine fill_inObject ?_ (setAll_inObject p.buffered)
    cases d.instantiator.makeWith p.arguments with
    | error e => rfl
    | ok made => rfl

theorem instantiate_inObject : d.instantiate.mapError ReadError.inObject = d.instantiate := by
  rw [instantiate]
  cases d.instantiator.make with
  | error e => rfl
  | ok made => rfl

/-! ## The shape of a deserializer -/

theorem collectItems_withShape (shape : Shape) {slots : List (Slot × Settable σ)} {js : List Json}
    (hjs : js.length ≤ slots.length) (p : Pending σ) :
    (d.withShape shape).collectItems r none slots (js.map .ok) p =
      d.collectItems r none slots (js.map .ok) p := by
  induction slots generalizing js p with
  | nil =>
    cases js with
    | nil => rfl
    | cons j js => simp at hjs
  | cons e slots ih =>
    cases js with
    | nil => rfl
    | cons j js =>
      have hrest := ih (Nat.le_of_succ_le_succ hjs)
      rw [List.map_cons, collectItems_cons, collectItems_cons]
      simp only [hrest]
      rfl

theorem Indexed.withShape (h : d.Indexed) (shape : Shape) : (d.withShape shape).Indexed :=
  ⟨h.propertyNames, h.propertyIndex, h.creatorNames, h.creatorIndex, h.creatorSlots, h.slot_lt,
    h.elementOrder⟩

theorem withShape_of_shape {shape : Shape} (h : d.shape = shape) : d.withShape shape = d := by
  rw [← h]
  rfl

/-! ## Creating -/

/-- Creates a bean from a list of values. -/
def createFromList (d : Deserializer σ) (r : Position) (js : List Json) :
    Except ReadError (Bean σ) :=
  (d.withShape .array).create (.ofList r js)

/-- Creates a bean from values under the names of their places. -/
def createFromEntries (d : Deserializer σ) (r : Position) (js : List Json) :
    Except ReadError (Bean σ) :=
  (d.withShape .object).create (.ofEntries r (d.elementNames.zip js))

/-- Entries go to the properties of their names. -/
theorem fillEntries_eq_receiveAll {ss : List (Settable σ)}
    (h : ∀ s ∈ ss, d.property s.name = some s) (js : List Json) :
    d.fillEntries r none (((ss.map (·.name)).zip js).map fun e => ⟨.ok e.1, .ok e.2⟩) =
      d.receiveAll r .noObjectSeparator (ss.zip js) := by
  induction ss generalizing js with
  | nil => rfl
  | cons s ss ih =>
    cases js with
    | nil => rfl
    | cons j js =>
      have hrest := ih (fun s' hs' => h s' (List.mem_cons_of_mem s hs')) js
      have hs := h s List.mem_cons_self
      simp only [List.map_cons, List.zip_cons_cons, fillEntries, receiveAll, receive, bind_assoc,
        lift_ok, pure_bind, hrest, hs]
      rfl

section

variable {js : List Json} (hjs : js.length ≤ d.elements.length)

include hjs

theorem createFromList_of_creators (hc : d.usesCreators = true) :
    d.createFromList r js =
      (d.collectItems r none d.elements (js.map .ok) d.pending >>= d.complete) := by
  have hshape : (d.withShape .array).shape = .array := rfl
  have huses : (d.withShape .array).usesCreators = true := hc
  have hcomplete : (d.withShape .array).complete = d.complete :=
    complete_congr rfl rfl rfl rfl
  simp only [createFromList, create, hshape, huses, Document.seenAs, Document.ofList, if_true,
    hcomplete]
  rw [← collectItems_withShape .array hjs]
  rfl

theorem Indexed.createFromEntries_of_creators (h : d.Indexed) (hc : d.usesCreators = true) :
    d.createFromEntries r js = ((d.collectItems r none d.elements (js.map .ok) d.pending).mapError
      ReadError.inObject >>= d.complete) := by
  have hshape : (d.withShape .object).shape = .object := rfl
  have huses : (d.withShape .object).usesCreators = true := hc
  have hcomplete : (d.withShape .object).complete = d.complete :=
    complete_congr rfl rfl rfl rfl
  have hcollect := collectEntries_eq_collectItems (d := d.withShape .object) (r := r)
    (fun e he => (h.withShape .object).finds he) hjs d.pending
  simp only [createFromEntries, create, hshape, huses, Document.seenAs, Document.ofEntries,
    if_true, hcomplete]
  rw [← collectItems_withShape .object hjs]
  exact congrArg (· >>= d.complete) hcollect

theorem Indexed.createFromList_of_properties (h : d.Indexed) (hc : d.creators = []) :
    d.createFromList r js =
      fill d.instantiate (d.receiveAll r .noListSeparator (d.properties.zip js)) := by
  have hcreate := create_ofList (d := d.withShape .array) (r := r) rfl hc hjs
  rw [receiveAll_withShape] at hcreate
  rw [← h.elements_eq_properties hc]
  exact hcreate

omit hjs in
theorem Indexed.createFromEntries_of_properties (h : d.Indexed) (hc : d.creators = []) :
    d.createFromEntries r js =
      fill d.instantiate (d.receiveAll r .noObjectSeparator (d.properties.zip js)) := by
  have hnames : d.elementNames = d.properties.map (·.name) := by
    rw [← h.elements_eq_properties hc, List.map_map]
    rfl
  have hfill := fillEntries_eq_receiveAll (d := d.withShape .object) (r := r)
    (fun s hs => (h.withShape .object).property_eq_some_iff.mpr ⟨hs, rfl⟩) js
  have hshape : (d.withShape .object).shape = .object := rfl
  have huses : (d.withShape .object).usesCreators = false := by
    have hcreators : (d.withShape .object).creators = [] := hc
    simp [usesCreators, hcreators]
  rw [receiveAll_withShape] at hfill
  simp only [createFromEntries, create, hshape, huses, Document.seenAs, Document.ofEntries,
    hnames, Bool.false_eq_true, if_false]
  exact congrArg (fill d.instantiate) hfill

/-- **A bean is created alike from a list and from entries.** -/
theorem Indexed.createFromEntries_eq (h : d.Indexed) :
    d.createFromEntries r js = (d.createFromList r js).mapError ReadError.inObject := by
  cases hc : d.usesCreators with
  | true =>
    rw [h.createFromEntries_of_creators hjs hc, createFromList_of_creators hjs hc,
      ← mapError_bind_mapError]
    -- no error of the last step is worded by brackets
    simp only [← complete_inObject]
  | false =>
    have hcreators := usesCreators_eq_false_iff.mp hc
    rw [h.createFromEntries_of_properties hcreators, h.createFromList_of_properties hjs hcreators]
    exact fill_inObject instantiate_inObject (receiveAll_inObject _)

end

/-! ## Values that are read whole -/

/-- Nothing is left unread of the values, each in the place where it stands. -/
def ReadsWhole (d : Deserializer σ) (r : Position) (js : List Json) : Prop :=
  ∀ e ∈ (d.elements.map (·.2)).zip js, e.1.decoder.leavesRest r.mode e.2 = false

/-- Then no fault can stand behind a value, whatever follows it. -/
theorem valueAt_whole {s : Settable σ} {j : Json} (h : s.decoder.leavesRest r.mode j = false) :
    (valueAt s r .noListSeparator j).mapError ReadError.inObject =
      valueAt s r .noListSeparator j := by
  rw [← valueAt_inObject]
  unfold valueAt checkRest
  rw [h]
  rfl

theorem collectItems_whole {slots : List (Slot × Settable σ)} {js : List Json}
    (h : ∀ e ∈ (slots.map (·.2)).zip js, e.1.decoder.leavesRest r.mode e.2 = false)
    (hjs : js.length ≤ slots.length) (p : Pending σ) :
    (d.collectItems r none slots (js.map .ok) p).mapError ReadError.inObject =
      d.collectItems r none slots (js.map .ok) p := by
  induction slots generalizing js p with
  | nil =>
    cases js with
    | nil => rfl
    | cons j js => simp at hjs
  | cons e slots ih =>
    cases js with
    | nil => rfl
    | cons j js =>
      have hfirst := valueAt_whole (h (e.2, j) List.mem_cons_self)
      have hrest := ih (fun x hx => h x (List.mem_cons_of_mem _ hx)) (Nat.le_of_succ_le_succ hjs)
      rw [List.map_cons, collectItems_cons, ← mapError_bind_mapError, hfirst]
      simp only [hrest]

theorem receiveAll_whole {xs : List (Settable σ × Json)}
    (h : ∀ e ∈ xs, e.1.decoder.leavesRest r.mode e.2 = false) (fault fault' : Fault) :
    d.receiveAll r fault xs = d.receiveAll r fault' xs := by
  induction xs with
  | nil => rfl
  | cons x xs ih =>
    have hfirst : d.receive r fault x.1 x.2 = d.receive r fault' x.1 x.2 := by
      unfold receive checkRest
      rw [h x List.mem_cons_self]
      rfl
    rw [receiveAll, receiveAll, hfirst, ih fun e he => h e (List.mem_cons_of_mem x he)]

/-- Values that are read whole make one bean, or one error, of both. -/
theorem Indexed.createFromEntries_whole (h : d.Indexed) {js : List Json}
    (hjs : js.length ≤ d.elements.length) (hw : d.ReadsWhole r js) :
    d.createFromEntries r js = d.createFromList r js := by
  cases hc : d.usesCreators with
  | true =>
    rw [h.createFromEntries_of_creators hjs hc, createFromList_of_creators hjs hc,
      collectItems_whole hw hjs]
  | false =>
    have hcreators := usesCreators_eq_false_iff.mp hc
    rw [ReadsWhole, h.elements_eq_properties hcreators] at hw
    rw [h.createFromEntries_of_properties hcreators, h.createFromList_of_properties hjs hcreators,
      receiveAll_whole hw .noObjectSeparator .noListSeparator]

end Deserializer

/--
**A bean is created from a list as it is from the entries under the names of its places.**

Values that are read whole make the same bean or meet the same error, whether creators are
used or not, and however few values there are. A value of a running text that is not read
whole, such as a wide integer with a fraction behind it, is a fault of the text in both:
it stands where a separator is due, so a list and an object word it by their brackets.
-/
theorem creations_agree {draft : DeserializerDraft σ} {d : Deserializer σ}
    (h : draft.build = .ok d) (r : Position) {js : List Json}
    (hjs : js.length ≤ d.elementOrder.length) :
    (d.ReadsWhole r js → d.createFromEntries r js = d.createFromList r js) ∧
      (d.createFromEntries r js = d.createFromList r js ∨
        d.createFromEntries r js = .error (.fault .noObjectSeparator) ∧
          d.createFromList r js = .error (.fault .noListSeparator)) := by
  have hi := (DeserializerDraft.indexed_of_build h).2
  rw [← hi.length_elements] at hjs
  refine ⟨hi.createFromEntries_whole hjs, ?_⟩
  rw [hi.createFromEntries_eq hjs]
  cases hlist : d.createFromList r js with
  | ok bean => exact .inl rfl
  | error e =>
    by_cases hfault : e = .fault .noListSeparator
    · rw [hfault]
      exact .inr ⟨rfl, rfl⟩
    · -- no other error names a bracket
      left
      show Except.error e.inObject = _
      rw [ReadError.inObject_of_ne hfault]

/-! ### Pairs made from their left side -/

/-- A pair is made from its left side alone, by place and by name. -/
theorem creations_agree_short :
    let r : Position := .start .streamed
    let js : List Json := [.number (.ofInt 1)]
    ∃ d, (Pair.codec.introspectedProperties (Pair.made Pair.fixedLeft)).build = .ok d ∧
      js.length < d.elementOrder.length ∧ d.createFromList r js = .ok (Pair.of 1 0) ∧
        d.createFromEntries r js = .ok (Pair.of 1 0) := by
  intro r js
  obtain ⟨d, hd⟩ :
      ∃ d, (Pair.codec.introspectedProperties (Pair.made Pair.fixedLeft)).build = .ok d :=
    ⟨_, rfl⟩
  have hjs : js.length < d.elementOrder.length := by
    cases hd
    decide
  have hwhole : d.ReadsWhole r js := by
    intro e he
    cases hd
    cases List.mem_singleton.mp he
    rfl
  have hlist : d.createFromList r js = .ok (Pair.of 1 0) := by
    cases hd
    rfl
  exact ⟨d, hd, hjs, hlist, ((creations_agree hd r (Nat.le_of_lt hjs)).1 hwhole).trans hlist⟩

/-! ### A number of which the half is left -/

/--
Of one and a half an integer takes the one. A list and an object stumble over the half, each
over its own bracket.
-/
theorem half_read_number_worded_apart :
    let r : Position := .start .streamed
    let js : List Json := [.number ⟨false, ['1'], ['5'], none⟩]
    ∃ d, (Wide.codec.introspectedProperties Wide.introspection).build = .ok d ∧
      js.length ≤ d.elementOrder.length ∧
      d.createFromList r js = .error (.fault .noListSeparator) ∧
      d.createFromEntries r js = .error (.fault .noObjectSeparator) ∧
      (ReadError.fault .noListSeparator).message ≠ (ReadError.fault .noObjectSeparator).message :=
  ⟨_, rfl, by decide, rfl, rfl, by decide⟩

end BeanBinding
