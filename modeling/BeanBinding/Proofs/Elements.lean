import BeanBinding.Proofs.Accessors
import BeanBinding.Proofs.NameTable

/-!
# The receivers of elements

An element of an array goes to the property or creator in the slot of its place. A
built deserializer has a slot for each place, and what stands in it is found again by
its name. So the loops over items and over entries come down to one loop, which hands
values to receivers, one after the other; they differ in who receives what.
-/

namespace BeanBinding

variable {σ : Type}

/-- A list of values, as a document. -/
def Document.ofList (r : Position) (js : List Json) : Document := ⟨r, .items (js.map .ok) none⟩

/-- Values under names, as a document. -/
def Document.ofEntries (r : Position) (es : List (String × Json)) : Document :=
  ⟨r, .entries (es.map fun e => ⟨.ok e.1, .ok e.2⟩) none⟩

namespace Deserializer

/-! ## Handing values over -/

/-- Hands a value to a property or creator; `fault` says what an unread rest is in the way of. -/
def receive (d : Deserializer σ) (r : Position) (fault : Fault) (s : Settable σ) (j : Json) :
    ChangeM ReadError σ Unit := do
  d.set s (← lift (decodeEntry s r (.ok j)))
  lift (checkRest s r fault j)

/-- Hands values to properties and creators, one after the other. -/
def receiveAll (d : Deserializer σ) (r : Position) (fault : Fault) :
    List (Settable σ × Json) → ChangeM ReadError σ Unit
  | [] => pure ()
  | (s, j) :: rest => do
    d.receive r fault s j
    receiveAll d r fault rest

variable {d : Deserializer σ} {r : Position} {fault : Fault}

theorem lift_ok {α : Type} (a : α) : (lift (.ok a) : ChangeM ReadError σ α) = pure a := rfl

/-- A bean that was made is filled if every change to it succeeds. -/
theorem fill_ok {change : ChangeM ReadError σ Unit} {made bean : Bean σ}
    (h : change made = .ok () bean) : fill (.ok made) change = .ok bean := by
  simp only [fill, bind, Except.bind, h]

theorem fill_eq_ok_iff {fresh : Except ReadError (Bean σ)} {change : ChangeM ReadError σ Unit}
    {bean : Bean σ} :
    fill fresh change = .ok bean ↔ ∃ made, fresh = .ok made ∧ change made = .ok () bean := by
  cases fresh with
  | error e => simp [fill, bind, Except.bind]
  | ok made =>
    cases h : change made with
    | ok a b => simp [fill, bind, Except.bind, h]
    | error e b => simp [fill, bind, Except.bind, h]

theorem fill_eq_error_iff {fresh : Except ReadError (Bean σ)} {change : ChangeM ReadError σ Unit}
    {e : ReadError} :
    fill fresh change = .error e ↔
      fresh = .error e ∨ ∃ made left, fresh = .ok made ∧ change made = .error e left := by
  cases fresh with
  | error e => simp [fill, bind, Except.bind]
  | ok made =>
    cases h : change made with
    | ok a b => simp [fill, bind, Except.bind, h]
    | error e b => simp [fill, bind, Except.bind, h]

theorem instantiate_eq_ok {made : Bean σ} (h : d.instantiator.make = .ok made) :
    d.instantiate = .ok made := by
  rw [instantiate, h]
  rfl

theorem instantiate_eq_error {cause : InstantiationError}
    (h : d.instantiator.make = .error cause) :
    d.instantiate = .error (.codec (.instantiation d.bean.name cause)) := by
  rw [instantiate, h]
  rfl

theorem set_eq_ok_iff {s : Settable σ} {value : Option Value} {bean next : Bean σ} :
    d.set s value bean = .ok () next ↔ s.set value bean = .ok () next := by
  rw [set]
  cases s.set value bean with
  | ok a next' => simp
  | error e left => simp

theorem set_eq_error_iff {s : Settable σ} {value : Option Value} {bean left : Bean σ}
    {e : ReadError} :
    d.set s value bean = .error e left ↔ ∃ cause, s.set value bean = .error cause left ∧
      e = .codec (.access d.bean.name s.name cause) := by
  rw [set]
  cases s.set value bean with
  | ok a next => simp
  | error cause left' =>
    constructor
    · intro h
      cases h
      exact ⟨cause, rfl, rfl⟩
    · rintro ⟨_, h, rfl⟩
      cases h
      rfl

/-- A value is decoded, then set, and then the rest is looked at; a rest is found too late. -/
theorem receive_eq (s : Settable σ) (j : Json) (bean : Bean σ) :
    d.receive r fault s j bean =
      match s.decoder.decode r j with
      | .error e => .error (.value e) bean
      | .ok value =>
        match s.set value bean with
        | .error e bean' => .error (.codec (.access d.bean.name s.name e)) bean'
        | .ok () bean' =>
          if s.decoder.leavesRest r.mode j then .error (.fault fault) bean' else .ok () bean' := by
  cases hd : s.decoder.decode r j with
  | error e =>
    have hlift : (lift (decodeEntry s r (.ok j)) : ChangeM ReadError σ _) bean =
        .error (.value e) bean := by
      simp [decodeEntry, hd, Except.mapError, lift]
    rw [receive, change_bind_error hlift]
  | ok value =>
    have hlift : (lift (decodeEntry s r (.ok j)) : ChangeM ReadError σ _) bean =
        .ok value bean := by
      simp [decodeEntry, hd, Except.mapError, lift]
    rw [receive, change_bind_ok hlift]
    dsimp only
    cases hset : s.set value bean with
    | error e bean' =>
      have hs : d.set s value bean = .error (.codec (.access d.bean.name s.name e)) bean' := by
        rw [set, hset]
      rw [change_bind_error hs]
    | ok a bean' =>
      have hs : d.set s value bean = .ok () bean' := by rw [set, hset]
      rw [change_bind_ok hs, checkRest]
      dsimp only
      split
      · rfl
      · rfl

theorem receive_eq_ok_iff {s : Settable σ} {j : Json} {bean bean' : Bean σ} :
    d.receive r fault s j bean = .ok () bean' ↔
      ∃ value, s.decoder.decode r j = .ok value ∧ s.set value bean = .ok () bean' ∧
        s.decoder.leavesRest r.mode j = false := by
  rw [receive_eq]
  cases s.decoder.decode r j with
  | error e => simp
  | ok value =>
    cases hset : s.set value bean with
    | error e left => simp [hset]
    | ok a next =>
      cases s.decoder.leavesRest r.mode j with
      | true => simp [hset]
      | false => simp [hset]

theorem receiveAll_eq_forM (xs : List (Settable σ × Json)) :
    d.receiveAll r fault xs = forM xs fun x => d.receive r fault x.1 x.2 := by
  induction xs with
  | nil => rfl
  | cons x xs ih => rw [receiveAll, List.forM_cons, ih]

theorem receiveAll_append (xs ys : List (Settable σ × Json)) :
    d.receiveAll r fault (xs ++ ys) = (do d.receiveAll r fault xs; d.receiveAll r fault ys) := by
  induction xs with
  | nil => simp [receiveAll]
  | cons x xs ih => simp [receiveAll, ih]

theorem receiveAll_singleton (s : Settable σ) (j : Json) :
    d.receiveAll r fault [(s, j)] = d.receive r fault s j := by
  simp [receiveAll]

/-- The items of an update go to the properties and creators in the slots of their places. -/
theorem updateItems_eq_receiveAll {slots : List (Slot × Settable σ)} {js : List Json}
    (h : js.length ≤ slots.length) :
    d.updateItems r none slots (js.map .ok) =
      d.receiveAll r .noListSeparator ((slots.map (·.2)).zip js) := by
  induction slots generalizing js with
  | nil =>
    cases js with
    | nil => rfl
    | cons => simp at h
  | cons slot slots ih =>
    cases js with
    | nil => rfl
    | cons j js =>
      have hrest := ih (Nat.le_of_succ_le_succ h)
      rw [List.map_cons, updateItems, hrest]
      simp only [List.map_cons, List.zip_cons_cons, receiveAll, receive, bind_assoc]
      rfl

/-- Items are set on a new bean as they are on any other. -/
theorem fillItems_eq_updateItems {ending : Option Fault} (slots : List (Slot × Settable σ))
    (items : List Item) :
    d.fillItems r ending slots items = d.updateItems r ending slots items := by
  induction slots generalizing items with
  | nil => rw [fillItems, updateItems]
  | cons slot slots ih =>
    cases items with
    | nil => rw [fillItems, updateItems]
    | cons item items => simp only [fillItems, updateItems, ih]

/-- A bean of the right type is updated from what the document looks like. -/
theorem update_typed {document : Document} {bean : Bean σ} (hb : bean.type = d.bean) :
    d.update document bean =
      (match d.shape, document.seenAs d.shape with
        | .object, .entries es ending => d.updateEntries document.position ending es
        | .array, .items is ending => d.updateItems document.position ending d.elements is
        | _, content => throw (d.notABean content) : ChangeM ReadError σ Unit) bean := by
  have hget : (get : ChangeM ReadError σ (Bean σ)) bean = .ok bean bean := rfl
  rw [update, change_bind_ok hget]
  exact congrFun (if_neg (not_not.mpr hb)) bean

theorem usesCreators_eq_false_iff : d.usesCreators = false ↔ d.creators = [] := by
  simp [usesCreators]

theorem update_ofList (hd : d.shape = .array) {bean : Bean σ} (hb : bean.type = d.bean)
    {js : List Json} (h : js.length ≤ d.elements.length) :
    d.update (.ofList r js) bean =
      d.receiveAll r .noListSeparator ((d.elements.map (·.2)).zip js) bean := by
  rw [update_typed hb]
  simp only [hd, Document.seenAs, Document.ofList]
  rw [← updateItems_eq_receiveAll h]

theorem update_ofEntries (hd : d.shape = .object) {bean : Bean σ} (hb : bean.type = d.bean)
    (es : List (String × Json)) :
    d.update (.ofEntries r es) bean =
      d.updateEntries r none (es.map fun e => ⟨.ok e.1, .ok e.2⟩) bean := by
  rw [update_typed hb]
  simp only [hd, Document.seenAs, Document.ofEntries]

/-- A new bean is filled as another is updated. -/
theorem create_ofList (hd : d.shape = .array) (hc : d.creators = []) {js : List Json}
    (h : js.length ≤ d.elements.length) :
    d.create (.ofList r js) =
      fill d.instantiate (d.receiveAll r .noListSeparator ((d.elements.map (·.2)).zip js)) := by
  have hu := usesCreators_eq_false_iff.mpr hc
  simp only [create, hd, Document.seenAs, Document.ofList, hu, Bool.false_eq_true, if_false,
    fillItems_eq_updateItems, updateItems_eq_receiveAll h]

/-! ## Entries, one after the other -/

/-- Gives the value of an entry to the property of its name. -/
def fillEntry (d : Deserializer σ) (r : Position) (e : String × Json) :
    ChangeM ReadError σ Unit :=
  match d.property e.1 with
  | some s => d.receive r .noObjectSeparator s e.2
  | none => lift (d.skipUnknown e.1 (.ok e.2))

/-- The entries of a new bean are given to their properties in a row. -/
theorem fillEntries_eq_forM (es : List (String × Json)) :
    d.fillEntries r none (es.map fun e => ⟨.ok e.1, .ok e.2⟩) =
      forM es (d.fillEntry r) := by
  induction es with
  | nil => rfl
  | cons e es ih =>
    rw [List.map_cons, fillEntries, List.forM_cons, ih, fillEntry]
    simp only [lift_ok, pure_bind]
    cases d.property e.1 with
    | none => rfl
    | some s =>
      simp only [receive, bind_assoc]
      rfl

theorem create_ofEntries_eq (hd : d.shape = .object) (hc : d.creators = [])
    (es : List (String × Json)) :
    d.create (.ofEntries r es) = fill d.instantiate (forM es (d.fillEntry r)) := by
  have hu := usesCreators_eq_false_iff.mpr hc
  simp only [create, hd, Document.seenAs, Document.ofEntries, hu, Bool.false_eq_true, if_false,
    fillEntries_eq_forM]

/-! ## Names and slots -/

theorem mem_of_property {name : String} {s : Settable σ} (h : d.property name = some s) :
    s ∈ d.properties := by
  obtain ⟨index, -, hs⟩ := Option.bind_eq_some_iff.mp h
  exact List.mem_of_getElem? hs

theorem mem_of_creator {name : String} {c : Nat × Settable σ} (h : d.creator name = some c) :
    c.2 ∈ d.creators := by
  obtain ⟨position, -, hposition⟩ := Option.bind_eq_some_iff.mp h
  obtain ⟨s, hs, rfl⟩ := Option.map_eq_some_iff.mp hposition
  exact List.mem_of_getElem? hs

/-- Every slot of a built deserializer is taken. -/
theorem Indexed.inSlot_isSome (h : d.Indexed) {slot : Slot} (hs : slot ∈ d.elementOrder) :
    (d.inSlot slot).isSome := by
  rw [h.elementOrder, DeserializerDraft.elementOrder, List.mem_append] at hs
  rcases hs with hs | hs
  · obtain ⟨⟨s, index⟩, hentry, rfl⟩ := List.mem_map.mp hs
    have hindex := List.mem_zipIdx_iff_getElem?.mp hentry
    dsimp only at hindex ⊢
    split
    · -- a creator of the property's name stands in the slot
      rename_i position hl
      obtain ⟨c, hc, -⟩ := h.creatorIndex_lookup_eq_some_iff.mp hl
      simp [inSlot, hc]
    · simp [inSlot, hindex]
  · obtain ⟨position, hp, rfl⟩ := List.mem_map.mp (List.mem_filter.mp hs).1
    simpa [inSlot] using hp

/-- There is an element for each slot. -/
theorem Indexed.length_elements (h : d.Indexed) : d.elements.length = d.elementOrder.length := by
  rw [elements, List.length_filterMap_eq_countP, List.countP_eq_length]
  intro slot hs
  simpa using h.inSlot_isSome hs

/-- What stands in a slot is a property or a creator. -/
theorem mem_of_mem_elements {c : Settable σ} (h : c ∈ d.elements.map (·.2)) :
    c ∈ d.properties ∨ c ∈ d.creators := by
  obtain ⟨⟨slot, c⟩, hc, rfl⟩ := List.mem_map.mp h
  obtain ⟨slot, -, hs⟩ := List.mem_filterMap.mp hc
  obtain ⟨c', hin, he⟩ := Option.map_eq_some_iff.mp hs
  cases he
  cases slot with
  | property index => exact .inl (List.mem_of_getElem? hin)
  | creator position => exact .inr (List.mem_of_getElem? hin)

/-- Without creators, the elements are the properties in order. -/
theorem Indexed.elements_eq_properties (h : d.Indexed) (hc : d.creators = []) :
    d.elements.map (·.2) = d.properties := by
  have hi : d.creatorIndex = [] := by rw [h.creatorIndex, hc]; rfl
  have ho : d.elementOrder = d.properties.zipIdx.map fun entry => .property entry.2 := by
    rw [h.elementOrder, hi, hc]
    simp [DeserializerDraft.elementOrder, DeserializerDraft.propertySlots]
  have hin : ∀ entry ∈ d.properties.zipIdx,
      (d.inSlot (.property entry.2)).map (Slot.property entry.2, ·) =
        some (Slot.property entry.2, entry.1) := by
    intro entry hentry
    rw [inSlot, List.mem_zipIdx_iff_getElem?.mp hentry]
    rfl
  rw [elements, ho, List.filterMap_map, Function.comp_def, List.filterMap_congr hin]
  simp [Function.comp_def]

/-! ## What completing depends on -/

section

variable {d' : Deserializer σ}

theorem setAll_congr (hbean : d.bean = d'.bean) (xs : List (Settable σ × Option Value)) :
    d.setAll xs = d'.setAll xs := by
  induction xs with
  | nil => rfl
  | cons x xs ih =>
    have hset : d.set x.1 x.2 = d'.set x.1 x.2 := by
      funext bean
      rw [set, set, hbean]
    rw [setAll, setAll, ih, hset]

/-- Two deserializers complete alike if they agree about how beans are made. -/
theorem complete_congr (hbean : d.bean = d'.bean) (hcreators : d.creators = d'.creators)
    (hslots : d.creatorSlots = d'.creatorSlots) (hinst : d.instantiator = d'.instantiator) :
    d.complete = d'.complete := by
  funext p
  have hmissing : d.firstMissing p = d'.firstMissing p := by
    simp only [firstMissing, slotOf, hcreators, hslots]
  simp only [complete, hmissing, setAll_congr hbean, hinst, hbean]

end

end Deserializer

end BeanBinding
