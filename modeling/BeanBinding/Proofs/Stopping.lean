import BeanBinding.Proofs.Filling

/-!
# Where an update stops

An update changes a bean while the document is being read, and nothing is undone. So a
document that turns out to be wrong leaves a bean behind that has been changed in part.
What it has been changed to can be said from the document alone: every entry or item is a
`Request` to set something, to pass over, or to fail. An update carries out requests in
their order. When it fails, those before have been carried out, and what comes behind has
not been looked at.

Of the request that fails nothing is left on the bean. It fails before anything is set, or
it is refused, and a setter that refuses a value leaves the bean alone unless it is made
from outside and does otherwise. The exception is a value of which only the beginning has
been read, as the digits before the point are from a number where an integer of 128 bits
is due. Then the beginning is set, and what is left of the number is found where nothing
should be.
-/

namespace BeanBinding

variable {σ : Type}

/-! ## Writes that change all or nothing -/

/-- A write that fails leaves the bean as it was. -/
def Clean (write : WriteAccess σ) : Prop :=
  ∀ value bean cause left, write value bean = .error cause left → left = bean

theorem change_bind_eq_error_iff {ε α β : Type} {x : ChangeM ε σ α} {f : α → ChangeM ε σ β}
    {bean left : Bean σ} {e : ε} :
    (x >>= f) bean = .error e left ↔
      x bean = .error e left ∨ ∃ a next, x bean = .ok a next ∧ f a next = .error e left := by
  cases hx : x bean with
  | ok a next =>
    rw [change_bind_ok hx]
    constructor
    · intro h
      exact .inr ⟨a, next, rfl, h⟩
    · rintro (h | ⟨_, _, he, h⟩)
      · cases h
      · cases he
        exact h
  | error e' left' =>
    rw [change_bind_error hx]
    simp

namespace Property

variable {p : Property σ} {bean left : Bean σ} {cause : AccessError}

theorem left_of_checkOwner (h : p.checkOwner bean = .error cause left) : left = bean := by
  have hget : (get : ChangeM AccessError σ (Bean σ)) bean = .ok bean bean := rfl
  by_cases howner : bean.type = p.owner
  · rw [checkOwner_ok howner] at h
    cases h
  · rw [checkOwner, change_bind_ok hget, if_pos howner] at h
    cases h
    rfl

theorem left_of_content {v : Value} (h : p.content v bean = .error cause left) : left = bean := by
  rw [content] at h
  cases htake : v.take p.valueType with
  | ok t =>
    rw [htake] at h
    cases h
  | error v' =>
    rw [htake] at h
    cases h
    rfl

/-- A write checks the bean and the value first. So if it only fails there, it is clean. -/
theorem left_of_checked {v : Value} {change : Tree → ChangeM AccessError σ Unit}
    (hchange : ∀ t bean cause left, change t bean = .error cause left → left = bean)
    (h : (do p.checkOwner; change (← p.content v)) bean = .error cause left) : left = bean := by
  rcases change_bind_eq_error_iff.mp h with howner | ⟨_, next, howner, h⟩
  · exact left_of_checkOwner howner
  · obtain ⟨-, rfl⟩ := checkOwner_eq_ok_iff.mp howner
    rcases change_bind_eq_error_iff.mp h with hcontent | ⟨t, next, hcontent, h⟩
    · exact left_of_content hcontent
    · obtain ⟨-, rfl⟩ := content_eq_ok_iff.mp hcontent
      exact hchange t bean cause left h

/-- Null is refused once the bean has been checked. -/
theorem left_of_null
    (h : (do p.checkOwner; throw .nullNotAccepted : ChangeM AccessError σ Unit) bean =
      .error cause left) : left = bean := by
  rcases change_bind_eq_error_iff.mp h with howner | ⟨_, next, howner, h⟩
  · exact left_of_checkOwner howner
  · obtain ⟨-, rfl⟩ := checkOwner_eq_ok_iff.mp howner
    cases h
    rfl

theorem clean_trySetter {set : Tree → EStateM AccessError σ Unit}
    (hset : ∀ t s cause s', set t s = .error cause s' → s' = s) :
    Clean (p.trySetter set).write := by
  intro value bean cause left h
  cases value with
  | none => exact left_of_null h
  | some v =>
    refine left_of_checked (fun t bean cause left hassign => ?_) h
    split at hassign
    · cases hassign
    · rename_i e s' hrefused
      cases hassign
      rw [hset t _ _ _ hrefused]

theorem clean_setter (set : σ → Tree → σ) : Clean (p.setter set).write := by
  intro value bean cause left h
  cases value with
  | none => exact left_of_null h
  | some v => exact left_of_checked (fun t bean cause left hassign => by cases hassign) h

theorem clean_setterOpt (set : σ → Option Tree → σ) : Clean (p.setterOpt set).write := by
  intro value bean cause left h
  rcases change_bind_eq_error_iff.mp h with howner | ⟨_, next, howner, h⟩
  · exact left_of_checkOwner howner
  · obtain ⟨-, rfl⟩ := checkOwner_eq_ok_iff.mp howner
    rcases change_bind_eq_error_iff.mp h with hcontent | ⟨t, next, -, h⟩
    · cases value with
      | none => cases hcontent
      | some v =>
        rcases change_bind_eq_error_iff.mp hcontent with hcontent | ⟨t, next, -, hsome⟩
        · exact left_of_content hcontent
        · cases hsome
    · cases h

/-- A property that declarations make, with fallible setters that change nothing on refusal. -/
inductive Careful : Property σ → Prop where
  | declare (owner : BeanType) (name : String) (type : ValueType) :
      Careful (declare owner name type)
  | getter {p : Property σ} (h : Careful p) (get : σ → Tree) (source : Source) :
      Careful (p.getter get source)
  | getterOpt {p : Property σ} (h : Careful p) (get : σ → Option Tree) (source : Source) :
      Careful (p.getterOpt get source)
  | getterOwned {p : Property σ} (h : Careful p) (get : σ → Tree) : Careful (p.getterOwned get)
  | setter {p : Property σ} (h : Careful p) (set : σ → Tree → σ) : Careful (p.setter set)
  | setterOpt {p : Property σ} (h : Careful p) (set : σ → Option Tree → σ) :
      Careful (p.setterOpt set)
  | trySetter {p : Property σ} (h : Careful p) {set : Tree → EStateM AccessError σ Unit}
      (hset : ∀ t s cause s', set t s = .error cause s' → s' = s) : Careful (p.trySetter set)
  | withNullable {p : Property σ} (h : Careful p) (nullable : Bool) :
      Careful (p.withNullable nullable)
  | withAnnotations {p : Property σ} (h : Careful p) (annotations : Annotations) :
      Careful (p.withAnnotations annotations)

theorem Careful.clean (h : p.Careful) : Clean p.write := by
  induction h with
  | declare owner name type =>
    intro value bean cause left hwrite
    cases hwrite
    rfl
  | setter _ set => exact clean_setter set
  | setterOpt _ set => exact clean_setterOpt set
  | trySetter _ hset => exact clean_trySetter hset
  -- what is declared about reading and the like leaves the setter alone
  | getter _ _ _ ih | getterOpt _ _ _ ih | getterOwned _ _ ih => exact ih
  | withNullable _ _ ih | withAnnotations _ _ ih => exact ih

end Property

namespace Settable

/-- A settable property over careful ones, or one made from outside that is clean itself. -/
inductive Careful : Settable σ → Prop where
  | member {m : Member σ} {s : Settable σ} (h : m.property.Careful) (hs : ofMember m = some s) :
      Careful s
  | virtual {p : Property σ} (h : p.Careful) : Careful (virtual p)
  | creator {i : Introspection σ} (h : ∀ p ∈ i.properties, p.Careful) (a : Argument) :
      Careful (creator i a)
  | through {p : Property σ} (h : p.Careful) (s : Settable σ) : Careful (s.through p)
  | custom {s : Settable σ} (h : Clean s.set) : Careful s

theorem clean_pure : Clean (σ := σ) fun _ => pure () := by
  intro value bean cause left h
  cases h

/-- **A careful property that refuses a value leaves the bean as it was.** -/
theorem Careful.clean {s : Settable σ} (h : s.Careful) : Clean s.set := by
  cases h with
  | member h hs =>
    unfold ofMember at hs
    split at hs
    · obtain ⟨kind, -, rfl⟩ := Option.map_eq_some_iff.mp hs
      exact h.clean
    · cases hs
  | @virtual p h =>
    intro value bean cause left hset
    unfold Settable.virtual at hset
    dsimp only at hset
    split at hset
    · exact clean_pure value bean cause left hset
    · exact h.clean value bean cause left hset
  | @creator i h a =>
    cases hbehind : behind i a with
    | some p =>
      obtain ⟨hfound, -⟩ := Option.filter_eq_some_iff.mp hbehind
      rw [set_creator hbehind]
      exact (h p (List.mem_of_find?_eq_some hfound)).clean
    | none =>
      have hset : (Settable.creator i a).set = fun _ => pure () := by
        funext value
        simp [Settable.creator, hbehind]
      rw [hset]
      exact clean_pure
  | through h s => exact h.clean
  | custom h => exact h

end Settable

/-! ## Requests -/

namespace Deserializer

/-- What an entry or an item asks for. -/
structure Request (σ : Type) where
  /-- What to set, and to which value; nothing if the entry is passed over; or why neither. -/
  change : Except ReadError (Option (Settable σ × Option Value))
  /-- What is found behind the value once it has been set. -/
  behind : Except ReadError Unit

/-- A request to set a value, if there is one. -/
def Request.toSet (s : Settable σ) (value : Except ReadError (Option Value))
    (behind : Except ReadError Unit) : Request σ :=
  ⟨value.map fun v => some (s, v), behind⟩

/-- A request to pass over something, if that is allowed. -/
def Request.toSkip (skip : Except ReadError Unit) : Request σ := ⟨skip.map fun _ => none, .ok ()⟩

/-- An entry asks to set what has its name, or else to be passed over. -/
def entryRequest (d : Deserializer σ) (r : Position) (e : Entry) : Request σ :=
  match e.key with
  | .error cause => .toSkip (.error cause)
  | .ok name =>
    match d.updated name with
    | some s => .toSet s (decodeEntry s r e.value) (checkEntryRest s r e.value)
    | none => .toSkip (d.skipUnknown name e.value)

/-- An item asks to set what is in its place. -/
def itemRequest (r : Position) (x : Settable σ × Item) : Request σ :=
  .toSet x.1 (decodeItem x.1 r x.2) (checkItemRest x.1 r x.2)

/-- The requests of a document and its ending, if it has the form of a bean. -/
def requests (d : Deserializer σ) (document : Document) :
    Except ReadError (List (Request σ) × Except ReadError Unit) :=
  match d.shape, document.seenAs d.shape with
  | .object, .entries es ending =>
    .ok (es.map (d.entryRequest document.position), finish ending)
  | .array, .items is ending =>
    .ok (((d.elements.map (·.2)).zip is).map (itemRequest document.position),
      checkSurplus d.elementOrder.length (is.drop d.elements.length) ending)
  | _, content => .error (d.notABean content)

/-- Carries out a request, and then fails if something is wrong behind it. -/
def carryOut (d : Deserializer σ) (q : Request σ) : ChangeM ReadError σ Unit := do
  d.setAll (← lift q.change).toList
  lift q.behind

/-- The changes that requests ask for, in order, if none of them is at fault. -/
def changesOf : List (Request σ) → Except ReadError (List (Settable σ × Option Value))
  | [] => .ok []
  | q :: qs => do return (← q.change).toList ++ (← changesOf qs)

variable {d : Deserializer σ} {r : Position} {bean left : Bean σ} {e : ReadError}

theorem setAll_append (xs ys : List (Settable σ × Option Value)) :
    d.setAll (xs ++ ys) = (do d.setAll xs; d.setAll ys) := by
  induction xs with
  | nil => rfl
  | cons x xs ih => rw [List.cons_append, setAll, setAll, ih, bind_assoc]

theorem setAll_singleton (x : Settable σ × Option Value) : d.setAll [x] = d.set x.1 x.2 :=
  bind_pure_unit

theorem setAll_append_eq_ok_iff {xs ys : List (Settable σ × Option Value)} :
    d.setAll (xs ++ ys) bean = .ok () left ↔
      ∃ next, d.setAll xs bean = .ok () next ∧ d.setAll ys next = .ok () left := by
  rw [setAll_append, change_bind_eq_ok_iff]
  exact ⟨fun ⟨_, next, hxs, hys⟩ => ⟨next, hxs, hys⟩, fun ⟨next, hxs, hys⟩ => ⟨(), next, hxs, hys⟩⟩

/-- Setting what a request asks for fails if it is refused. -/
theorem setAll_toList_eq_error_iff {change : Option (Settable σ × Option Value)} :
    d.setAll change.toList bean = .error e left ↔
      ∃ s value cause, change = some (s, value) ∧ s.set value bean = .error cause left ∧
        e = .codec (.access d.bean.name s.name cause) := by
  cases change with
  | none =>
    constructor
    · intro h
      cases h
    · rintro ⟨_, _, _, h, -⟩
      cases h
  | some x =>
    obtain ⟨s, value⟩ := x
    rw [Option.toList_some, setAll_singleton, set_eq_error_iff]
    simp

/-! ## Documents, request by request -/

theorem carryOut_toSet (s : Settable σ) (value : Except ReadError (Option Value))
    (behind : Except ReadError Unit) :
    d.carryOut (.toSet s value behind) = d.hand s value behind := by
  rw [carryOut, hand, Request.toSet]
  cases value with
  | error cause => rfl
  | ok v =>
    show (do d.setAll [(s, v)]; lift behind) = (do d.set s v; lift behind)
    rw [setAll_singleton]

theorem carryOut_toSkip (skip : Except ReadError Unit) :
    d.carryOut (.toSkip skip) = lift skip := by
  cases skip with
  | error cause => rfl
  | ok _ => rfl

theorem carryOut_entryRequest (entry : Entry) :
    d.carryOut (d.entryRequest r entry) = d.handEntry d.updated r entry := by
  rw [handEntry, entryRequest]
  cases entry.key with
  | error cause => rfl
  | ok name =>
    rw [lift_ok, pure_bind]
    dsimp only
    cases d.updated name with
    | some s => exact carryOut_toSet s _ _
    | none => exact carryOut_toSkip _

theorem carryOut_itemRequest (x : Settable σ × Item) :
    d.carryOut (itemRequest r x) = d.handItem r x :=
  carryOut_toSet _ _ _

/-- **An update carries out the requests of the document.** -/
theorem update_eq_requests (hb : bean.type = d.bean) (document : Document) :
    d.update document bean =
      match d.requests document with
      | .error e => .error e bean
      | .ok (qs, ending) => (do forM qs d.carryOut; lift ending : ChangeM _ σ Unit) bean := by
  rw [update_typed hb]
  cases hshape : d.shape with
  | object =>
    cases hcontent : document.seenAs .object with
    | entries es ending =>
      simp only [requests, hshape, hcontent, updateEntries_eq_handed, handEntries, List.forM_map,
        carryOut_entryRequest]
    | items | numbered | neither =>
      simp only [requests, hshape, hcontent]
      rfl
  | array =>
    cases hcontent : document.seenAs .array with
    | items is ending =>
      simp only [requests, hshape, hcontent, updateItems_eq_forM, List.forM_map,
        carryOut_itemRequest]
    | entries | numbered | neither =>
      simp only [requests, hshape, hcontent]
      rfl

/-! ## Carrying out requests -/

/-- The bean becomes what the changes of requests, in order, make of it. -/
def Applies (d : Deserializer σ) (qs : List (Request σ)) (bean left : Bean σ) : Prop :=
  ∃ xs, changesOf qs = .ok xs ∧ d.setAll xs bean = .ok () left

/-- Nothing is wrong behind any of the values. -/
def Whole (qs : List (Request σ)) : Prop := ∀ q ∈ qs, q.behind = .ok ()

theorem applies_cons_iff {q : Request σ} {qs : List (Request σ)} :
    d.Applies (q :: qs) bean left ↔ ∃ change next, q.change = .ok change ∧
      d.setAll change.toList bean = .ok () next ∧ d.Applies qs next left := by
  constructor
  · rintro ⟨xs, hxs, hset⟩
    obtain ⟨change, hchange, hxs⟩ := bind_eq_ok_iff.mp hxs
    obtain ⟨ys, hys, hxs⟩ := bind_eq_ok_iff.mp hxs
    cases hxs
    obtain ⟨next, hnext, hrest⟩ := setAll_append_eq_ok_iff.mp hset
    exact ⟨change, next, hchange, hnext, ys, hys, hrest⟩
  · rintro ⟨change, next, hchange, hnext, ys, hys, hrest⟩
    refine ⟨change.toList ++ ys, ?_, setAll_append_eq_ok_iff.mpr ⟨next, hnext, hrest⟩⟩
    rw [changesOf, hchange, hys]
    rfl

theorem applies_snoc_iff {q : Request σ} {qs : List (Request σ)} :
    d.Applies (qs ++ [q]) bean left ↔ ∃ change next, d.Applies qs bean next ∧
      q.change = .ok change ∧ d.setAll change.toList next = .ok () left := by
  induction qs generalizing bean with
  | nil =>
    rw [List.nil_append, applies_cons_iff]
    constructor
    · rintro ⟨change, next, hchange, hnext, _, hnil, hrest⟩
      cases hnil
      cases hrest
      exact ⟨change, bean, ⟨[], rfl, rfl⟩, hchange, hnext⟩
    · rintro ⟨change, next, ⟨_, hnil, hbean⟩, hchange, hset⟩
      cases hnil
      cases hbean
      exact ⟨change, left, hchange, hset, [], rfl, rfl⟩
  | cons q' qs ih =>
    rw [List.cons_append, applies_cons_iff]
    simp only [ih, applies_cons_iff]
    constructor
    · rintro ⟨change', next', hchange', hnext', change, next, happlies, hchange, hset⟩
      exact ⟨change, next, ⟨change', next', hchange', hnext', happlies⟩, hchange, hset⟩
    · rintro ⟨change, next, ⟨change', next', hchange', hnext', happlies⟩, hchange, hset⟩
      exact ⟨change', next', hchange', hnext', change, next, happlies, hchange, hset⟩

theorem carryOut_eq_ok_iff {q : Request σ} :
    d.carryOut q bean = .ok () left ↔ ∃ change, q.change = .ok change ∧
      d.setAll change.toList bean = .ok () left ∧ q.behind = .ok () := by
  rw [carryOut]
  simp only [change_bind_eq_ok_iff, lift_eq_ok_iff]
  constructor
  · rintro ⟨change, _, ⟨hchange, rfl⟩, _, _, hset, hbehind, rfl⟩
    exact ⟨change, hchange, hset, hbehind⟩
  · rintro ⟨change, hchange, hset, hbehind⟩
    exact ⟨change, bean, ⟨hchange, rfl⟩, (), left, hset, hbehind, rfl⟩

/-- A request fails if it is at fault, if it is refused, or for what stands behind it. -/
theorem carryOut_eq_error_iff {q : Request σ} :
    d.carryOut q bean = .error e left ↔
      (q.change = .error e ∧ bean = left) ∨
      (∃ s value cause, q.change = .ok (some (s, value)) ∧ s.set value bean = .error cause left ∧
        e = .codec (.access d.bean.name s.name cause)) ∨
      (∃ change, q.change = .ok change ∧ d.setAll change.toList bean = .ok () left ∧
        q.behind = .error e) := by
  rw [carryOut]
  simp only [change_bind_eq_error_iff, lift_eq_error_iff, lift_eq_ok_iff,
    setAll_toList_eq_error_iff]
  constructor
  · rintro (hfault | ⟨change, _, ⟨hchange, rfl⟩, ⟨s, value, cause, rfl, hset, he⟩ |
      ⟨_, next, hset, hbehind, rfl⟩⟩)
    · exact .inl hfault
    · exact .inr (.inl ⟨s, value, cause, hchange, hset, he⟩)
    · exact .inr (.inr ⟨change, hchange, hset, hbehind⟩)
  · rintro (hfault | ⟨s, value, cause, hchange, hset, he⟩ | ⟨change, hchange, hset, hbehind⟩)
    · exact .inl hfault
    · exact .inr ⟨_, bean, ⟨hchange, rfl⟩, .inl ⟨s, value, cause, rfl, hset, he⟩⟩
    · exact .inr ⟨change, bean, ⟨hchange, rfl⟩, .inr ⟨(), left, hset, hbehind, rfl⟩⟩

/-- Requests are carried out if their changes can be made and nothing is wrong behind them. -/
theorem forM_carryOut_eq_ok_iff {qs : List (Request σ)} :
    (forM qs d.carryOut : ChangeM ReadError σ Unit) bean = .ok () left ↔
      d.Applies qs bean left ∧ Whole qs := by
  induction qs generalizing bean with
  | nil =>
    constructor
    · intro h
      exact ⟨⟨[], rfl, h⟩, by simp [Whole]⟩
    · rintro ⟨⟨_, hnil, h⟩, -⟩
      cases hnil
      exact h
  | cons q qs ih =>
    rw [List.forM_cons, change_bind_eq_ok_iff, applies_cons_iff, Whole, List.forall_mem_cons]
    constructor
    · rintro ⟨_, next, hq, hqs⟩
      obtain ⟨change, hchange, hset, hbehind⟩ := carryOut_eq_ok_iff.mp hq
      obtain ⟨happlies, hwhole⟩ := ih.mp hqs
      exact ⟨⟨change, next, hchange, hset, happlies⟩, hbehind, hwhole⟩
    · rintro ⟨⟨change, next, hchange, hset, happlies⟩, hbehind, hwhole⟩
      exact ⟨(), next, carryOut_eq_ok_iff.mpr ⟨change, hchange, hset, hbehind⟩,
        ih.mpr ⟨happlies, hwhole⟩⟩

/-! ## Stopping -/

/-- Where carrying out requests, and then coming to an ending, fails, and what is left then. -/
inductive Stops (d : Deserializer σ) (qs : List (Request σ)) (ending : Except ReadError Unit)
    (bean : Bean σ) (e : ReadError) (left : Bean σ) : Prop where
  /-- A name or value is wrong, or a name is not known: what came before is set. -/
  | fault {before after : List (Request σ)} {q : Request σ} (hqs : qs = before ++ q :: after)
      (hbefore : d.Applies before bean left) (hwhole : Whole before) (hq : q.change = .error e)
  /-- A value is refused: what came before is set. -/
  | refused {before after : List (Request σ)} {q : Request σ} (hqs : qs = before ++ q :: after)
      (hbefore : d.Applies before bean left) (hwhole : Whole before) {s : Settable σ}
      {value : Option Value} (hq : q.change = .ok (some (s, value))) {cause : AccessError}
      (hset : s.set value left = .error cause left)
      (he : e = .codec (.access d.bean.name s.name cause))
  /-- A part of a value has not been read: what has been read of it is set as well. -/
  | unread {before after : List (Request σ)} {q : Request σ} (hqs : qs = before ++ q :: after)
      (hdone : d.Applies (before ++ [q]) bean left) (hwhole : Whole before)
      (hq : q.behind = .error e)
  /-- The document does not end as it should: all of it is set. -/
  | ending (hdone : d.Applies qs bean left) (hwhole : Whole qs) (h : ending = .error e)

theorem forM_carryOut_eq_error_iff {qs : List (Request σ)} :
    (forM qs d.carryOut : ChangeM ReadError σ Unit) bean = .error e left ↔
      ∃ before q after reached, qs = before ++ q :: after ∧ d.Applies before bean reached ∧
        Whole before ∧ d.carryOut q reached = .error e left := by
  simp only [forM_eq_error_iff, forM_carryOut_eq_ok_iff, and_assoc]

/-- **Requests that are carried out stop at the first that fails.** -/
theorem carried_out_stops_iff {qs : List (Request σ)} {ending : Except ReadError Unit}
    (hclean : ∀ q ∈ qs, ∀ s value, q.change = .ok (some (s, value)) → Clean s.set) :
    (do forM qs d.carryOut; lift ending : ChangeM ReadError σ Unit) bean = .error e left ↔
      d.Stops qs ending bean e left := by
  rw [change_bind_eq_error_iff, forM_carryOut_eq_error_iff]
  constructor
  · rintro (⟨before, q, after, reached, rfl, hbefore, hwhole, hq⟩ | ⟨_, next, hqs, hending⟩)
    · rcases carryOut_eq_error_iff.mp hq with ⟨hfault, rfl⟩ | ⟨s, value, cause, hchange, hset, he⟩ |
        ⟨change, hchange, hset, hbehind⟩
      · exact .fault rfl hbefore hwhole hfault
      · -- the setter left the bean as it found it
        have hleft := hclean q (by simp) s value hchange value reached cause left hset
        subst hleft
        exact .refused rfl hbefore hwhole hchange hset he
      · exact .unread rfl (applies_snoc_iff.mpr ⟨change, reached, hbefore, hchange, hset⟩) hwhole
          hbehind
    · obtain ⟨hdone, hwhole⟩ := forM_carryOut_eq_ok_iff.mp hqs
      obtain ⟨hfault, rfl⟩ := lift_eq_error_iff.mp hending
      exact .ending hdone hwhole hfault
  · intro h
    cases h with
    | @fault before after q hqs hbefore hwhole hq =>
      exact .inl ⟨before, q, after, left, hqs, hbefore, hwhole,
        carryOut_eq_error_iff.mpr (.inl ⟨hq, rfl⟩)⟩
    | @refused before after q hqs hbefore hwhole s value hq cause hset he =>
      exact .inl ⟨before, q, after, left, hqs, hbefore, hwhole,
        carryOut_eq_error_iff.mpr (.inr (.inl ⟨s, value, cause, hq, hset, he⟩))⟩
    | @unread before after q hqs hdone hwhole hq =>
      obtain ⟨change, next, hbefore, hchange, hset⟩ := applies_snoc_iff.mp hdone
      exact .inl ⟨before, q, after, next, hqs, hbefore, hwhole,
        carryOut_eq_error_iff.mpr (.inr (.inr ⟨change, hchange, hset, hq⟩))⟩
    | ending hdone hwhole hending =>
      exact .inr ⟨(), left, forM_carryOut_eq_ok_iff.mpr ⟨hdone, hwhole⟩,
        lift_eq_error_iff.mpr ⟨hending, rfl⟩⟩

/-- What is set by name is a property or a creator. -/
theorem mem_of_updated {name : String} {s : Settable σ} (h : d.updated name = some s) :
    s ∈ d.properties ∨ s ∈ d.creators := by
  unfold updated at h
  cases hproperty : d.property name with
  | some s' =>
    rw [hproperty] at h
    cases h
    exact .inl (mem_of_property hproperty)
  | none =>
    rw [hproperty] at h
    obtain ⟨c, hc, rfl⟩ := Option.map_eq_some_iff.mp h
    exact .inr (mem_of_creator hc)

/-- What a document asks to set are properties and creators. -/
theorem mem_of_request {document : Document} {qs : List (Request σ)}
    {ending : Except ReadError Unit} (h : d.requests document = .ok (qs, ending))
    {q : Request σ} (hq : q ∈ qs) {s : Settable σ} {value : Option Value}
    (hchange : q.change = .ok (some (s, value))) : s ∈ d.properties ∨ s ∈ d.creators := by
  unfold requests at h
  split at h
  · cases h
    obtain ⟨entry, -, rfl⟩ := List.mem_map.mp hq
    unfold entryRequest at hchange
    split at hchange
    · cases hchange
    · split at hchange
      · rename_i s' hs'
        obtain ⟨_, -, he⟩ := map_eq_ok_iff.mp hchange
        cases he
        exact mem_of_updated hs'
      · obtain ⟨_, -, he⟩ := map_eq_ok_iff.mp hchange
        cases he
  · cases h
    obtain ⟨x, hx, rfl⟩ := List.mem_map.mp hq
    obtain ⟨_, -, he⟩ := map_eq_ok_iff.mp hchange
    cases he
    exact mem_of_mem_elements (List.of_mem_zip hx).1
  · cases h

/-- Something is wrong behind a value only if a part of it has not been read. -/
theorem exists_rest_of_behind {document : Document} {qs : List (Request σ)}
    {ending : Except ReadError Unit} (h : d.requests document = .ok (qs, ending))
    {q : Request σ} (hq : q ∈ qs) (hbehind : q.behind = .error e) :
    ∃ s j, (s ∈ d.properties ∨ s ∈ d.creators) ∧
      s.decoder.leavesRest document.position.mode j = true := by
  have hrest : ∀ (s : Settable σ) fault j, checkRest s document.position fault j = .error e →
      s.decoder.leavesRest document.position.mode j = true := by
    intro s fault j hfails
    unfold checkRest at hfails
    split at hfails
    · assumption
    · cases hfails
  unfold requests at h
  split at h
  · cases h
    obtain ⟨entry, -, rfl⟩ := List.mem_map.mp hq
    unfold entryRequest at hbehind
    split at hbehind
    · cases hbehind
    · split at hbehind
      · rename_i s hs
        dsimp only [Request.toSet, checkEntryRest] at hbehind
        split at hbehind
        · cases hbehind
        · exact ⟨s, _, mem_of_updated hs, hrest _ _ _ hbehind⟩
      · cases hbehind
  · cases h
    obtain ⟨⟨s, item⟩, hx, rfl⟩ := List.mem_map.mp hq
    dsimp only [itemRequest, Request.toSet, checkItemRest] at hbehind
    split at hbehind
    · cases hbehind
    · exact ⟨s, _, mem_of_mem_elements (List.of_mem_zip hx).1, hrest _ _ _ hbehind⟩
  · cases h

end Deserializer

theorem Codec.result_update_of_error {c : Codec σ} {bean : Bean σ} {document : Document}
    {st : CodecState σ} {cause : CodecError}
    (h : (c.deserializerFor bean.type st).result = .error cause) :
    (c.update bean document st).result = .error (.codec cause) bean := by
  simp only [update, h]

/--
**A failed update leaves what was set before it failed.**

Let a deserializer set careful properties and creators only, and let the bean be of its
type. An update fails with an error, and leaves a bean behind, exactly in these cases. The
document does not have the form of a bean, and nothing is changed. Or a request of it is at
fault or refused, and exactly the changes before it have been made, in order. Or the ending
is not as it should be, a surplus element included, and all changes have been made. Or only
a part of a value has been read, and the changes up to this one have been made, and none
after it; this takes a property or creator that leaves a part of a value unread.

If there is no deserializer, nothing is changed.
-/
theorem failed_update_keeps_earlier (d : Deserializer σ)
    (hcareful : ∀ s, s ∈ d.properties ∨ s ∈ d.creators → s.Careful) {bean : Bean σ}
    (hb : bean.type = d.bean) (document : Document) (e : ReadError) (left : Bean σ) :
    (d.update document bean = .error e left ↔
      d.requests document = .error e ∧ left = bean ∨
        ∃ qs ending, d.requests document = .ok (qs, ending) ∧
          d.Stops qs ending bean e left) ∧
    (∀ qs ending, d.requests document = .ok (qs, ending) → ∀ q ∈ qs, q.behind = .error e →
      ∃ s j, (s ∈ d.properties ∨ s ∈ d.creators) ∧
        s.decoder.leavesRest document.position.mode j = true) ∧
    (∀ (c : Codec σ) st cause, (c.deserializerFor bean.type st).result = .error cause →
      (c.update bean document st).result = .error (.codec cause) bean) := by
  refine ⟨?_, fun qs ending h q hq => Deserializer.exists_rest_of_behind h hq,
    fun c st cause => Codec.result_update_of_error⟩
  rw [Deserializer.update_eq_requests hb]
  cases hrequests : d.requests document with
  | error cause =>
    simp only [EStateM.Result.error.injEq, Except.error.injEq, reduceCtorEq, false_and,
      exists_false, or_false]
    exact and_congr_right fun _ => eq_comm
  | ok found =>
    obtain ⟨qs, ending⟩ := found
    have hclean : ∀ q ∈ qs, ∀ s value, q.change = .ok (some (s, value)) → Clean s.set :=
      fun q hq s value hchange =>
        (hcareful s (Deserializer.mem_of_request hrequests hq hchange)).clean
    rw [Deserializer.carried_out_stops_iff hclean]
    simp

/-! ### A right side that refuses everything -/

namespace Pair

/-- The right side, with a setter that refuses every value. -/
def closedRight : Property (Tree × Tree) :=
  ((Property.declare type "right" number).getter Prod.snd).trySetter
    fun _ => throw (.rejected "closed")

/-- A draft for pairs of which only the left side can be set. -/
def closedDraft : DeserializerDraft (Tree × Tree) :=
  ⟨type, .array, true, [.virtual leftProperty, .virtual closedRight],
    .ofIntrospection ((Introspection.declare type).withFresh (of 0 0).state)⟩

theorem closedRight_careful : closedRight.Careful :=
  ((Property.Careful.declare _ _ _).getter _ _).trySetter fun _ _ _ _ h => by
    cases h
    rfl

theorem leftProperty_careful : (leftProperty).Careful :=
  (((Property.Careful.declare _ _ _).getter _ _).setter _).withAnnotations _

end Pair

/-- The left side is set and stays so when the right side is refused. -/
theorem closed_pair_left_set :
    let document := Document.ofList (.start .streamed) [.number (.ofInt 1), .number (.ofInt 2)]
    ∃ d e, Pair.closedDraft.build = .ok d ∧
      d.update document (Pair.of 0 0) = .error e (Pair.of 1 0) ∧
      ∃ qs ending, d.requests document = .ok (qs, ending) ∧
        d.Stops qs ending (Pair.of 0 0) e (Pair.of 1 0) := by
  intro document
  obtain ⟨d, hd⟩ : ∃ d, Pair.closedDraft.build = .ok d := ⟨_, rfl⟩
  have hupdate : d.update document (Pair.of 0 0) =
      .error (.codec (.access "Pair" "right" (.rejected "closed"))) (Pair.of 1 0) := by
    cases hd
    rfl
  have hcareful : ∀ s, s ∈ d.properties ∨ s ∈ d.creators → s.Careful := by
    cases hd
    rintro s (hs | hs)
    · rcases List.mem_pair.mp hs with rfl | rfl
      · exact .virtual Pair.leftProperty_careful
      · exact .virtual Pair.closedRight_careful
    · cases hs
  have hbean : d.bean = Pair.type := by
    cases hd
    rfl
  have hstops := (failed_update_keeps_earlier d hcareful hbean.symm document _
    (Pair.of 1 0)).1.mp hupdate
  refine ⟨d, _, hd, hupdate, ?_⟩
  rcases hstops with ⟨hform, -⟩ | hstops
  · -- the document is a list, as it should be
    cases hd
    cases hform
  · exact hstops

/-! ### A number of which the half is lost -/

/--
From a list of one and a half, which is a single element and no integer, one is set before
the update fails.
-/
theorem half_read_number_set :
    let document := Document.ofText "[1.5]"
    Wide.property.Careful ∧
      document.content = .items [.ok (.number ⟨false, ['1'], ['5'], none⟩)] none ∧
      (Wide.codec.update (Wide.of 0) document (.ofRegistry ⟨[Wide.introspection]⟩)).result =
        .error (.fault .noListSeparator) (Wide.of 1) ∧
      Wide.of 1 ≠ Wide.of 0 := by
  refine ⟨((Property.Careful.declare _ _ _).getter _ _).setter _, rfl, rfl, ?_⟩
  intro h
  cases h

end BeanBinding
