import BeanBinding.Proofs.Stopping

/-!
# Setters that store into fields

A setter is supplied from outside, and may do anything. Most do the obvious thing: the value
goes into one field of the state, in the place of what was there, and whether it is accepted
depends on the value and not on the state.

`Fields` says what makes parts of a state fields: of two values for one field the last
counts, and values for two fields may come in either order. A write `StoresIn` a field if
each value has one `Fate` on all beans of a type. What is declared with setters into a field
does (`Sets.storesIn`), and so do settable properties and creators over such a property, and
those that have nothing to set.

Of values that are stored one after the other only the last one for each field counts. So
storing all of them once more changes nothing (`putAll_putAll_self`), though each of them
may have been replaced in the meantime.
-/

namespace BeanBinding

variable {σ : Type}

/-- Parts of a state that can be replaced independently. -/
structure Fields (σ : Type) where
  Name : Type
  Content : Name → Type
  store : (f : Name) → Content f → σ → σ
  /-- What was stored before in the same field does not matter. -/
  store_store : ∀ f c c' s, store f c (store f c' s) = store f c s
  /-- Which of two fields is stored into first does not matter. -/
  store_comm : ∀ f g, f ≠ g → ∀ c c' s, store f c (store g c' s) = store g c' (store f c s)

namespace Fields

variable {fields : Fields σ} {type : BeanType} {f g : fields.Name}

/-- Stores into a field of a bean, if there is something to store. -/
def put (fields : Fields σ) (f : fields.Name) (c : Option (fields.Content f)) (bean : Bean σ) :
    Bean σ :=
  match c with
  | some c => { bean with state := fields.store f c bean.state }
  | none => bean

@[simp] theorem type_put (c : Option (fields.Content f)) (bean : Bean σ) :
    (fields.put f c bean).type = bean.type := by
  cases c with
  | none => rfl
  | some c => rfl

theorem put_comm (h : f ≠ g) (c : Option (fields.Content f)) (c' : Option (fields.Content g))
    (bean : Bean σ) :
    fields.put f c (fields.put g c' bean) = fields.put g c' (fields.put f c bean) := by
  cases c with
  | none => rfl
  | some c =>
    cases c' with
    | none => rfl
    | some c' => simp only [put, fields.store_comm f g h]

theorem put_put (c : fields.Content f) (c' : Option (fields.Content f)) (bean : Bean σ) :
    fields.put f (some c) (fields.put f c' bean) = fields.put f (some c) bean := by
  cases c' with
  | none => rfl
  | some c' => simp only [put, fields.store_store]

/-! ## One after the other -/

/-- Stores into fields of a bean, one after the other. -/
def putAll (fields : Fields σ) (xs : List ((f : fields.Name) × Option (fields.Content f)))
    (bean : Bean σ) : Bean σ :=
  xs.foldl (fun bean x => fields.put x.1 x.2 bean) bean

variable {xs ys : List ((f : fields.Name) × Option (fields.Content f))}

theorem putAll_cons (x : (f : fields.Name) × Option (fields.Content f)) (bean : Bean σ) :
    fields.putAll (x :: xs) bean = fields.putAll xs (fields.put x.1 x.2 bean) := rfl

theorem type_putAll (bean : Bean σ) : (fields.putAll xs bean).type = bean.type := by
  induction xs generalizing bean with
  | nil => rfl
  | cons x xs ih => rw [putAll_cons, ih, type_put]

/-- What is stored into the same field later makes up for what was stored before. -/
theorem putAll_put {c' : fields.Content f} (h : ⟨f, some c'⟩ ∈ xs)
    (c : Option (fields.Content f)) (bean : Bean σ) :
    fields.putAll xs (fields.put f c bean) = fields.putAll xs bean := by
  induction xs generalizing bean with
  | nil => cases h
  | cons x xs ih =>
    rw [putAll_cons, putAll_cons]
    rcases List.mem_cons.mp h with rfl | hrest
    · rw [put_put]
    · by_cases hf : x.1 = f
      · obtain ⟨g, d⟩ := x
        subst hf
        cases d with
        | none => exact ih hrest bean
        | some d => rw [put_put]
      · -- a store into another field is out of the way
        rw [put_comm hf, ih hrest]

/-- **The last value for each field counts.** -/
theorem putAll_putAll (h : ∀ f c, ⟨f, some c⟩ ∈ ys → ∃ c', ⟨f, some c'⟩ ∈ xs) (bean : Bean σ) :
    fields.putAll xs (fields.putAll ys bean) = fields.putAll xs bean := by
  induction ys generalizing bean with
  | nil => rfl
  | cons y ys ih =>
    rw [putAll_cons, ih fun f c hc => h f c (List.mem_cons_of_mem y hc)]
    obtain ⟨f, c⟩ := y
    cases c with
    | none => rfl
    | some c =>
      obtain ⟨c', hc'⟩ := h f c List.mem_cons_self
      exact putAll_put hc' (some c) bean

/-- Storing everything once more changes nothing. -/
theorem putAll_putAll_self (bean : Bean σ) :
    fields.putAll xs (fields.putAll xs bean) = fields.putAll xs bean :=
  putAll_putAll (fun _ c hc => ⟨c, hc⟩) bean

/-! ## Writes -/

/-- What becomes of a change, whichever bean of a type it is made to. -/
inductive Fate {ε : Type} (fields : Fields σ) (type : BeanType) (f : fields.Name)
    (change : ChangeM ε σ Unit) : Prop where
  /-- It is refused. -/
  | refused (h : ∀ bean next : Bean σ, bean.type = type → change bean ≠ .ok () next)
  /-- It is accepted, but changes nothing. -/
  | passed (h : ∀ bean : Bean σ, bean.type = type → change bean = .ok () bean)
  /-- Something is stored. -/
  | stored (c : fields.Content f) (h : ∀ bean : Bean σ, bean.type = type →
      change bean = .ok () { bean with state := fields.store f c bean.state })

/-- A write that stores into a field, whatever the bean holds. -/
def StoresIn (fields : Fields σ) (type : BeanType) (f : fields.Name) (write : WriteAccess σ) :
    Prop :=
  ∀ value, fields.Fate type f (write value)

/-- A change that succeeds once succeeds again, with the same effect. -/
theorem Fate.exists_put {ε : Type} {change : ChangeM ε σ Unit} (h : fields.Fate type f change)
    {bean next : Bean σ} (hb : bean.type = type) (hrun : change bean = .ok () next) :
    ∃ c, next = fields.put f c bean ∧
      ∀ other : Bean σ, other.type = type → change other = .ok () (fields.put f c other) := by
  obtain ⟨c, hc⟩ : ∃ c, ∀ other : Bean σ, other.type = type →
      change other = .ok () (fields.put f c other) := by
    cases h with
    | refused hrefused => exact absurd hrun (hrefused bean next hb)
    | passed hpassed => exact ⟨none, hpassed⟩
    | stored c hstored => exact ⟨some c, hstored⟩
  refine ⟨c, ?_, hc⟩
  rw [hc bean hb] at hrun
  cases hrun
  rfl

theorem fate_pure {ε : Type} : fields.Fate type f (pure () : ChangeM ε σ Unit) :=
  .passed fun _ _ => rfl

theorem fate_throw {ε : Type} (e : ε) : fields.Fate type f (throw e : ChangeM ε σ Unit) :=
  .refused fun _ _ _ h => by cases h

/-! ### Setters -/

section

variable {p : Property σ}

/-- Beans of another type are refused first, so only those of the owner matter. -/
theorem fate_checkOwner {rest : ChangeM AccessError σ Unit} (h : fields.Fate p.owner f rest) :
    fields.Fate type f (do p.checkOwner; rest) := by
  -- either the check always succeeds, or it never does
  by_cases howner : type = p.owner
  · have hrun : ∀ bean : Bean σ, bean.type = p.owner →
        (do p.checkOwner; rest : ChangeM AccessError σ Unit) bean = rest bean :=
      fun bean hb => change_bind_ok (Property.checkOwner_ok hb)
    rw [howner]
    cases h with
    | refused h => exact .refused fun bean next hb => by rw [hrun bean hb]; exact h bean next hb
    | passed h => exact .passed fun bean hb => (hrun bean hb).trans (h bean hb)
    | stored c h => exact .stored c fun bean hb => (hrun bean hb).trans (h bean hb)
  · refine .refused fun bean next hb hrun => ?_
    obtain ⟨_, _, hcheck, -⟩ := change_bind_eq_ok_iff.mp hrun
    exact howner (hb.symm.trans (Property.checkOwner_eq_ok_iff.mp hcheck).1)

/-- A value of another type is refused, and what is done with the others is up to the setter. -/
theorem fate_content {v : Value} {rest : Tree → ChangeM AccessError σ Unit}
    (h : ∀ t, fields.Fate type f (rest t)) :
    fields.Fate type f (do let t ← p.content v; rest t) := by
  rw [Property.content]
  cases v.take p.valueType with
  | error v' => exact fate_throw _
  | ok t => exact h t

/-- A plain setter stores. -/
theorem storesIn_setter {set : σ → Tree → σ} (form : Tree → fields.Content f)
    (hset : ∀ s t, set s t = fields.store f (form t) s) :
    fields.StoresIn type f (p.setter set).write := by
  intro value
  refine fate_checkOwner (p := p) ?_
  cases value with
  | none => exact fate_throw AccessError.nullNotAccepted
  | some v =>
    refine fate_content fun t => .stored (form t) fun bean _ => ?_
    rw [← hset]
    rfl

/-- A setter for optional values stores null in some form, too. -/
theorem storesIn_setterOpt {set : σ → Option Tree → σ} (form : Option Tree → fields.Content f)
    (hset : ∀ s t, set s t = fields.store f (form t) s) :
    fields.StoresIn type f (p.setterOpt set).write := by
  have hstored : ∀ t, fields.Fate p.owner f
      (modify fun bean => { bean with state := set bean.state t } :
        ChangeM AccessError σ Unit) := by
    refine fun t => .stored (form t) fun bean _ => ?_
    rw [← hset]
    rfl
  intro value
  refine fate_checkOwner (p := p) ?_
  cases value with
  | none => exact hstored none
  | some v =>
    show fields.Fate p.owner f (do
      let t ← some <$> p.content v
      modify fun bean => { bean with state := set bean.state t })
    rw [map_eq_pure_bind, bind_assoc]
    exact fate_content fun t => hstored (some t)

/-- A setter that may fail stores if it tells by the value alone. -/
theorem storesIn_trySetter {set : Tree → EStateM AccessError σ Unit}
    (hset : ∀ t, (∀ s s', set t s ≠ .ok () s') ∨
      ∃ c : fields.Content f, ∀ s, set t s = .ok () (fields.store f c s)) :
    fields.StoresIn type f (p.trySetter set).write := by
  intro value
  refine fate_checkOwner (p := p) ?_
  cases value with
  | none => exact fate_throw AccessError.nullNotAccepted
  | some v =>
    refine fate_content fun t => ?_
    rcases hset t with hrefused | ⟨c, hstored⟩
    · refine .refused fun bean next _ hrun => ?_
      split at hrun
      · rename_i s' hs'
        exact hrefused bean.state s' hs'
      · cases hrun
    · exact .stored c fun bean _ => by simp only [hstored]

end

/-- A property that declarations make, with setters that store into a field. -/
inductive Sets (fields : Fields σ) (f : fields.Name) : Property σ → Prop where
  | declare (owner : BeanType) (name : String) (type : ValueType) :
      Sets fields f (.declare owner name type)
  | getter {p : Property σ} (h : Sets fields f p) (get : σ → Tree) (source : Source) :
      Sets fields f (p.getter get source)
  | getterOpt {p : Property σ} (h : Sets fields f p) (get : σ → Option Tree) (source : Source) :
      Sets fields f (p.getterOpt get source)
  | getterOwned {p : Property σ} (h : Sets fields f p) (get : σ → Tree) :
      Sets fields f (p.getterOwned get)
  | setter {p : Property σ} (h : Sets fields f p) {set : σ → Tree → σ}
      (form : Tree → fields.Content f) (hset : ∀ s t, set s t = fields.store f (form t) s) :
      Sets fields f (p.setter set)
  | setterOpt {p : Property σ} (h : Sets fields f p) {set : σ → Option Tree → σ}
      (form : Option Tree → fields.Content f)
      (hset : ∀ s t, set s t = fields.store f (form t) s) : Sets fields f (p.setterOpt set)
  | trySetter {p : Property σ} (h : Sets fields f p) {set : Tree → EStateM AccessError σ Unit}
      (hset : ∀ t, (∀ s s', set t s ≠ .ok () s') ∨
        ∃ c : fields.Content f, ∀ s, set t s = .ok () (fields.store f c s)) :
      Sets fields f (p.trySetter set)
  | withNullable {p : Property σ} (h : Sets fields f p) (nullable : Bool) :
      Sets fields f (p.withNullable nullable)
  | withAnnotations {p : Property σ} (h : Sets fields f p) (annotations : Annotations) :
      Sets fields f (p.withAnnotations annotations)

/-- **A property with setters into a field stores into it**, on beans of any type. -/
theorem Sets.storesIn {p : Property σ} (h : fields.Sets f p) : fields.StoresIn type f p.write := by
  induction h with
  | declare owner name type => exact fun _ => fate_throw AccessError.notWritable
  | setter _ form hset => exact storesIn_setter form hset
  | setterOpt _ form hset => exact storesIn_setterOpt form hset
  | trySetter _ hset => exact storesIn_trySetter hset
  -- what is declared about reading and the like leaves the setter alone
  | getter _ _ _ ih | getterOpt _ _ _ ih | getterOwned _ _ ih => exact ih
  | withNullable _ _ ih | withAnnotations _ _ ih => exact ih

/-! ### Settable properties and creators -/

/-- Null may be passed over where a value is stored. -/
theorem storesIn_virtual {p : Property σ} (h : fields.StoresIn type f p.write) :
    fields.StoresIn type f (Settable.virtual p).set := by
  intro value
  unfold Settable.virtual
  dsimp only
  split
  · exact fate_pure
  · exact h value

/-- A creator stores what the property behind it stores, and nothing if there is none. -/
theorem storesIn_creator {i : Introspection σ} {a : Argument}
    (h : ∀ p, Settable.behind i a = some p → fields.StoresIn type f p.write) :
    fields.StoresIn type f (Settable.creator i a).set := by
  intro value
  unfold Settable.creator
  dsimp only
  split
  · exact h _ ‹_› value
  · exact fate_pure

end Fields

/-! ## The sides of a pair -/

namespace Pair

/-- The fields of a pair. -/
inductive Side where
  | left
  | right
deriving DecidableEq

/-- A pair consists of its sides. -/
def sides : Fields (Tree × Tree) where
  Name := Side
  Content _ := Tree
  store
    | .left, t, s => (t, s.2)
    | .right, t, s => (s.1, t)
  store_store := by
    intro f c c' s
    cases f with
    | left => rfl
    | right => rfl
  store_comm := by
    intro f g h c c' s
    cases f with
    | left =>
      cases g with
      | left => exact absurd rfl h
      | right => rfl
    | right =>
      cases g with
      | left => rfl
      | right => exact absurd rfl h

theorem sets_left (name : String) (annotations : Annotations) :
    sides.Sets .left (left.property type name number annotations) := by
  have hset : ∀ s t, left.set s t = sides.store .left t s := fun _ _ => rfl
  exact (((Fields.Sets.declare _ _ _).getter _ _).setter (fun t => t) hset).withAnnotations _

theorem sets_right (name : String) (annotations : Annotations) :
    sides.Sets .right (right.property type name number annotations) := by
  have hset : ∀ s t, right.set s t = sides.store .right t s := fun _ _ => rfl
  exact (((Fields.Sets.declare _ _ _).getter _ _).setter (fun t => t) hset).withAnnotations _

/-- The creator for the left side stores into it. -/
theorem storesIn_leftCreator {s : Settable (Tree × Tree)}
    (hs : s ∈ (made leftProperty).arguments.map (.creator (made leftProperty))) :
    s.name = "left" ∧ ∀ beans, sides.StoresIn beans .left s.set := by
  cases List.mem_singleton.mp hs
  refine ⟨rfl, fun beans => Fields.storesIn_creator fun p hp => ?_⟩
  cases hp
  exact (sets_left _ _).storesIn

end Pair

end BeanBinding
