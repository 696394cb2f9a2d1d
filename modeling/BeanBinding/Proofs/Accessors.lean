import BeanBinding.Introspection

/-!
# Properties that live in a part of the state

Accessors are supplied from outside, so a theorem about what comes back after a write
has to say what it expects of them. This file gives the accessors for which such
expectations hold: those of a `Part`, which can be taken out of a state and replaced.

Two parts are `Apart` if replacing one leaves the other alone. The two sides of a pair
are the smallest case, and the one in which properties can first be confused.
-/

namespace BeanBinding

variable {σ : Type}

/-! ## Running changes -/

/-- A change that succeeds hands its result and its bean to the next one. -/
theorem change_bind_ok {ε α β : Type} {x : ChangeM ε σ α} {f : α → ChangeM ε σ β}
    {bean bean' : Bean σ} {a : α} (h : x bean = .ok a bean') : (x >>= f) bean = f a bean' := by
  show EStateM.bind x f bean = _
  rw [EStateM.bind, h]

/-- A change that fails ends the sequence, with the bean as it left it. -/
theorem change_bind_error {ε α β : Type} {x : ChangeM ε σ α} {f : α → ChangeM ε σ β}
    {bean bean' : Bean σ} {e : ε} (h : x bean = .error e bean') :
    (x >>= f) bean = .error e bean' := by
  show EStateM.bind x f bean = _
  rw [EStateM.bind, h]

theorem change_pure {ε α : Type} (a : α) (bean : Bean σ) :
    (pure a : ChangeM ε σ α) bean = .ok a bean := rfl

theorem change_throw {ε α : Type} (e : ε) (bean : Bean σ) :
    (throw e : ChangeM ε σ α) bean = .error e bean := rfl

/-- Of two changes in a row, both succeed. -/
theorem change_bind_eq_ok_iff {ε α β : Type} {x : ChangeM ε σ α} {f : α → ChangeM ε σ β}
    {bean bean' : Bean σ} {b : β} :
    (x >>= f) bean = .ok b bean' ↔ ∃ a next, x bean = .ok a next ∧ f a next = .ok b bean' := by
  cases hx : x bean with
  | ok a next =>
    rw [change_bind_ok hx]
    constructor
    · intro h
      exact ⟨a, next, rfl, h⟩
    · rintro ⟨_, _, he, h⟩
      cases he
      exact h
  | error e left =>
    rw [change_bind_error hx]
    simp

/-- **Changes in a row fail where the first of them fails**, with the bean that it left. -/
theorem forM_eq_error_iff {ε α : Type} {step : α → ChangeM ε σ Unit} {xs : List α}
    {bean left : Bean σ} {e : ε} :
    (forM xs step : ChangeM ε σ Unit) bean = .error e left ↔
      ∃ before x after reached, xs = before ++ x :: after ∧
        (forM before step : ChangeM ε σ Unit) bean = .ok () reached ∧
          step x reached = .error e left := by
  induction xs generalizing bean with
  | nil =>
    constructor
    · intro h; cases h
    · rintro ⟨before, x, after, reached, hxs, -⟩
      simp at hxs
  | cons x xs ih =>
    rw [List.forM_cons]
    cases hx : step x bean with
    | error e' left' =>
      rw [change_bind_error hx]
      constructor
      · intro h
        exact ⟨[], x, xs, bean, rfl, rfl, hx.trans h⟩
      · rintro ⟨before, y, after, reached, hxs, hbefore, hy⟩
        cases before with
        | nil =>
          cases hxs
          cases hbefore
          exact hx.symm.trans hy
        | cons y' before =>
          -- the first change is among those that succeeded
          cases hxs
          rw [List.forM_cons, change_bind_error hx] at hbefore
          cases hbefore
    | ok a bean' =>
      rw [change_bind_ok hx, ih]
      constructor
      · rintro ⟨before, y, after, reached, rfl, hbefore, hy⟩
        refine ⟨x :: before, y, after, reached, rfl, ?_, hy⟩
        rw [List.forM_cons, change_bind_ok hx]
        exact hbefore
      · rintro ⟨before, y, after, reached, hxs, hbefore, hy⟩
        cases before with
        | nil =>
          cases hxs
          cases hbefore
          rw [hx] at hy
          cases hy
        | cons y' before =>
          cases hxs
          rw [List.forM_cons, change_bind_ok hx] at hbefore
          exact ⟨before, y, after, reached, rfl, hbefore, hy⟩

/-- What no change in a row affects is in the end what it was. -/
theorem forM_preserves {ε α β : Type} {step : α → ChangeM ε σ Unit} {observe : Bean σ → β}
    {xs : List α}
    (h : ∀ x ∈ xs, ∀ bean bean', step x bean = .ok () bean' → observe bean' = observe bean)
    {bean bean' : Bean σ} (hrun : (forM xs step : ChangeM ε σ Unit) bean = .ok () bean') :
    observe bean' = observe bean := by
  induction xs generalizing bean with
  | nil =>
    cases hrun
    rfl
  | cons x xs ih =>
    rw [List.forM_cons] at hrun
    obtain ⟨_, next, hx, hrest⟩ := change_bind_eq_ok_iff.mp hrun
    rw [ih (fun y hy => h y (List.mem_cons_of_mem x hy)) hrest]
    exact h x List.mem_cons_self bean next hx

namespace Property

theorem checkOwner_ok {p : Property σ} {bean : Bean σ} (h : bean.type = p.owner) :
    p.checkOwner bean = .ok () bean := by
  have hget : (get : ChangeM AccessError σ (Bean σ)) bean = .ok bean bean := rfl
  rw [checkOwner, change_bind_ok hget, if_neg (fun hne => hne h)]
  rfl

theorem content_ok (p : Property σ) (t : Tree) (bean : Bean σ) :
    p.content ⟨p.valueType, t⟩ bean = .ok t bean := by
  have htake : (⟨p.valueType, t⟩ : Value).take p.valueType = .ok t := by
    simp [Value.take, Value.is]
  rw [content, htake]
  rfl

/-! ## What accessors accept -/

variable {p : Property σ} {bean bean' : Bean σ}

theorem checkOwner_eq_ok_iff {u : Unit} :
    p.checkOwner bean = .ok u bean' ↔ bean.type = p.owner ∧ bean = bean' := by
  have hget : (get : ChangeM AccessError σ (Bean σ)) bean = .ok bean bean := rfl
  rw [checkOwner, change_bind_ok hget]
  by_cases h : bean.type = p.owner
  · rw [if_neg (fun hne => hne h), change_pure]
    simp [h]
  · rw [if_pos h, change_throw]
    simp [h]

theorem content_eq_ok_iff {v : Value} {t : Tree} :
    p.content v bean = .ok t bean' ↔ v.take p.valueType = .ok t ∧ bean = bean' := by
  rw [content]
  cases v.take p.valueType with
  | error v' => simp [change_throw]
  | ok t' => simp [change_pure]

/-- A setter accepts the values of its type, and no null. -/
theorem write_setter_eq_ok_iff {set : σ → Tree → σ} {value : Option Value} :
    (p.setter set).write value bean = .ok () bean' ↔ bean.type = p.owner ∧
      ∃ v t, value = some v ∧ v.take p.valueType = .ok t ∧
        { bean with state := set bean.state t } = bean' := by
  cases value with
  | none =>
    show (p.checkOwner >>= fun _ => throw .nullNotAccepted) bean = _ ↔ _
    rw [change_bind_eq_ok_iff]
    simp [change_throw]
  | some v =>
    show (p.checkOwner >>= fun _ => p.content v >>= fun t =>
      modify fun bean => { bean with state := set bean.state t }) bean = _ ↔ _
    simp only [change_bind_eq_ok_iff, checkOwner_eq_ok_iff, content_eq_ok_iff]
    constructor
    · rintro ⟨_, _, ⟨ho, rfl⟩, t, _, ⟨ht, rfl⟩, hm⟩
      cases hm
      exact ⟨ho, v, t, rfl, ht, rfl⟩
    · rintro ⟨ho, _, t, he, ht, rfl⟩
      cases he
      exact ⟨(), bean, ⟨ho, rfl⟩, t, bean, ⟨ht, rfl⟩, rfl⟩

/-- A setter for optional values accepts null. -/
theorem write_setterOpt_none_eq_ok_iff {set : σ → Option Tree → σ} :
    (p.setterOpt set).write none bean = .ok () bean' ↔
      bean.type = p.owner ∧ { bean with state := set bean.state none } = bean' := by
  show (p.checkOwner >>= fun _ => modify fun bean =>
    { bean with state := set bean.state none }) bean = _ ↔ _
  simp only [change_bind_eq_ok_iff, checkOwner_eq_ok_iff]
  constructor
  · rintro ⟨_, _, ⟨ho, rfl⟩, hm⟩
    cases hm
    exact ⟨ho, rfl⟩
  · rintro ⟨ho, rfl⟩
    exact ⟨(), bean, ⟨ho, rfl⟩, rfl⟩

/-- A getter for optional values reads null where there is none. -/
theorem value_getterOpt {get : σ → Option Tree} (h : bean.type = p.owner) :
    ((p.getterOpt get).read bean).map (Option.map (·.value)) =
      .ok ((get bean.state).map (⟨p.valueType, ·⟩)) := by
  show Except.map _ (if bean.type = p.owner then _ else _) = _
  rw [if_pos h]
  cases get bean.state with
  | none => rfl
  | some t => rfl

end Property

/-! ## Parts -/

/-- The value that a property has on a bean, wherever it lives. -/
def Property.value (p : Property σ) (bean : Bean σ) : Except AccessError (Option Value) :=
  (p.read bean).map (Option.map (·.value))

/-- A part of a state, which can be taken out and replaced. -/
structure Part (σ : Type) where
  get : σ → Tree
  set : σ → Tree → σ
  /-- A part that was replaced is what it was replaced by. -/
  get_set : ∀ s t, get (set s t) = t

namespace Part

/-- Replacing the first part leaves the second alone. -/
def Apart (a b : Part σ) : Prop := ∀ s t, b.get (a.set s t) = b.get s

/-- The property that reads and writes a part. -/
def property (part : Part σ) (owner : BeanType) (name : String) (type : ValueType)
    (annotations : Annotations := .empty) : Property σ :=
  (((Property.declare owner name type).getter part.get).setter part.set).withAnnotations
    annotations

variable {part other : Part σ} {owner : BeanType} {name : String} {type : ValueType}
  {annotations : Annotations} {bean : Bean σ}

/-- Reading gives the part. -/
theorem read_property (h : bean.type = owner) :
    (part.property owner name type annotations).read bean =
      .ok (some ⟨⟨type, part.get bean.state⟩, .part⟩) := by
  show (if bean.type = owner then _ else _) = _
  rw [if_pos h]
  rfl

theorem value_property (h : bean.type = owner) :
    (part.property owner name type annotations).value bean =
      .ok (some ⟨type, part.get bean.state⟩) := by
  rw [Property.value, read_property h]
  rfl

/-- Writing a value of the declared type replaces the part. -/
theorem write_property (h : bean.type = owner) (t : Tree) :
    (part.property owner name type annotations).write (some ⟨type, t⟩) bean =
      .ok () { bean with state := part.set bean.state t } := by
  let p := (Property.declare owner name type).getter part.get
  have howner : p.checkOwner bean = .ok () bean := Property.checkOwner_ok h
  have hcontent : p.content ⟨type, t⟩ bean = .ok t bean := Property.content_ok p t bean
  show (p.checkOwner >>= fun _ => p.content ⟨type, t⟩ >>= fun t =>
    modify fun b => { b with state := part.set b.state t }) bean = _
  rw [change_bind_ok howner, change_bind_ok hcontent]
  rfl

/-- What was written is read. -/
theorem value_write_self (h : bean.type = owner) (t : Tree) :
    (part.property owner name type annotations).value
      { bean with state := part.set bean.state t } = .ok (some ⟨type, t⟩) := by
  have hset : (part.property owner name type annotations).value
      { bean with state := part.set bean.state t } =
        .ok (some ⟨type, part.get (part.set bean.state t)⟩) := value_property h
  rw [hset, part.get_set]

/-- A part that lies apart is read as before. -/
theorem value_write_apart (ha : part.Apart other) (h : bean.type = owner) (t : Tree) :
    (other.property owner name type annotations).value
      { bean with state := part.set bean.state t } =
      (other.property owner name type annotations).value bean := by
  have hset : (other.property owner name type annotations).value
      { bean with state := part.set bean.state t } =
        .ok (some ⟨type, other.get (part.set bean.state t)⟩) := value_property h
  rw [hset, value_property h, ha]

end Part

/-! ## Pairs -/

namespace Pair

/-- The type of beans that are pairs. -/
def type : BeanType := ⟨"Pair"⟩

/-- The type of the two sides of a pair. -/
def number : ValueType := ⟨"i64", .int .i64⟩

/-- A pair of numbers. -/
def of (left right : Int) : Bean (Tree × Tree) := ⟨type, (.int .i64 left, .int .i64 right)⟩

/-- The left side. -/
def left : Part (Tree × Tree) := ⟨Prod.fst, fun s t => (t, s.2), fun _ _ => rfl⟩

/-- The right side. -/
def right : Part (Tree × Tree) := ⟨Prod.snd, fun s t => (s.1, t), fun _ _ => rfl⟩

theorem right_apart_left : right.Apart left := fun _ _ => rfl

/-- The property of the left side. -/
def leftProperty (annotations : Annotations := .empty) : Property (Tree × Tree) :=
  left.property type "left" number annotations

/-- The property of the right side. -/
def rightProperty (annotations : Annotations := .empty) : Property (Tree × Tree) :=
  right.property type "right" number annotations

/-- Makes a pair of the given left side and zero. -/
def constructor : Constructor (Tree × Tree) := do
  let t ← Arguments.take 0 number
  return (t, .int .i64 0)

/-- The introspection of pairs that are made from their left side. -/
def made (left : Property (Tree × Tree)) : Introspection (Tree × Tree) :=
  ((((Introspection.declare type).withProperty left).withProperty rightProperty).withArgument
    (.declare "left" number)).withConstructor constructor

/-- The left side, which cannot be set. -/
def fixedLeft : Property (Tree × Tree) := { leftProperty with writer := none }

end Pair

end BeanBinding
