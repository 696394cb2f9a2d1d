import BeanBinding.Proofs.Omitting
import BeanBinding.Proofs.Rebinding
import BeanBinding.Proofs.Typing

/-!
# Defaults of bound writers

The writer of a member that leaves out the declared default reads the literal once, when it
is drafted, as a value of the member's type. Binding gives the writer another type, that of
the property it is bound to, and keeps the value. So the declared default of a bound writer
may be a value of a type that the writer no longer reads.

Values of different types are never the same. Hence a bound writer leaves out what its
literal spells in the type of the property exactly if that is the type of the member, or
there is nothing of the kind to be read. Otherwise a value that is the declared default is
written, where the writer of the member, or one made from the property, leaves it out.
-/

namespace BeanBinding

open SerializationBinder

variable {σ : Type}

/-! ## Values that are read -/

/-- Whatever is read from a property has its declared type. -/
def Property.ReadsOwnType (p : Property σ) : Prop :=
  ∀ bean v, p.value bean = .ok (some v) → v.type = p.valueType

theorem Property.readsOwnType_reading {p : Property σ} (source : Source) (get : σ → Option Tree) :
    ({ p with reader := some (p.reading source get) }).ReadsOwnType := by
  intro bean v h
  obtain ⟨reading, hread, hv⟩ := map_eq_ok_iff.mp h
  obtain ⟨r, rfl, rfl⟩ := Option.map_eq_some_iff.mp hv
  change (if bean.type = p.owner then _ else _) = _ at hread
  split at hread
  · obtain ⟨t, -, rfl⟩ := Option.map_eq_some_iff.mp (Except.ok.inj hread)
    rfl
  · cases hread

theorem Property.Declared.readsOwnType {p : Property σ} (h : p.Declared) : p.ReadsOwnType := by
  induction h with
  | declare owner name type =>
    intro bean v hv
    cases hv
  | getter _ get source => exact readsOwnType_reading source _
  | getterOpt _ get source => exact readsOwnType_reading source get
  | getterOwned _ get => exact readsOwnType_reading .computed _
  -- what is declared about writing and the like leaves the getter alone
  | setter _ _ ih | setterOpt _ _ ih | trySetter _ _ ih => exact ih
  | withNullable _ _ ih | withAnnotations _ _ ih => exact ih

/-- Values of different types are never the same. -/
theorem Value.same_eq_false {v w : Value} (h : v.type.name ≠ w.type.name) : v.same w = false := by
  rw [Value.same, Value.is, beq_eq_false_iff_ne.mpr h, Bool.false_and]

/-! ## Writers that leave out a default -/

namespace Writer

variable {w : Writer σ} {literal : String}

/-- A writer that was drafted to leave out null, and the default that a literal declares. -/
structure OmitsDefault (w : Writer σ) (literal : String) : Prop where
  declared : w.metadata.default = some literal
  suppressNulls : w.suppressNulls = true
  suppression : w.suppression = some w.defaultSuppression
  nullSerializer : w.nullSerializer = none

/-- The literal is read as a value of the type, and if there is none, empty values stand in. -/
theorem OmitsDefault.suppresses_eq (h : w.OmitsDefault literal) (v : Value) :
    w.suppresses v =
      match w.valueType.ofLiteral literal with
      | some default => default.same v
      | none => w.isEmpty v := by
  rw [suppresses, h.suppression, defaultSuppression, h.declared, Option.bind_some]
  cases w.valueType.ofLiteral literal with
  | some default => rfl
  | none => rfl

/-- The writer leaves out exactly null and the values that are the same as a default. -/
def OmitsExactly (w : Writer σ) (p : Property σ) (default : Value) : Prop :=
  ∀ bean, w.LeavesOut bean ↔
    p.value bean = .ok none ∨ ∃ v, p.value bean = .ok (some v) ∧ default.same v = true

end Writer

/-- A member whose default is declared is drafted to leave it out, if the rule asks for this. -/
theorem SerializerDraft.omitsDefault_writerOf {config : Config} {m : Member σ} {literal : String}
    (hrule : m.inclusion.getD config.inclusion = .nonDefault)
    (hdefault : m.metadata.default = some literal) (hnull : m.nullSerializer = none) :
    (writerOf config m).OmitsDefault literal := by
  unfold writerOf Writer.withInclusion
  rw [hrule]
  exact ⟨hdefault, rfl, rfl, hnull⟩

namespace SerializationBinder

variable {i : Introspection σ} {w : Writer σ} {p : Property σ} {literal : String}

/-- A bound writer leaves out null, and what the writer suppressed when it was drafted. -/
theorem leavesOut_bind_iff (hw : w.OmitsDefault literal) (ht : target i w = some p)
    (bean : Bean σ) :
    (bind i w).LeavesOut bean ↔ p.value bean = .ok none ∨
      ∃ v, p.value bean = .ok (some v) ∧ w.suppresses v = true := by
  have hp : p.isReadable = true := (Option.filter_eq_some_iff.mp ht).2
  have hleft : (w.rebind p.valueType (.introspected p)).LeavesOut bean ↔
      p.read bean = .ok none ∨ ∃ r, p.read bean = .ok (some r) ∧ w.suppresses r.value = true :=
    (Writer.leavesOut_iff (w := w.rebind p.valueType (.introspected p)) hp
      hw.nullSerializer).trans (or_congr_left (and_iff_left hw.suppressNulls))
  rw [bind_of_target ht, hleft, Property.value]
  cases p.read bean with
  | error e => simp [Except.map]
  | ok reading =>
    cases reading with
    | none => simp [Except.map]
    | some r => simp [Except.map]

/-- So it leaves out the same as another rule that agrees on the values that can be read. -/
theorem omitsExactly_bind_iff (hw : w.OmitsDefault literal) (ht : target i w = some p)
    (default : Value) :
    (bind i w).OmitsExactly p default ↔
      ∀ bean v, p.value bean = .ok (some v) → w.suppresses v = default.same v := by
  constructor
  · intro h bean v hv
    have hbean := (leavesOut_bind_iff hw ht bean).symm.trans (h bean)
    simp only [hv, Except.ok.injEq, reduceCtorEq, false_or, Option.some.injEq,
      exists_eq_left'] at hbean
    exact Bool.eq_iff_iff.mpr hbean
  · intro h bean
    rw [leavesOut_bind_iff hw ht]
    refine or_congr_right (exists_congr fun v => and_congr_right fun hv => ?_)
    rw [h bean v hv]

end SerializationBinder

/--
**A bound writer leaves out the default that it was drafted with.**

Let a writer be drafted to leave out null and the default that a literal declares, without
a value for null, and let it be bound to a property that can be read, in whose type the
literal spells a value. Types of one name are one type. Bound, the writer leaves out null
and what it suppressed as drafted: the value that the literal spells in the type of the
member, or empty values if there is none.

This is exactly null and the value that the literal spells in the type of the property, if
both types are the same, or else if no such value is ever read; where the type of the
member cannot read the literal, it is so if the values that are read are empty just when
they are the same as that value.
-/
theorem bound_default_left_out_iff {i : Introspection σ} {w : Writer σ} {literal : String}
    (hw : w.OmitsDefault literal) {p : Property σ} (ht : target i w = some p) (hp : p.Declared)
    (htypes : w.valueType.name = p.valueType.name → w.valueType = p.valueType)
    {default : Value} (hdefault : p.valueType.ofLiteral literal = some default) :
    (∀ bean, (bind i w).LeavesOut bean ↔ p.value bean = .ok none ∨
      ∃ v, p.value bean = .ok (some v) ∧ w.suppresses v = true) ∧
    ((bind i w).OmitsExactly p default ↔
      match w.valueType.ofLiteral literal with
      | some _ => w.valueType = p.valueType ∨
          ∀ bean v, p.value bean = .ok (some v) → default.same v = false
      | none => ∀ bean v, p.value bean = .ok (some v) → w.isEmpty v = default.same v) := by
  refine ⟨leavesOut_bind_iff hw ht, ?_⟩
  rw [omitsExactly_bind_iff hw ht]
  simp only [hw.suppresses_eq]
  cases hdrafted : w.valueType.ofLiteral literal with
  | none => rfl
  | some drafted =>
    dsimp only
    by_cases hsame : w.valueType = p.valueType
    · -- the literal spells one value
      rw [hsame, hdefault] at hdrafted
      cases hdrafted
      simp [hsame]
    · have hnames : drafted.type.name ≠ p.valueType.name := by
        obtain ⟨t, -, rfl⟩ := Option.map_eq_some_iff.mp hdrafted
        exact fun hname => hsame (htypes hname)
      have hnever : ∀ bean v, p.value bean = .ok (some v) → drafted.same v = false := by
        intro bean v hv
        refine Value.same_eq_false ?_
        rw [hp.readsOwnType bean v hv]
        exact hnames
      rw [or_iff_right hsame]
      refine forall_congr' fun bean => forall_congr' fun v => forall_congr' fun hv => ?_
      rw [hnever bean v hv, eq_comm]

/-! ### A number of two widths -/

namespace Counter

/-- The type of beans that hold a number twice, in a narrow and in a wide type. -/
def type : BeanType := ⟨"Counter"⟩

/-- The narrow type. -/
def narrow : ValueType := ⟨"i32", .int .i32⟩

/-- The number, in both types. -/
def of (n : Int) : Bean (Tree × Tree) := ⟨type, (.int .i32 n, .int .i64 n)⟩

/-- The number in the narrow type. -/
def narrowCount : Property (Tree × Tree) := (Property.declare type "count" narrow).getter Prod.fst

/-- The number in the wide type. -/
def wideCount : Property (Tree × Tree) :=
  (Property.declare type "count" Pair.number).getter Prod.snd

/-- The number as a member in the narrow type, with a declared default. -/
def member : Member (Tree × Tree) :=
  .declare .method (narrowCount.withAnnotations (Annotations.empty.set Annotations.Kind.property
    Annotations.Attribute.defaultValue (.text "42")))

/-- The description with this member. -/
def description : Description (Tree × Tree) := ⟨type, [member], none, none⟩

/-- The introspection of the number in one of the types. -/
def introspection (count : Property (Tree × Tree)) : Introspection (Tree × Tree) :=
  (Introspection.declare type).withProperty count

/-- A codec that binds the member, and leaves out null and declared defaults. -/
def codec : Codec (Tree × Tree) :=
  .setup { Config.default with inclusion := .nonDefault } [description] [introspectionModule]

/-- The writer that is drafted for the member. -/
def writer : Writer (Tree × Tree) := SerializerDraft.writerOf codec.config member

theorem writer_omitsDefault : writer.OmitsDefault "42" :=
  SerializerDraft.omitsDefault_writerOf rfl rfl rfl

theorem same_self (type : ValueType) (kind : IntKind) (n : Int) :
    (⟨type, .int kind n⟩ : Value).same ⟨type, .int kind n⟩ = true := by
  simp [Value.same, Value.is, Tree.same]

/-- What is written if the member is bound to a property. -/
theorem write_bound (count : Property (Tree × Tree)) (n : Int) :
    (codec.write (of n) (.ofRegistry ⟨[introspection count]⟩)).result =
      (Serializer.fields (of n) [bind (introspection count) writer]).map .record := by
  have hbinds : codec.Binds ⟨[introspection count]⟩ description (introspection count) :=
    Codec.binds_setup rfl rfl rfl
  have hwriters : (SerializerDraft.ofDescription description codec.config).writers = [writer] := by
    show SerializerDraft.sortByKey [writer] = [writer]
    exact List.mergeSort_singleton _
  have hbuild : (codec.boundWriters description (introspection count)).build =
      .ok ⟨type, .object, [bind (introspection count) writer]⟩ := by
    rw [Codec.boundWriters_eq ⟨member, List.mem_singleton.mpr rfl, rfl⟩, hwriters,
      SerializerDraft.build_eq_ok_iff]
    exact ⟨rfl, List.nodup_singleton _, by simp [List.map]⟩
  have hserializer : (codec.buildSerializer ⟨[introspection count]⟩ (of n).type).value =
      .ok ⟨type, .object, [bind (introspection count) writer]⟩ :=
    hbinds.buildSerializer.trans hbuild
  rw [Codec.result_write, hserializer]
  rfl

end Counter

/-- Bound to a property of its own type, the member leaves out its default. -/
theorem narrow_default_left_out :
    (bind (Counter.introspection Counter.narrowCount) Counter.writer).OmitsExactly
        Counter.narrowCount ⟨Counter.narrow, .int .i32 42⟩ ∧
      (Counter.codec.write (Counter.of 42)
        (.ofRegistry ⟨[Counter.introspection Counter.narrowCount]⟩)).result = .ok (.record []) := by
  have hdeclared : Counter.narrowCount.Declared := (Property.Declared.declare _ _ _).getter _ _
  have hexactly := (bound_default_left_out_iff Counter.writer_omitsDefault
    (i := Counter.introspection Counter.narrowCount) rfl hdeclared (fun _ => rfl)
    (rfl : Counter.narrow.ofLiteral "42" = some ⟨Counter.narrow, .int .i32 42⟩)).2.mpr (.inl rfl)
  refine ⟨hexactly, ?_⟩
  have hfield : (bind (Counter.introspection Counter.narrowCount) Counter.writer).field
      (Counter.of 42) = .ok none :=
    Writer.field_eq_none_iff.mpr
      ((hexactly (Counter.of 42)).mpr (.inr ⟨_, rfl, Counter.same_self _ _ _⟩))
  rw [Counter.write_bound, Serializer.fields, hfield]
  rfl

/-- Bound to a property of a wider type, it is written, though it is the default there, too. -/
theorem wide_default_written :
    let registry : Registry (Tree × Tree) := ⟨[Counter.introspection Counter.wideCount]⟩
    let default : Value := ⟨Pair.number, .int .i64 42⟩
    let bound := bind (Counter.introspection Counter.wideCount) Counter.writer
    Counter.writer.OmitsDefault "42" ∧
      target (Counter.introspection Counter.wideCount) Counter.writer = some Counter.wideCount ∧
      bound.valueType.ofLiteral "42" = some default ∧
      Counter.wideCount.value (Counter.of 42) = .ok (some default) ∧
      default.same default = true ∧
      ¬ bound.LeavesOut (Counter.of 42) ∧
      (Counter.codec.write (Counter.of 42) (.ofRegistry registry)).result =
        .ok (.record [("count", .number (.ofInt 42))]) := by
  intro registry default bound
  refine ⟨Counter.writer_omitsDefault, rfl, rfl, rfl, Counter.same_self _ _ _, ?_,
    (Counter.write_bound Counter.wideCount 42).trans rfl⟩
  rw [← Writer.field_eq_none_iff]
  intro h
  cases h

end BeanBinding
