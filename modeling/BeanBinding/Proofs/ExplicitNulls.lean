import BeanBinding.Proofs.Nullability
import BeanBinding.Proofs.Reordering

/-!
# What becomes of an explicit null

In an object, null stands under a name because somebody wrote it there. The property of that
name then gets null, through its setter, and if the setter refuses null the whole operation
fails. So no null is lost, with one exception that is meant: a property that cannot be read
has nothing to say in a list but a placeholder, which is null, and its settable property
passes placeholders over. It does so in objects as well.

To say that a null is stored *when it is its turn*, the run is cut in front of the entry and
behind it (`updateEntries_split`). What comes before and what comes behind are updates on
their own. A bean that is created is made first, so to speak, and updated by the entries that
are not for its constructor; with a constructor they wait until it has been called
(`Codec.Reads.updates_made`).
-/

namespace BeanBinding

variable {σ : Type}

/-- Null comes to a property: it is stored, or passed over where nothing can be read. -/
structure Property.TakesNull (p : Property σ) (bean next : Bean σ) : Prop where
  stored : p.isReadable = true → p.write none bean = .ok () next
  passedOver : p.isReadable = false → next = bean

theorem Settable.set_virtual_none_eq_ok_iff {p : Property σ} {bean next : Bean σ} :
    (virtual p).set none bean = .ok () next ↔ p.TakesNull bean next := by
  cases hr : p.isReadable with
  | true =>
    rw [set_virtual hr]
    constructor
    · intro h
      exact ⟨fun _ => h, fun hnot => absurd (hnot.symm.trans hr) Bool.false_ne_true⟩
    · intro h
      exact h.stored hr
  | false =>
    rw [set_virtual_none hr]
    constructor
    · intro h
      cases h
      exact ⟨fun hread => absurd (hr.symm.trans hread) Bool.false_ne_true, fun _ => rfl⟩
    · intro h
      rw [h.passedOver hr]
      rfl

theorem Property.TakesNull.type_eq {p : Property σ} (hp : p.Declared) {bean next : Bean σ}
    (h : p.TakesNull bean next) : next.type = bean.type :=
  Settable.keepsType_virtual hp.keepsType none bean next (Settable.set_virtual_none_eq_ok_iff.mpr h)

/-! ## Entries, one after the other -/

/-- Whether an entry has one of several names. -/
def Entry.isNamed (names : List String) (e : Entry) : Bool :=
  match e.key with
  | .ok name => name ∈ names
  | .error _ => false

/-- The entries that are not for arguments of the constructor. -/
def Introspection.unclaimed (i : Introspection σ) (es : List Entry) : List Entry :=
  es.filter fun e => !e.isNamed i.argumentNames

namespace Deserializer

variable {d : Deserializer σ} {r : Position} {ending : Option Fault} {bean left : Bean σ}

theorem updateEntries_eq_ok_iff {es : List Entry} :
    d.updateEntries r ending es bean = .ok () left ↔
      (forM es (d.handEntry d.updated r) : ChangeM ReadError σ Unit) bean = .ok () left ∧
        ending = none := by
  rw [updateEntries_eq_handed, handEntries, change_bind_eq_ok_iff]
  simp only [lift_eq_ok_iff, finish_eq_ok_iff]
  constructor
  · rintro ⟨_, next, hes, hending, rfl⟩
    exact ⟨hes, hending⟩
  · rintro ⟨hes, hending⟩
    exact ⟨(), left, hes, hending, rfl⟩

/-- An update can be cut in front of an entry and behind it. -/
theorem updateEntries_split {before after : List Entry} {e : Entry} :
    d.updateEntries r ending (before ++ e :: after) bean = .ok () left ↔
      ∃ reached next, d.updateEntries r none before bean = .ok () reached ∧
        d.handEntry d.updated r e reached = .ok () next ∧
        d.updateEntries r ending after next = .ok () left := by
  simp only [updateEntries_eq_ok_iff, List.forM_append, List.forM_cons, change_bind_eq_ok_iff]
  constructor
  · rintro ⟨⟨_, reached, hbefore, _, next, he, hafter⟩, hending⟩
    exact ⟨reached, next, ⟨hbefore, trivial⟩, he, hafter, hending⟩
  · rintro ⟨reached, next, ⟨hbefore, -⟩, he, hafter, hending⟩
    exact ⟨⟨(), reached, hbefore, (), next, he, hafter⟩, hending⟩

theorem Gathers.creator_eq_none_iff {i : Introspection σ} (h : d.Gathers i) {name : String} :
    d.creator name = none ↔ name ∉ i.argumentNames := by
  constructor
  · intro hnone hname
    obtain ⟨a, ha, rfl⟩ := List.mem_map.mp hname
    obtain ⟨k, hk⟩ := List.getElem?_of_mem ha
    rw [h.creator_eq_some hk] at hnone
    cases hnone
  · exact h.creator_eq_none

/-- An accepted entry that no creator claims is handed over as its value is set after waiting. -/
theorem handEntry_of_accepts {e : String × Json} (hc : d.creator e.1 = none)
    (he : d.Accepts r e) :
    d.handEntry d.updated r ⟨.ok e.1, .ok e.2⟩ = d.setAll (d.waits r e).toList := by
  unfold Accepts claimant at he
  rw [handEntry, lift_ok, pure_bind, updated, waits, hc]
  rw [hc] at he
  cases hp : d.property e.1 with
  | some s =>
    rw [hp] at he
    obtain ⟨⟨value, hvalue⟩, hwhole⟩ := he
    obtain ⟨hdecode, hcheck⟩ := decodeEntry_whole hvalue hwhole
    show d.hand s (decodeEntry s r (.ok e.2)) (checkEntryRest s r (.ok e.2)) = d.setAll [_]
    rw [hdecode, hcheck, setAll_singleton, hand, lift_ok, pure_bind, lift_ok]
    exact bind_pure_unit
  | none =>
    rw [hp] at he
    have hskip : d.skipUnknown e.1 (.ok e.2) = .ok () := he
    show lift (d.skipUnknown e.1 (.ok e.2)) = d.setAll []
    rw [hskip]
    rfl

/-- **Values that waited are set as an update sets them**, from the entries that no creator
claims. -/
theorem Gathers.setAll_waits {i : Introspection σ} (h : d.Gathers i) {es : List (String × Json)}
    (hes : ∀ e ∈ es, d.Accepts r e) :
    d.setAll (es.filterMap (d.waits r)) =
      forM (i.unclaimed (es.map fun e => ⟨.ok e.1, .ok e.2⟩)) (d.handEntry d.updated r) := by
  induction es with
  | nil => rfl
  | cons e es ih =>
    obtain ⟨he, hrest⟩ := List.forall_mem_cons.mp hes
    cases hc : d.creator e.1 with
    | some c =>
      have hname : e.1 ∈ i.argumentNames := by
        by_contra hnot
        rw [h.creator_eq_none_iff.mpr hnot] at hc
        cases hc
      have hwaits : d.waits r e = none := by
        rw [waits, hc]
      have hclaimed : i.unclaimed ((e :: es).map fun e => ⟨.ok e.1, .ok e.2⟩) =
          i.unclaimed (es.map fun e => ⟨.ok e.1, .ok e.2⟩) :=
        List.filter_cons_of_neg (by simp [Entry.isNamed, hname])
      rw [List.filterMap_cons_none hwaits, hclaimed, ih hrest]
    | none =>
      have hname : e.1 ∉ i.argumentNames := h.creator_eq_none_iff.mp hc
      have hunclaimed : i.unclaimed ((e :: es).map fun e => ⟨.ok e.1, .ok e.2⟩) =
          ⟨.ok e.1, .ok e.2⟩ :: i.unclaimed (es.map fun e => ⟨.ok e.1, .ok e.2⟩) :=
        List.filter_cons_of_pos (by simp [Entry.isNamed, hname])
      rw [hunclaimed, List.forM_cons, handEntry_of_accepts hc he, ← ih hrest,
        ← setAll_append, List.filterMap_cons]
      cases d.waits r e with
      | none => rfl
      | some x => rfl

end Deserializer

/-! ## Beans that are made and then updated -/

/-- A bean that an introspection makes, without arguments or with them. -/
def Introspection.Makes (i : Introspection σ) (made : Bean σ) : Prop :=
  i.instantiate = .ok made ∨ ∃ values, i.instantiateWith values = .ok made

theorem Introspection.Makes.type_eq {i : Introspection σ} {made : Bean σ} (h : i.Makes made) :
    made.type = i.type := by
  rcases h with h | ⟨values, h⟩
  · exact type_of_instantiate h
  · exact type_of_instantiateWith h

namespace Codec.Reads

open Deserializer

variable {c : Codec σ} {i : Introspection σ} {d : Deserializer σ} {r : Position}
  {ending : Option Fault} {bean next : Bean σ}

/-- A created bean is one that was made, and then updated by what was not for its constructor. -/
theorem updates_made (hd : c.Reads i d) (hshape : c.config.shape = .object) {es : List Entry}
    {back : Bean σ} (h : d.create ⟨r, .entries es ending⟩ = .ok back) :
    ∃ made, i.Makes made ∧ d.updateEntries r ending (i.unclaimed es) made = .ok () back := by
  rw [create_entries (hd.shape.trans hshape)] at h
  cases huses : d.usesCreators with
  | false =>
    rw [huses, if_neg Bool.false_ne_true] at h
    obtain ⟨made, hmade, hupdate⟩ := fill_eq_ok_iff.mp h
    have hmake : d.instantiator.make = .ok made := mapError_eq_ok_iff.mp hmade
    rw [hd.instantiator] at hmake
    have hnone : i.argumentNames = [] := by
      have hcreators := usesCreators_eq_false_iff.mp huses
      rw [hd.creators, List.map_eq_nil_iff] at hcreators
      rw [Introspection.argumentNames, hcreators, List.map_nil]
    have hall : i.unclaimed es = es := by
      refine List.filter_eq_self.mpr fun e _ => ?_
      rw [hnone]
      unfold Entry.isNamed
      split <;> simp
    rw [hall]
    exact ⟨made, .inl hmake, hupdate⟩
  | true =>
    rw [huses, if_pos rfl] at h
    obtain ⟨p, hcollect, hcomplete⟩ := bind_eq_ok_iff.mp h
    obtain ⟨rfl, hpairs⟩ := exists_pairs_of_collectEntries hcollect
    rw [← map_pairs hpairs] at hcollect ⊢
    obtain ⟨haccepts, rfl⟩ := collectEntries_eq_ok_iff.mp hcollect
    obtain ⟨-, made, hmade, hset⟩ := complete_eq_ok_iff.mp hcomplete
    rw [hd.instantiator] at hmade
    refine ⟨made, .inr ⟨_, hmade⟩, updateEntries_eq_ok_iff.mpr ⟨?_, rfl⟩⟩
    rw [← hd.makesBy.toGathers.setAll_waits haccepts]
    rw [foldl_keepEntry] at hset
    have hbuffered := buffered_foldl_claimed (d := d) (r := r) (es.filterMap pair?) d.pending
    rw [Pending.behind, hbuffered] at hset
    exact hset

/-- What is found under the external name of a property is the property. -/
theorem updated_eq (hd : c.Reads i d) {p : Property σ} (hp : p ∈ i.properties) :
    d.updated p.externalName = some (.virtual p) := by
  have hproperty : d.property p.externalName = some (.virtual p) := by
    refine hd.indexed.property_eq_some_iff.mpr ⟨?_, rfl⟩
    rw [hd.properties]
    exact List.mem_map_of_mem hp
  rw [updated, hproperty]
  rfl

/-- Null under the name of a property comes to the property. -/
theorem handEntry_null (hd : c.Reads i d) {p : Property σ} (hp : p ∈ i.properties) :
    d.handEntry d.updated r ⟨.ok p.externalName, .ok .null⟩ bean = .ok () next ↔
      p.TakesNull bean next := by
  have hrest : checkEntryRest (.virtual p : Settable σ) r (.ok .null) = .ok () := by
    rw [checkEntryRest, checkRest]
    exact if_neg (by rw [show (Settable.virtual p).decoder.leavesRest r.mode .null = false from
      p.valueType.schema.leavesRest_null r.mode]; exact Bool.false_ne_true)
  rw [← Settable.set_virtual_none_eq_ok_iff, handEntry, lift_ok, pure_bind, hd.updated_eq hp]
  show d.hand (.virtual p) (.ok none) (checkEntryRest (.virtual p) r (.ok .null)) bean = _ ↔ _
  rw [hrest, hand, lift_ok, pure_bind, lift_ok, bind_pure_unit, set_eq_ok_iff]

/-- No update changes the type of a bean, since no declared property does. -/
theorem type_of_updateEntries (hd : c.Reads i d) (hi : ∀ p ∈ i.properties, p.Declared)
    {es : List Entry} (h : d.updateEntries r ending es bean = .ok () next) :
    next.type = bean.type := by
  rw [updateEntries_eq_handed] at h
  refine type_of_entries (fun name s hs => ?_) h
  rcases mem_of_updated hs with hs | hs
  · rw [hd.properties] at hs
    obtain ⟨p, hp, rfl⟩ := List.mem_map.mp hs
    exact Settable.keepsType_virtual (hi p hp).keepsType
  · rw [hd.creators] at hs
    obtain ⟨a, -, rfl⟩ := List.mem_map.mp hs
    exact Settable.keepsType_creator (fun p hp => (hi p hp).keepsType) a

end Codec.Reads

/-- An update of a bean of an introspected type is the work of the deserializer for the type. -/
theorem Codec.Introspects.update_entries_eq_ok_iff {c : Codec σ} {registry : Registry σ}
    {i : Introspection σ} (hc : c.Introspects registry i) (hi : i.WellFormed)
    (hshape : c.config.shape = .object) {r : Position} {es : List Entry} {ending : Option Fault}
    {bean left : Bean σ} (hb : bean.type = i.type) :
    (c.update bean ⟨r, .entries es ending⟩ (.ofRegistry registry)).result = .ok () left ↔
      ∃ d, (c.introspectedProperties i).build = .ok d ∧
        d.updateEntries r ending es bean = .ok () left := by
  rw [Codec.result_update, hb, hc.buildDeserializer]
  cases hd : (c.introspectedProperties i).build with
  | error e =>
    constructor
    · intro h
      cases h
    · rintro ⟨d, h, -⟩
      cases h
  | ok d =>
    have hreads := Codec.reads_of_build hi hd
    dsimp only
    rw [Deserializer.update_entries_eq_ok_iff, hreads.bean, hreads.shape, hshape]
    constructor
    · rintro ⟨-, -, h⟩
      exact ⟨d, rfl, h⟩
    · rintro ⟨d', hd', h⟩
      cases hd'
      exact ⟨hb, rfl, h⟩

/-- An entry that is null and bears the name of a property cuts an update in two. -/
theorem Codec.Introspects.updateEntries_null {c : Codec σ} {registry : Registry σ}
    {i : Introspection σ} (hc : c.Introspects registry i) (hi : i.WellFormed)
    (hproperties : ∀ p ∈ i.properties, p.Declared) (hshape : c.config.shape = .object)
    {p : Property σ} (hp : p ∈ i.properties) {d : Deserializer σ}
    (hd : (c.introspectedProperties i).build = .ok d) {r : Position} {before after : List Entry}
    {ending : Option Fault} {bean left : Bean σ} (hb : bean.type = i.type) :
    d.updateEntries r ending (before ++ ⟨.ok p.externalName, .ok .null⟩ :: after) bean =
        .ok () left ↔
      ∃ reached next,
        (c.update bean ⟨r, .entries before none⟩ (.ofRegistry registry)).result =
          .ok () reached ∧
        p.TakesNull reached next ∧
        (c.update next ⟨r, .entries after ending⟩ (.ofRegistry registry)).result =
          .ok () left := by
  have hreads := Codec.reads_of_build hi hd
  rw [Deserializer.updateEntries_split]
  simp only [hreads.handEntry_null hp]
  -- at every step the bean is of the type, so the deserializer is the same
  have hnext : ∀ {reached next}, d.updateEntries r none before bean = .ok () reached →
      p.TakesNull reached next → next.type = i.type := by
    intro reached next hbefore hnull
    have hreached := hreads.type_of_updateEntries hproperties hbefore
    exact (hnull.type_eq (hproperties p hp)).trans (hreached.trans hb)
  constructor
  · rintro ⟨reached, next, hbefore, hnull, hafter⟩
    exact ⟨reached, next,
      (hc.update_entries_eq_ok_iff hi hshape hb).mpr ⟨d, hd, hbefore⟩, hnull,
      (hc.update_entries_eq_ok_iff hi hshape (hnext hbefore hnull)).mpr ⟨d, hd, hafter⟩⟩
  · rintro ⟨reached, next, hbefore, hnull, hafter⟩
    obtain ⟨d', hd', hbefore⟩ := (hc.update_entries_eq_ok_iff hi hshape hb).mp hbefore
    cases hd.symm.trans hd'
    obtain ⟨d', hd', hafter⟩ :=
      (hc.update_entries_eq_ok_iff hi hshape (hnext hbefore hnull)).mp hafter
    cases hd.symm.trans hd'
    exact ⟨reached, next, hbefore, hnull, hafter⟩

theorem Introspection.unclaimed_split {i : Introspection σ} {name : String}
    (hname : name ∉ i.argumentNames) (value : Except Fault Json) (before after : List Entry) :
    i.unclaimed (before ++ ⟨.ok name, value⟩ :: after) =
      i.unclaimed before ++ ⟨.ok name, value⟩ :: i.unclaimed after := by
  rw [unclaimed, List.filter_append, List.filter_cons_of_pos (by simp [Entry.isNamed, hname])]
  rfl

/--
**An explicit null is stored, or the operation fails, or the property cannot be read.**

Let beans be known by their introspection only, and written as objects. Take an entry of a
document that is null and bears the name of a property, and of no argument of the
constructor. An update succeeds exactly if it does up to the entry, the property then takes
the null, and the update goes on from there. A bean that is created is one that was made, and
then updated in the same way by the entries that are not for its constructor. To take the
null is to store it through the setter, which may fail; only a property that cannot be read
takes it for the placeholder that stands for it in lists, and stays as it is.
-/
theorem explicit_nulls_stored {c : Codec σ} {registry : Registry σ} {i : Introspection σ}
    (hc : c.Introspects registry i) (hi : i.Declared) (hproperties : ∀ p ∈ i.properties, p.Declared)
    (hshape : c.config.shape = .object) {p : Property σ} (hp : p ∈ i.properties)
    (hname : p.externalName ∉ i.argumentNames) (r : Position) (before after : List Entry)
    (ending : Option Fault) :
    let st := .ofRegistry registry
    let es := before ++ ⟨.ok p.externalName, .ok .null⟩ :: after
    (∀ bean left, bean.type = i.type →
      ((c.update bean ⟨r, .entries es ending⟩ st).result = .ok () left ↔ ∃ reached next,
        (c.update bean ⟨r, .entries before none⟩ st).result = .ok () reached ∧
        p.TakesNull reached next ∧
        (c.update next ⟨r, .entries after ending⟩ st).result = .ok () left)) ∧
    ∀ back, (c.read i.type ⟨r, .entries es ending⟩ st).result = .ok back →
      ∃ made reached next, i.Makes made ∧
        (c.update made ⟨r, .entries (i.unclaimed before) none⟩ st).result = .ok () reached ∧
        p.TakesNull reached next ∧
        (c.update next ⟨r, .entries (i.unclaimed after) ending⟩ st).result = .ok () back := by
  intro st es
  have hwell := hi.wellFormed
  constructor
  · intro bean left hb
    constructor
    · intro h
      obtain ⟨d, hd, hupdate⟩ := (hc.update_entries_eq_ok_iff hwell hshape hb).mp h
      exact (hc.updateEntries_null hwell hproperties hshape hp hd hb).mp hupdate
    · rintro ⟨reached, next, hbefore, hrest⟩
      obtain ⟨d, hd, -⟩ := (hc.update_entries_eq_ok_iff hwell hshape hb).mp hbefore
      exact (hc.update_entries_eq_ok_iff hwell hshape hb).mpr ⟨d, hd,
        (hc.updateEntries_null hwell hproperties hshape hp hd hb).mpr
          ⟨reached, next, hbefore, hrest⟩⟩
  · intro back hread
    have hresult := (c.result_read registry i.type ⟨r, .entries es ending⟩ []).symm.trans hread
    rw [hc.buildDeserializer] at hresult
    cases hd : (c.introspectedProperties i).build with
    | error e =>
      rw [hd] at hresult
      cases hresult
    | ok d =>
      rw [hd] at hresult
      obtain ⟨created, hcreate, htype⟩ := bind_eq_ok_iff.mp hresult
      obtain ⟨-, rfl⟩ := Codec.ofType_eq_ok_iff.mp htype
      obtain ⟨made, hmade, hupdate⟩ := (Codec.reads_of_build hwell hd).updates_made hshape hcreate
      rw [Introspection.unclaimed_split hname] at hupdate
      obtain ⟨reached, next, hrest⟩ := (hc.updateEntries_null hwell hproperties hshape hp hd
        hmade.type_eq).mp hupdate
      exact ⟨made, reached, next, hmade, hrest⟩

/-! ### Mottos that can be forgotten -/

namespace Motto

/-- The introspection of mottos with a property that calls declare; new ones say "new". -/
def introspection (calls : List (Property.Call (Option Tree))) : Introspection (Option Tree) :=
  ((Introspection.declare type).withProperty (declaredBy calls)).withFresh (of (some "new")).state

/-- A codec that knows mottos by their introspection only. -/
def codec : Codec (Option Tree) := .setup .default [] [introspectionModule]

theorem introspection_declared (calls : List (Property.Call (Option Tree))) :
    (introspection calls).Declared :=
  ((Introspection.Declared.declare type).withProperty _).withFresh _

theorem codec_introspects (calls : List (Property.Call (Option Tree))) :
    codec.Introspects ⟨[introspection calls]⟩ (introspection calls) :=
  Codec.introspects_setup rfl (by simp) (by simp [Registry.find])

/-- A document that says null for the text. -/
def nothing : Document := .ofEntries (.start .streamed) [("text", .null)]

end Motto

/-- A motto that can be read is forgotten, and a new one comes without any text. -/
theorem explicit_null_forgotten :
    let i := Motto.introspection [Motto.read, Motto.write]
    let st := .ofRegistry ⟨[i]⟩
    (Motto.codec.update (Motto.of (some "old")) Motto.nothing st).result =
        .ok () (Motto.of none) ∧
      (Motto.codec.read Motto.type Motto.nothing st).result = .ok (Motto.of none) ∧
      ∃ made reached next, i.Makes made ∧
        (Motto.declaredBy [Motto.read, Motto.write]).write none reached = .ok () next := by
  intro i st
  have hproperties : ∀ p ∈ i.properties, p.Declared := by
    intro p hp
    cases List.mem_singleton.mp hp
    exact Property.declared_declaredBy _ _ _ _
  obtain ⟨hupdate, hcreate⟩ := explicit_nulls_stored
    (Motto.codec_introspects [Motto.read, Motto.write]) (Motto.introspection_declared _)
    hproperties rfl (List.mem_singleton.mpr rfl) List.not_mem_nil (.start .streamed) [] [] none
  have hread : (Motto.codec.read Motto.type Motto.nothing st).result = .ok (Motto.of none) := rfl
  refine ⟨(hupdate (Motto.of (some "old")) (Motto.of none) rfl).mpr ?_, hread, ?_⟩
  · exact ⟨Motto.of (some "old"), Motto.of none, rfl, ⟨fun _ => rfl, fun h => by cases h⟩, rfl⟩
  · obtain ⟨made, reached, next, hmade, -, hnull, -⟩ := hcreate (Motto.of none) hread
    exact ⟨made, reached, next, hmade, hnull.stored rfl⟩

/-- The setter of a property that cannot be read stores null, but no null ever gets there. -/
theorem write_only_null_passed_over :
    let p := Motto.declaredBy [Motto.write]
    let i := Motto.introspection [Motto.write]
    let st := .ofRegistry ⟨[i]⟩
    Motto.codec.Introspects ⟨[i]⟩ i ∧ Motto.codec.config.shape = .object ∧
      p ∈ i.properties ∧ p.externalName = "text" ∧ i.argumentNames = [] ∧
      p.write none (Motto.of (some "old")) = .ok () (Motto.of none) ∧
      (Motto.codec.update (Motto.of (some "old")) Motto.nothing st).result =
        .ok () (Motto.of (some "old")) ∧
      (Motto.codec.read Motto.type Motto.nothing st).result = .ok (Motto.of (some "new")) :=
  ⟨Motto.codec_introspects _, rfl, List.mem_singleton.mpr rfl, rfl, rfl, rfl, rfl, rfl⟩

end BeanBinding
