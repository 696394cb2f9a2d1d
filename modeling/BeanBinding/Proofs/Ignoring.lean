import BeanBinding.Proofs.Making

/-!
# Entries of unknown names

An entry whose name no property and no creator has is for nobody. Whether such entries are
allowed is one setting of a deserializer, and nothing else depends on it.

If they are allowed, the document might as well not have them. That they are passed over is
a step that does nothing, in an update as while values are collected, so these steps can be
left out wherever they stand; what is set before and after them, and where it fails, stays
the same. If they are not allowed, a document that has one gives no bean, and one that has
none is read without the setting being looked at.
-/

namespace BeanBinding

variable {σ : Type}

/-! ## Values that can be passed over -/

/-- A JSON value that is complete, with all that it contains. -/
inductive Json.WellFormed : Json → Prop where
  | null : WellFormed .null
  | bool (b : Bool) : WellFormed (.bool b)
  | number (n : Json.Number) : WellFormed (.number n)
  | string (text : String) : WellFormed (.string text)
  | list {items : List Json} (h : ∀ j ∈ items, WellFormed j) : WellFormed (.list items)
  | record {entries : List (String × Json)} (h : ∀ e ∈ entries, WellFormed e.2) :
      WellFormed (.record entries)

/-- Nothing is met where items are skipped if nothing is met in any of them. -/
theorem Json.skipItems_eq_none {items : List Json} (h : ∀ j ∈ items, j.skipFault = none) :
    skipItems items none = none := by
  induction items with
  | nil => rw [skipItems]
  | cons j items ih =>
    rw [skipItems, h j List.mem_cons_self, ih fun j' hj' => h j' (List.mem_cons_of_mem j hj')]
    rfl

theorem Json.skipEntries_eq_none {entries : List (String × Json)}
    (h : ∀ e ∈ entries, e.2.skipFault = none) :
    skipEntries (entries.map fun e => (.name e.1, e.2)) none = none := by
  induction entries with
  | nil => rw [List.map_nil, skipEntries]
  | cons e entries ih =>
    rw [List.map_cons, skipEntries, h e List.mem_cons_self,
      ih fun e' he' => h e' (List.mem_cons_of_mem e he')]
    rfl

/-- **A complete value is skipped without a fault.** -/
theorem Json.WellFormed.skipFault_eq_none {j : Json} (h : j.WellFormed) : j.skipFault = none := by
  induction h with
  | null | bool | number | string => simp [skipFault]
  | list _ ih =>
    rw [Json.list, skipFault]
    exact skipItems_eq_none ih
  | record _ ih =>
    rw [Json.record, skipFault]
    exact skipEntries_eq_none ih

/-- The value of an entry can be passed over. -/
def Entry.Passable (e : Entry) : Prop := ∃ j, e.value = .ok j ∧ j.skipFault = none

theorem Entry.passable_of_wellFormed {e : Entry} {j : Json} (he : e.value = .ok j)
    (h : j.WellFormed) : e.Passable :=
  ⟨j, he, h.skipFault_eq_none⟩

namespace Deserializer

/-! ## Known and unknown names -/

/-- Whether a property or a creator has the name. -/
def knows (d : Deserializer σ) (name : String) : Bool :=
  d.properties.any (·.name == name) || d.creators.any (·.name == name)

/-- Whether an entry has a known name; one whose name cannot be read is not unknown. -/
def concerns (d : Deserializer σ) (e : Entry) : Bool :=
  match e.key with
  | .ok name => d.knows name
  | .error _ => true

/-- The deserializer with unknown names refused, or allowed. -/
def withFailOnUnknown (d : Deserializer σ) (fail : Bool) : Deserializer σ :=
  { d with failOnUnknown := fail }

variable {d : Deserializer σ} {r : Position} {ending : Option Fault} {e : Entry} {fail : Bool}

theorem updated_withFailOnUnknown : (d.withFailOnUnknown fail).updated = d.updated := rfl

/-- Nothing is found under an unknown name. -/
theorem Indexed.knows_eq_false_iff (h : d.Indexed) {name : String} :
    d.knows name = false ↔ d.property name = none ∧ d.creator name = none := by
  rw [h.property_eq_none_iff, h.creator_eq_none_iff]
  simp [knows]

theorem Indexed.updated_eq_none_iff (h : d.Indexed) {name : String} :
    d.updated name = none ↔ d.knows name = false := by
  rw [h.knows_eq_false_iff, updated]
  cases d.property name with
  | some s => simp
  | none => simp

/-- An entry that concerns nobody has a name, which is not known. -/
theorem concerns_eq_false_iff :
    d.concerns e = false ↔ ∃ name, e.key = .ok name ∧ d.knows name = false := by
  unfold concerns
  cases e.key with
  | ok name => simp
  | error x => simp

theorem skipUnknown_strict (name : String) (value : Except Fault Json) :
    (d.withFailOnUnknown true).skipUnknown name value =
      .error (.codec (.unknownProperty d.bean.name name)) := rfl

theorem skipUnknown_lenient (h : e.Passable) (name : String) :
    (d.withFailOnUnknown false).skipUnknown name e.value = .ok () := by
  obtain ⟨j, hvalue, hskip⟩ := h
  simp [skipUnknown, withFailOnUnknown, hvalue, hskip]

/-! ## Updating -/

/-- Allowed, an unknown entry changes nothing. -/
theorem handEntry_lenient (h : d.Indexed) (he : d.concerns e = false) (hpass : e.Passable) :
    (d.withFailOnUnknown false).handEntry d.updated r e = pure () := by
  obtain ⟨name, hkey, hknown⟩ := concerns_eq_false_iff.mp he
  rw [handEntry, hkey, lift_ok, pure_bind, h.updated_eq_none_iff.mpr hknown]
  dsimp only
  rw [skipUnknown_lenient hpass, lift_ok]

/-- Not allowed, an unknown entry is an error. -/
theorem handEntry_strict (h : d.Indexed) (he : d.concerns e = false) {bean next : Bean σ} :
    (d.withFailOnUnknown true).handEntry d.updated r e bean ≠ .ok () next := by
  obtain ⟨name, hkey, hknown⟩ := concerns_eq_false_iff.mp he
  rw [handEntry, hkey, lift_ok, pure_bind, h.updated_eq_none_iff.mpr hknown]
  simp [skipUnknown_strict, lift]

/-- For any other entry the setting does not matter. -/
theorem handEntry_withFailOnUnknown (h : d.Indexed) (he : d.concerns e = true) :
    (d.withFailOnUnknown fail).handEntry d.updated r e = d.handEntry d.updated r e := by
  unfold handEntry
  cases hkey : e.key with
  | error x => rfl
  | ok name =>
    rw [lift_ok, pure_bind, pure_bind]
    cases hs : d.updated name with
    | some s => rfl
    | none =>
      rw [concerns, hkey] at he
      exact absurd (h.updated_eq_none_iff.mp hs) (by simp [he])

theorem updateEntries_lenient (h : d.Indexed) {es : List Entry}
    (hpass : ∀ e ∈ es, d.concerns e = false → e.Passable) :
    (d.withFailOnUnknown false).updateEntries r ending es =
      (d.withFailOnUnknown false).updateEntries r ending (es.filter d.concerns) := by
  rw [updateEntries_eq_handed, updateEntries_eq_handed, handEntries, handEntries,
    updated_withFailOnUnknown]
  have hrow : (forM (es.filter d.concerns)
      ((d.withFailOnUnknown false).handEntry d.updated r) : ChangeM ReadError σ Unit) = _ :=
    forM_filter fun e he hunknown => handEntry_lenient h hunknown (hpass e he hunknown)
  rw [hrow]

theorem concerns_of_updateEntries_strict (h : d.Indexed) {es : List Entry} {bean left : Bean σ}
    (hrun : (d.withFailOnUnknown true).updateEntries r ending es bean = .ok () left) :
    ∀ e ∈ es, d.concerns e = true := by
  intro e he
  rw [updateEntries_eq_handed, handEntries, change_bind_eq_ok_iff] at hrun
  obtain ⟨_, _, hentries, -⟩ := hrun
  obtain ⟨reached, next, hstep⟩ := exists_ok_of_forM hentries he
  cases hconcerns : d.concerns e with
  | true => rfl
  | false => exact absurd hstep (handEntry_strict h hconcerns)

theorem updateEntries_withFailOnUnknown (h : d.Indexed) {es : List Entry}
    (hes : ∀ e ∈ es, d.concerns e = true) :
    (d.withFailOnUnknown fail).updateEntries r ending es = d.updateEntries r ending es := by
  funext bean
  rw [updateEntries_eq_handed, updateEntries_eq_handed, handEntries, handEntries]
  refine change_bind_congr (forM_congr_on (fun _ => True) (fun e he bean _ => ?_)
    (fun _ _ _ _ _ _ => trivial) trivial)
  exact congrFun (handEntry_withFailOnUnknown h (hes e he)) bean

/-! ## Collecting -/

theorem collectEntry_lenient (h : d.Indexed) (he : d.concerns e = false) (hpass : e.Passable)
    (p : Pending σ) : (d.withFailOnUnknown false).collectEntry r e p = .ok p := by
  obtain ⟨name, hkey, hknown⟩ := concerns_eq_false_iff.mp he
  obtain ⟨hproperty, hcreator⟩ := h.knows_eq_false_iff.mp hknown
  have hp : (d.withFailOnUnknown false).property name = none := hproperty
  have hc : (d.withFailOnUnknown false).creator name = none := hcreator
  simp only [collectEntry, hkey, bind, Except.bind, hp, hc, skipUnknown_lenient hpass]
  rfl

theorem collectEntry_strict (h : d.Indexed) (he : d.concerns e = false) {p q : Pending σ} :
    (d.withFailOnUnknown true).collectEntry r e p ≠ .ok q := by
  obtain ⟨name, hkey, hknown⟩ := concerns_eq_false_iff.mp he
  obtain ⟨hproperty, hcreator⟩ := h.knows_eq_false_iff.mp hknown
  have hp : (d.withFailOnUnknown true).property name = none := hproperty
  have hc : (d.withFailOnUnknown true).creator name = none := hcreator
  simp [collectEntry, hkey, bind, Except.bind, hp, hc, skipUnknown_strict]

theorem collectEntry_withFailOnUnknown (h : d.Indexed) (he : d.concerns e = true)
    (p : Pending σ) : (d.withFailOnUnknown fail).collectEntry r e p = d.collectEntry r e p := by
  unfold collectEntry
  cases hkey : e.key with
  | error x => rfl
  | ok name =>
    rw [concerns, hkey] at he
    have hproperty : (d.withFailOnUnknown fail).property name = d.property name := rfl
    have hcreator : (d.withFailOnUnknown fail).creator name = d.creator name := rfl
    simp only [bind, Except.bind, hproperty, hcreator]
    cases hc : d.creator name with
    | some c => rfl
    | none =>
      cases hp : d.property name with
      | some s => rfl
      | none => exact absurd (h.knows_eq_false_iff.mpr ⟨hp, hc⟩) (by simp [he])

theorem collectEntries_lenient (h : d.Indexed) {es : List Entry}
    (hpass : ∀ e ∈ es, d.concerns e = false → e.Passable) (p : Pending σ) :
    (d.withFailOnUnknown false).collectEntries r ending es p =
      (d.withFailOnUnknown false).collectEntries r ending (es.filter d.concerns) p := by
  induction es generalizing p with
  | nil => rfl
  | cons e es ih =>
    have hrest := ih fun e' he' => hpass e' (List.mem_cons_of_mem e he')
    cases hconcerns : d.concerns e with
    | true =>
      rw [List.filter_cons_of_pos hconcerns, collectEntries_eq_bind, collectEntries_eq_bind]
      congr 1
      funext q
      exact hrest q
    | false =>
      rw [List.filter_cons_of_neg (by simp [hconcerns]), collectEntries_eq_bind,
        collectEntry_lenient h hconcerns (hpass e List.mem_cons_self hconcerns)]
      exact hrest p

theorem concerns_of_collectEntries_strict (h : d.Indexed) {es : List Entry} {p q : Pending σ}
    (hrun : (d.withFailOnUnknown true).collectEntries r ending es p = .ok q) :
    ∀ e ∈ es, d.concerns e = true := by
  induction es generalizing p with
  | nil =>
    intro e he
    cases he
  | cons e es ih =>
    rw [collectEntries_eq_bind] at hrun
    obtain ⟨next, hnext, hrest⟩ := bind_eq_ok_iff.mp hrun
    refine List.forall_mem_cons.mpr ⟨?_, ih hrest⟩
    cases hconcerns : d.concerns e with
    | true => rfl
    | false => exact absurd hnext (collectEntry_strict h hconcerns)

theorem collectEntries_withFailOnUnknown (h : d.Indexed) {es : List Entry}
    (hes : ∀ e ∈ es, d.concerns e = true) (p : Pending σ) :
    (d.withFailOnUnknown fail).collectEntries r ending es p = d.collectEntries r ending es p := by
  induction es generalizing p with
  | nil => rfl
  | cons e es ih =>
    obtain ⟨he, hes⟩ := List.forall_mem_cons.mp hes
    rw [collectEntries_eq_bind, collectEntries_eq_bind, collectEntry_withFailOnUnknown h he]
    congr 1
    funext q
    exact ih hes q

/-! ## Whole documents -/

/-- Entries that update alike make documents that update alike. -/
theorem update_withFailOnUnknown {es es' : List Entry}
    (h : (d.withFailOnUnknown fail).updateEntries r ending es = d.updateEntries r ending es') :
    (d.withFailOnUnknown fail).update ⟨r, .entries es ending⟩ =
      d.update ⟨r, .entries es' ending⟩ := by
  funext bean
  by_cases hb : bean.type = d.bean
  · have hb' : bean.type = (d.withFailOnUnknown fail).bean := hb
    have hshape : (d.withFailOnUnknown fail).shape = d.shape := rfl
    rw [update_typed hb, update_typed hb', hshape]
    cases d.shape with
    | object => exact congrFun h bean
    | array => rfl
  · have hb' : bean.type ≠ (d.withFailOnUnknown fail).bean := hb
    rw [update_of_other_type hb, update_of_other_type hb']
    rfl

/-- Entries that update alike and are collected alike make documents that give the same. -/
theorem create_withFailOnUnknown {es es' : List Entry}
    (hupdate : (d.withFailOnUnknown fail).updateEntries r ending es =
      d.updateEntries r ending es')
    (hcollect : (d.withFailOnUnknown fail).collectEntries r ending es d.pending =
      d.collectEntries r ending es' d.pending) :
    (d.withFailOnUnknown fail).create ⟨r, .entries es ending⟩ =
      d.create ⟨r, .entries es' ending⟩ := by
  cases hshape : d.shape with
  | object =>
    have hshape' : (d.withFailOnUnknown fail).shape = .object := hshape
    have hpending : (d.withFailOnUnknown fail).pending = d.pending := rfl
    have huses : (d.withFailOnUnknown fail).usesCreators = d.usesCreators := rfl
    have hcomplete : (d.withFailOnUnknown fail).complete = d.complete :=
      complete_congr rfl rfl rfl rfl
    rw [create_entries hshape, create_entries hshape', hpending, huses, hcollect, hupdate,
      hcomplete]
    rfl
  | array =>
    have hshape' : (d.withFailOnUnknown fail).shape = .array := hshape
    rw [create_entries_of_array hshape, create_entries_of_array hshape']
    rfl

/-- **Allowed, unknown entries are invisible.** -/
theorem reads_lenient (h : d.Indexed) {es : List Entry}
    (hpass : ∀ e ∈ es, d.concerns e = false → e.Passable) :
    (d.withFailOnUnknown false).update ⟨r, .entries es ending⟩ =
        (d.withFailOnUnknown false).update ⟨r, .entries (es.filter d.concerns) ending⟩ ∧
      (d.withFailOnUnknown false).create ⟨r, .entries es ending⟩ =
        (d.withFailOnUnknown false).create ⟨r, .entries (es.filter d.concerns) ending⟩ := by
  -- allowing them twice is allowing them
  have hupdate : ((d.withFailOnUnknown false).withFailOnUnknown false).updateEntries r ending es =
      (d.withFailOnUnknown false).updateEntries r ending (es.filter d.concerns) :=
    updateEntries_lenient h hpass
  have hcollect : ((d.withFailOnUnknown false).withFailOnUnknown false).collectEntries r ending es
      d.pending =
        (d.withFailOnUnknown false).collectEntries r ending (es.filter d.concerns) d.pending :=
    collectEntries_lenient h hpass _
  exact ⟨update_withFailOnUnknown hupdate, create_withFailOnUnknown hupdate hcollect⟩

/-- **Where no name is unknown, the setting does not matter.** -/
theorem reads_withFailOnUnknown (h : d.Indexed) {es : List Entry}
    (hes : ∀ e ∈ es, d.concerns e = true) :
    (d.withFailOnUnknown fail).update ⟨r, .entries es ending⟩ =
        d.update ⟨r, .entries es ending⟩ ∧
      (d.withFailOnUnknown fail).create ⟨r, .entries es ending⟩ =
        d.create ⟨r, .entries es ending⟩ :=
  ⟨update_withFailOnUnknown (updateEntries_withFailOnUnknown h hes),
    create_withFailOnUnknown (updateEntries_withFailOnUnknown h hes)
      (collectEntries_withFailOnUnknown h hes _)⟩

/-- **Not allowed, an unknown entry is fatal.** -/
theorem concerns_of_read_strict (h : d.Indexed) {es : List Entry}
    (hread : (∃ bean left, (d.withFailOnUnknown true).update ⟨r, .entries es ending⟩ bean =
        .ok () left) ∨
      ∃ bean, (d.withFailOnUnknown true).create ⟨r, .entries es ending⟩ = .ok bean) :
    ∀ e ∈ es, d.concerns e = true := by
  rcases hread with ⟨bean, left, hupdate⟩ | ⟨bean, hcreate⟩
  · obtain ⟨-, -, hentries⟩ := update_entries_eq_ok_iff.mp hupdate
    exact concerns_of_updateEntries_strict h hentries
  · cases hshape : (d.withFailOnUnknown true).shape with
    | array =>
      rw [create_entries_of_array hshape] at hcreate
      cases hcreate
    | object =>
      rw [create_entries hshape] at hcreate
      split at hcreate
      · obtain ⟨p, hcollect, -⟩ := bind_eq_ok_iff.mp hcreate
        exact concerns_of_collectEntries_strict h hcollect
      · obtain ⟨made, -, hentries⟩ := fill_eq_ok_iff.mp hcreate
        exact concerns_of_updateEntries_strict h hentries

end Deserializer

/-- A draft builds the same whether unknown names are refused or not. -/
theorem DeserializerDraft.build_failOnUnknown (draft : DeserializerDraft σ) (fail : Bool) :
    ({ draft with failOnUnknown := fail } : DeserializerDraft σ).build =
      draft.build.map (·.withFailOnUnknown fail) := by
  have hcreators : ({ draft with failOnUnknown := fail } : DeserializerDraft σ).creators =
      draft.creators := rfl
  unfold build
  rw [hcreators]
  cases draft.instantiator.makesBeans with
  | false => rfl
  | true =>
    dsimp only
    cases indexNames (draft.properties.map (·.name)) 0 [] with
    | error name => rfl
    | ok propertyIndex =>
      dsimp only
      cases indexCreators draft.creators.length draft.creators 0 [] [] with
      | error p => rfl
      | ok indexed => rfl

/--
**Unknown entries are invisible where they are allowed, and fatal where they are not.**

Of a built deserializer there are two versions, one that allows unknown names and one that
refuses them, and the same draft builds both. Let a document have entries, of which those
that are neither for a property nor for a creator have complete values.

The first version creates from the document, and updates with it, what it would without
these entries: the same bean or the same error, and after a failed update the same bean is
left. The second one succeeds only if the document has no such entry. If it has none, both
versions do the same with it.
-/
theorem unknown_entries_invisible_or_fatal (draft : DeserializerDraft σ) {d : Deserializer σ}
    (hd : draft.build = .ok d) (r : Position) (ending : Option Fault) (es : List Entry) :
    let lenient := d.withFailOnUnknown false
    let strict := d.withFailOnUnknown true
    let document : Document := ⟨r, .entries es ending⟩
    let known : Document := ⟨r, .entries (es.filter d.concerns) ending⟩
    ({ draft with failOnUnknown := false } : DeserializerDraft σ).build = .ok lenient ∧
    ({ draft with failOnUnknown := true } : DeserializerDraft σ).build = .ok strict ∧
    ((∀ e ∈ es, d.concerns e = false → e.Passable) →
      lenient.update document = lenient.update known ∧
        lenient.create document = lenient.create known) ∧
    ((∃ bean left, strict.update document bean = .ok () left) ∨
      (∃ bean, strict.create document = .ok bean) → ∀ e ∈ es, d.concerns e = true) ∧
    ((∀ e ∈ es, d.concerns e = true) →
      strict.update document = lenient.update document ∧
        strict.create document = lenient.create document) := by
  intro lenient strict document known
  obtain ⟨-, hindexed⟩ := DeserializerDraft.indexed_of_build hd
  have hbuild : ∀ fail, ({ draft with failOnUnknown := fail } : DeserializerDraft σ).build =
      .ok (d.withFailOnUnknown fail) := by
    intro fail
    rw [draft.build_failOnUnknown fail, hd]
    rfl
  refine ⟨hbuild false, hbuild true, Deserializer.reads_lenient hindexed,
    Deserializer.concerns_of_read_strict hindexed, fun hes => ?_⟩
  -- both versions do what the deserializer itself does
  have hsame : ∀ fail, (d.withFailOnUnknown fail).update document = d.update document ∧
      (d.withFailOnUnknown fail).create document = d.create document :=
    fun fail => Deserializer.reads_withFailOnUnknown hindexed hes
  exact ⟨(hsame true).1.trans (hsame false).1.symm, (hsame true).2.trans (hsame false).2.symm⟩

/-! ### A pair with a third side -/

namespace Pair

/-- A draft for pairs that are made from their left side. -/
def madeDraft : DeserializerDraft (Tree × Tree) :=
  ⟨type, .object, true, [.virtual rightProperty], .ofIntrospection (made leftProperty)⟩

/-- A pair, with an entry between its sides. -/
def withBetween : List (String × Json) :=
  [("left", .number (.ofInt 1)),
    ("between", .record [("deep", .list [.number (.ofInt 3)])]),
    ("right", .number (.ofInt 2))]

/-- The entry between the sides is complete. -/
theorem between_wellFormed :
    (Json.record [("deep", .list [.number (.ofInt 3)])]).WellFormed := by
  refine .record fun e he => ?_
  cases List.mem_singleton.mp he
  refine .list fun j hj => ?_
  cases List.mem_singleton.mp hj
  exact .number _

end Pair

/-- What stands between the sides of a pair is passed over, or ends the reading. -/
theorem pair_with_between :
    let document := Document.ofEntries (.start .streamed) Pair.withBetween
    ∃ d, Pair.madeDraft.build = .ok d ∧
      (d.withFailOnUnknown false).create document = .ok (Pair.of 1 2) ∧
      ∀ bean, (d.withFailOnUnknown true).create document ≠ .ok bean := by
  intro document
  obtain ⟨d, hd⟩ : ∃ d, Pair.madeDraft.build = .ok d := ⟨_, rfl⟩
  obtain ⟨-, -, hlenient, hstrict, -⟩ := unknown_entries_invisible_or_fatal Pair.madeDraft hd
    (.start .streamed) none (Pair.withBetween.map fun e => ⟨.ok e.1, .ok e.2⟩)
  refine ⟨d, hd, (hlenient ?_).2.trans ?_, fun bean hbean => ?_⟩
  · intro e he hunknown
    obtain ⟨⟨name, j⟩, hmem, rfl⟩ := List.mem_map.mp he
    -- both sides are known, so it is the entry between them
    rcases List.mem_cons.mp hmem with h | hmem
    · cases hd
      cases h
      cases hunknown
    · rcases List.mem_cons.mp hmem with h | hmem
      · cases h
        exact Entry.passable_of_wellFormed rfl Pair.between_wellFormed
      · cases hd
        cases List.mem_singleton.mp hmem
        cases hunknown
  · cases hd
    rfl
  · have hbetween := hstrict (.inr ⟨bean, hbean⟩)
      ⟨.ok "between", .ok (.record [("deep", .list [.number (.ofInt 3)])])⟩
      (List.mem_cons_of_mem _ List.mem_cons_self)
    cases hd
    cases hbetween

end BeanBinding
