import BeanBinding.Proofs.Admitting
import BeanBinding.Proofs.Making

/-!
# What is decoded is accepted

A setter compares the type of a value with its own before it takes the value apart, so it can
fail with a mismatch. For a value out of a document it never does. The type that decodes
puts its own name on the value, and what it decodes is admitted by its schema
(`ValueType.owns_of_decode`). A virtual property decodes by the type of the property that
it writes to, and so does a described member without a deserializer of its own: the two
types stay `Paired`.

The value then goes to its setter at once, or it waits in a buffer next to it. So whichever
way a document takes, a mismatch could only come from a setter that was handed a value of
its own (`refused_of_update`, `refused_of_create`), and such a setter raises none, unless
the assignment that was supplied for it does so itself.
-/

namespace BeanBinding

variable {σ : Type}

/-! ## Values -/

namespace ValueType

/-- The type accepts the value, and its schema admits what is in it. -/
structure Owns (t : ValueType) (v : Value) : Prop where
  accepts : t.accepts v = true
  admits : t.schema.WellFormed → t.schema.Admits v.tree

theorem owns_of_decode {t : ValueType} {r : Position} {j : Json} {v : Value}
    (h : t.decode r j = .ok (some v)) : t.Owns v := by
  unfold decode at h
  split at h
  · cases h
  · cases h
  · obtain ⟨tree, htree, he⟩ := map_eq_ok_iff.mp h
    cases he
    exact ⟨beq_self_eq_true t.name, fun hwell => hwell.yields r _ tree htree⟩

theorem owns_of_literal {t : ValueType} {literal : String} {v : Value}
    (h : t.ofLiteral literal = some v) : t.Owns v := by
  obtain ⟨tree, htree, rfl⟩ := Option.map_eq_some_iff.mp h
  exact ⟨beq_self_eq_true t.name, fun _ => Schema.admits_of_ofLiteral htree⟩

end ValueType

/-! ## Setters -/

namespace Property

variable {raised : AccessError → Prop} {p : Property σ} {bean left : Bean σ}
  {expected actual : String}

/-- A property that calls declare, whose fallible assignments raise certain errors only. -/
inductive Raising (raised : AccessError → Prop) : Property σ → Prop where
  | declaredBy (owner : BeanType) (name : String) (type : ValueType) (calls : List (Call σ))
      (hcalls : ∀ set, Call.trySetter set ∈ calls →
        ∀ t s cause s', set t s = .error cause s' → raised cause) :
      Raising raised (declaredBy owner name type calls)

theorem checkOwner_ne_mismatch :
    p.checkOwner bean ≠ .error (.valueMismatch expected actual) left := by
  have hget : (get : ChangeM AccessError σ (Bean σ)) bean = .ok bean bean := rfl
  intro h
  rw [checkOwner, change_bind_ok hget] at h
  split at h
  · cases h
  · cases h

theorem content_of_accepts {v : Value} (h : p.valueType.accepts v = true) :
    p.content v bean = .ok v.tree bean := by
  have htake : v.take p.valueType = .ok v.tree := if_pos h
  exact content_eq_ok_iff.mpr ⟨htake, rfl⟩

/-- A write checks the bean and the value first; of a value it accepts it tells no mismatch. -/
theorem raised_of_checked {v : Value} (hv : p.valueType.accepts v = true)
    {change : Tree → ChangeM AccessError σ Unit}
    (hchange : ∀ t bean left, change t bean = .error (.valueMismatch expected actual) left →
      raised (.valueMismatch expected actual))
    (h : (do p.checkOwner; change (← p.content v)) bean =
      .error (.valueMismatch expected actual) left) :
    raised (.valueMismatch expected actual) := by
  rcases change_bind_eq_error_iff.mp h with howner | ⟨_, next, -, h⟩
  · exact absurd howner checkOwner_ne_mismatch
  · rw [change_bind_ok (content_of_accepts hv)] at h
    exact hchange v.tree next left h

/-- Null is no value, so it has no wrong type. -/
theorem not_mismatch_of_null
    (h : (do p.checkOwner; throw .nullNotAccepted : ChangeM AccessError σ Unit) bean =
      .error (.valueMismatch expected actual) left) : False := by
  rcases change_bind_eq_error_iff.mp h with howner | ⟨_, next, -, h⟩
  · exact checkOwner_ne_mismatch howner
  · cases h

theorem raised_of_trySetter {set : Tree → EStateM AccessError σ Unit}
    (hset : ∀ t s cause s', set t s = .error cause s' → raised cause) {value : Option Value}
    (hvalue : ∀ v ∈ value, p.valueType.accepts v = true)
    (h : (p.trySetter set).write value bean = .error (.valueMismatch expected actual) left) :
    raised (.valueMismatch expected actual) := by
  cases value with
  | none => exact (not_mismatch_of_null h).elim
  | some v =>
    refine raised_of_checked (hvalue v rfl) (fun t bean left hassign => ?_) h
    split at hassign
    · cases hassign
    · rename_i cause s' hraised
      cases hassign
      exact hset t _ _ _ hraised

theorem raised_of_setter {set : σ → Tree → σ} {value : Option Value}
    (hvalue : ∀ v ∈ value, p.valueType.accepts v = true)
    (h : (p.setter set).write value bean = .error (.valueMismatch expected actual) left) :
    raised (.valueMismatch expected actual) := by
  cases value with
  | none => exact (not_mismatch_of_null h).elim
  | some v => exact raised_of_checked (hvalue v rfl) (fun t bean left hassign => by cases hassign) h

theorem raised_of_setterOpt {set : σ → Option Tree → σ} {value : Option Value}
    (hvalue : ∀ v ∈ value, p.valueType.accepts v = true)
    (h : (p.setterOpt set).write value bean = .error (.valueMismatch expected actual) left) :
    raised (.valueMismatch expected actual) := by
  rcases change_bind_eq_error_iff.mp h with howner | ⟨_, next, -, h⟩
  · exact absurd howner checkOwner_ne_mismatch
  · rcases change_bind_eq_error_iff.mp h with hcontent | ⟨t, next', -, hassign⟩
    · cases value with
      | none => cases hcontent
      | some v =>
        have hok : (do return some (← p.content v) : ChangeM AccessError σ _) next =
            .ok (some v.tree) next := by
          rw [change_bind_ok (content_of_accepts (hvalue v rfl))]
          rfl
        exact absurd (hcontent.symm.trans hok) (by simp)
    · cases hassign

/-- **A property that accepts a value fails with a mismatch only if its assignment does.** -/
theorem Raising.raised_of_mismatch (h : p.Raising raised) {value : Option Value}
    (hvalue : ∀ v ∈ value, p.valueType.accepts v = true)
    (hwrite : p.write value bean = .error (.valueMismatch expected actual) left) :
    raised (.valueMismatch expected actual) := by
  obtain ⟨owner, name, type, calls, hcalls⟩ := h
  induction calls using List.reverseRecOn with
  | nil => cases hwrite
  | append_singleton calls c ih =>
    rw [declaredBy_concat] at hvalue hwrite
    have hearlier := ih fun set hset => hcalls set (List.mem_append_left [c] hset)
    cases c with
    | setter set => exact raised_of_setter hvalue hwrite
    | setterOpt set => exact raised_of_setterOpt hvalue hwrite
    | trySetter set =>
      exact raised_of_trySetter (hcalls set (List.mem_append_right calls List.mem_cons_self))
        hvalue hwrite
    -- what is declared about reading and the like leaves type and setter alone
    | getter | getterOpt | getterOwned | nullable | annotations => exact hearlier hvalue hwrite

end Property

/-! ## Settable properties -/

namespace Settable

variable {raised : AccessError → Prop}

/-- A settable property that decodes by the type of the property it writes to. -/
inductive Paired (raised : AccessError → Prop) : Settable σ → Prop where
  | virtual {p : Property σ} (hp : p.Raising raised) : Paired raised (virtual p)
  | member {m : Member σ} {s : Settable σ} (hp : m.property.Raising raised)
      (hcustom : m.deserializer = none) (hs : ofMember m = some s) : Paired raised s

theorem accepts_of_decode {t : ValueType} {r : Position} {j : Json} {value : Option Value}
    (h : t.decode r j = .ok value) : ∀ v ∈ value, t.accepts v = true := by
  intro v hv
  cases hv
  exact (ValueType.owns_of_decode h).accepts

/-- **What a settable property decodes, it accepts.** -/
theorem Paired.raised_of_mismatch {s : Settable σ} (h : s.Paired raised) {value : Option Value}
    (hvalue : s.Decodes value) {bean left : Bean σ} {expected actual : String}
    (hset : s.set value bean = .error (.valueMismatch expected actual) left) :
    raised (.valueMismatch expected actual) := by
  obtain ⟨r, j, hdecode⟩ := hvalue
  cases h with
  | virtual hp =>
    unfold Settable.virtual at hset
    dsimp only at hset
    split at hset
    · cases hset
    · exact hp.raised_of_mismatch (accepts_of_decode hdecode) hset
  | @member m s hp hcustom hs =>
    unfold ofMember at hs
    split at hs
    · obtain ⟨kind, -, rfl⟩ := Option.map_eq_some_iff.mp hs
      rw [hcustom] at hdecode
      exact hp.raised_of_mismatch (accepts_of_decode hdecode) hset
    · cases hs

end Settable

/-! ## Documents -/

namespace Deserializer

variable {d : Deserializer σ} {document : Document} {bean left : Bean σ}

/-- An update comes to set a property: all that the document asks for before has been done. -/
def Reaches (d : Deserializer σ) (document : Document) (bean : Bean σ) (s : Settable σ) : Prop :=
  ∃ before q after ending reached value,
    d.requests document = .ok (before ++ q :: after, ending) ∧
      d.Applies before bean reached ∧ Whole before ∧ q.change = .ok (some (s, value))

/-- A request to set what was decoded; whatever else is wrong with it lies in the document. -/
structure Request.Honest (q : Request σ) : Prop where
  change : ∀ e, q.change = .error e → e.OfDocument
  behind : ∀ e, q.behind = .error e → e.OfDocument
  decodes : ∀ s value, q.change = .ok (some (s, value)) → s.Decodes value

theorem honest_toSet {s : Settable σ} {value : Except ReadError (Option Value)}
    {behind : Except ReadError Unit} (hvalue : ∀ e, value = .error e → e.OfDocument)
    (hbehind : ∀ e, behind = .error e → e.OfDocument)
    (hdecodes : ∀ v, value = .ok v → s.Decodes v) : (Request.toSet s value behind).Honest where
  change e he := by
    cases value with
    | ok v => cases he
    | error e' =>
      cases he
      exact hvalue e rfl
  behind := hbehind
  decodes s' v hv := by
    obtain ⟨v', hv', he⟩ := map_eq_ok_iff.mp hv
    cases he
    exact hdecodes v hv'

theorem honest_toSkip {skip : Except ReadError Unit} (h : ∀ e, skip = .error e → e.OfDocument) :
    (Request.toSkip skip : Request σ).Honest where
  change e he := by
    cases skip with
    | ok u => cases he
    | error e' =>
      cases he
      exact h e rfl
  behind e he := by cases he
  decodes s v hv := by
    obtain ⟨_, -, he⟩ := map_eq_ok_iff.mp hv
    cases he

theorem honest_entryRequest {r : Position} {e : Entry}
    (hkey : ∀ x, e.key = .error x → x.OfDocument) : (d.entryRequest r e).Honest := by
  unfold entryRequest
  split
  · rename_i cause hcause
    refine honest_toSkip fun x hx => ?_
    cases hx
    exact hkey cause hcause
  · split
    · exact honest_toSet (fun _ => ofDocument_of_decodeEntry)
        (fun _ => ofDocument_of_checkEntryRest) fun _ => decodes_of_decodeEntry
    · exact honest_toSkip fun _ => ofDocument_of_skipUnknown

theorem honest_itemRequest {r : Position} (x : Settable σ × Item) :
    (itemRequest r x).Honest :=
  honest_toSet (fun _ => ofDocument_of_decodeItem) (fun _ => ofDocument_of_checkItemRest)
    fun _ => decodes_of_decodeItem

/-- What is wrong with a document shows in its form, in its requests or in its ending. -/
theorem honest_of_requests (hgiven : document.Given) :
    (∀ e, d.requests document = .error e → e.OfDocument) ∧
      ∀ qs ending, d.requests document = .ok (qs, ending) →
        (∀ q ∈ qs, q.Honest) ∧ ∀ e, ending = .error e → e.OfDocument := by
  unfold requests
  split
  · rename_i es ending hshape hcontent
    rw [hshape] at hcontent
    refine ⟨fun e he => (by cases he), fun qs ending' hqs => ?_⟩
    cases hqs
    refine ⟨fun q hq => ?_, fun _ => ofDocument_of_finish⟩
    obtain ⟨entry, hentry, rfl⟩ := List.mem_map.mp hq
    exact honest_entryRequest fun x hx => hgiven.ofDocument_of_key hcontent hentry hx
  · refine ⟨fun e he => (by cases he), fun qs ending' hqs => ?_⟩
    cases hqs
    refine ⟨fun q hq => ?_, fun _ => ofDocument_of_checkSurplus⟩
    obtain ⟨x, -, rfl⟩ := List.mem_map.mp hq
    exact honest_itemRequest x
  · refine ⟨fun e he => ?_, fun qs ending' hqs => (by cases hqs)⟩
    cases he
    exact ofDocument_notABean _

/-! ### Who refuses -/

/-- A setter refuses a value that was decoded for it. -/
inductive RefusesDecoded (d : Deserializer σ) (s : Settable σ) : ReadError → Prop where
  | intro {value : Option Value} (hvalue : s.Decodes value) {bean left : Bean σ}
      {cause : AccessError} (hset : s.set value bean = .error cause left) :
      RefusesDecoded d s (.codec (.access d.bean.name s.name cause))

/-- Requests fail at one that is refused, if the document is not to blame. -/
theorem refused_of_carried {qs : List (Request σ)} {ending : Except ReadError Unit}
    (hqs : ∀ q ∈ qs, q.Honest) (hending : ∀ e, ending = .error e → e.OfDocument) {e : ReadError}
    (h : (do forM qs d.carryOut; lift ending : ChangeM ReadError σ Unit) bean = .error e left) :
    e.OfDocument ∨ ∃ before q after reached s value, qs = before ++ q :: after ∧
      d.Applies before bean reached ∧ Whole before ∧ q.change = .ok (some (s, value)) ∧
        d.RefusesDecoded s e := by
  rcases change_bind_eq_error_iff.mp h with hcarry | ⟨_, next, -, hlast⟩
  · obtain ⟨before, q, after, reached, rfl, hbefore, hwhole, hq⟩ :=
      forM_carryOut_eq_error_iff.mp hcarry
    have hhonest : q.Honest := hqs q (by simp)
    rcases carryOut_eq_error_iff.mp hq with ⟨hfault, -⟩ | ⟨s, value, cause, hchange, hset, rfl⟩ |
      ⟨_, -, -, hbehind⟩
    · exact .inl (hhonest.change e hfault)
    · exact .inr ⟨before, q, after, reached, s, value, rfl, hbefore, hwhole, hchange,
        .intro (hhonest.decodes s value hchange) hset⟩
    · exact .inl (hhonest.behind e hbehind)
  · exact .inl (hending e (lift_eq_error_iff.mp hlast).1)

/-- An update that is not the fault of the document fails at a setter that it has reached. -/
theorem refused_of_update (hgiven : document.Given) {owner name : String} {cause : AccessError}
    (h : d.update document bean = .error (.codec (.access owner name cause)) left) :
    ∃ s, d.Reaches document bean s ∧ d.RefusesDecoded s (.codec (.access owner name cause)) := by
  by_cases hb : bean.type = d.bean
  · rw [update_eq_requests hb] at h
    obtain ⟨hform, hrequests⟩ := honest_of_requests (d := d) hgiven
    cases hqs : d.requests document with
    | error e =>
      rw [hqs] at h
      cases h
      exact (hform _ hqs).elim
    | ok x =>
      obtain ⟨qs, ending⟩ := x
      rw [hqs] at h
      obtain ⟨hhonest, hending⟩ := hrequests qs ending hqs
      rcases refused_of_carried hhonest hending h with hdocument |
        ⟨before, q, after, reached, s, value, rfl, hbefore, hwhole, hchange, hrefuses⟩
      · exact hdocument.elim
      · exact ⟨s, ⟨before, q, after, ending, reached, value, hqs, hbefore, hwhole, hchange⟩,
          hrefuses⟩
  · rw [update_of_other_type hb] at h
    cases h

/-- Without creators a new bean is filled by the requests of the document. -/
theorem create_eq_requests (hc : d.creators = []) (document : Document) :
    d.create document =
      match d.requests document with
      | .error e => .error e
      | .ok (qs, ending) => fill d.instantiate (do forM qs d.carryOut; lift ending) := by
  have huses := usesCreators_eq_false_iff.mpr hc
  cases hshape : d.shape with
  | object =>
    cases hcontent : document.seenAs .object with
    | entries es ending =>
      simp only [create, requests, hshape, hcontent, huses, Bool.false_eq_true, if_false,
        fillEntries_eq_updateEntries hc, updateEntries_eq_handed, handEntries, List.forM_map,
        carryOut_entryRequest]
    | items | numbered | neither => simp only [create, requests, hshape, hcontent]
  | array =>
    cases hcontent : document.seenAs .array with
    | items is ending =>
      simp only [create, requests, hshape, hcontent, huses, Bool.false_eq_true, if_false,
        fillItems_eq_updateItems, updateItems_eq_forM, List.forM_map, carryOut_itemRequest]
    | entries | numbered | neither => simp only [create, requests, hshape, hcontent]

/-- Every value that waits was decoded for the property next to it. -/
def WaitsDecoded (d : Deserializer σ) (p : Pending σ) : Prop :=
  ∀ x ∈ p.buffered, x.1 ∈ d.properties ∧ x.1.Decodes x.2

theorem WaitsDecoded.buffer {p : Pending σ} (h : d.WaitsDecoded p) {s : Settable σ}
    (hs : s ∈ d.properties) {value : Option Value} (hvalue : s.Decodes value) :
    d.WaitsDecoded (p.buffer s value) := by
  intro x hx
  rcases List.mem_append.mp hx with hx | hx
  · exact h x hx
  · rw [List.mem_singleton.mp hx]
    exact ⟨hs, hvalue⟩

theorem waitsDecoded_pending : d.WaitsDecoded d.pending := by
  intro x hx
  cases hx

theorem waitsDecoded_of_collectEntries {r : Position} {ending : Option Fault} {es : List Entry}
    {p : Pending σ} (h : d.collectEntries r ending es d.pending = .ok p) : d.WaitsDecoded p := by
  refine collectEntries_keeps (fun e p q hp he => ?_) waitsDecoded_pending h
  exact collectEntry_keeps (fun _ _ _ hp => hp)
    (fun s hs value hvalue p hp => hp.buffer hs hvalue) hp he

theorem waitsDecoded_of_collectItems {r : Position} {ending : Option Fault} {is : List Item}
    {p : Pending σ} (h : d.collectItems r ending d.elements is d.pending = .ok p) :
    d.WaitsDecoded p := by
  refine collectItems_keeps (fun _ _ _ _ _ hp => hp)
    (fun index s hs value hvalue p hp => hp.buffer ?_ hvalue) waitsDecoded_pending h
  -- what stands in the slot of a property is a property
  obtain ⟨slot, -, hslot⟩ := List.mem_filterMap.mp hs
  obtain ⟨s', hin, he⟩ := Option.map_eq_some_iff.mp hslot
  cases he
  exact List.mem_of_getElem? hin

/-- What was collected fails at a setter of which the value has waited. -/
theorem refused_of_complete {p : Pending σ} (hp : d.WaitsDecoded p) {owner name : String}
    {cause : AccessError} (h : d.complete p = .error (.codec (.access owner name cause))) :
    ∃ s ∈ d.properties, d.RefusesDecoded s (.codec (.access owner name cause)) := by
  unfold complete at h
  split at h
  · cases h
  · rcases error_of_fill h with ⟨_, -, he⟩ | ⟨made, left, hset⟩
    · cases he
    · rw [setAll_eq_forM] at hset
      obtain ⟨before, x, after, reached, hx, -, hrefuses⟩ := forM_eq_error_iff.mp hset
      obtain ⟨hmem, hdecodes⟩ := hp x (by rw [hx]; simp)
      obtain ⟨cause', hset, he⟩ := set_eq_error_iff.mp hrefuses
      rw [he]
      exact ⟨x.1, hmem, .intro hdecodes hset⟩

/-- What goes wrong with collecting lies in the document, so a setter only refuses at the end. -/
theorem refused_of_collected {x : Except ReadError (Pending σ)} (hproper : d.Proper x)
    (hwaits : ∀ p, x = .ok p → d.WaitsDecoded p) {owner name : String} {cause : AccessError}
    (h : x >>= d.complete = .error (.codec (.access owner name cause))) :
    ∃ s ∈ d.properties, d.RefusesDecoded s (.codec (.access owner name cause)) := by
  cases x with
  | error e =>
    cases h
    exact hproper.elim
  | ok p => exact refused_of_complete (hwaits p rfl) h

/-- A creation that is not the fault of the document fails at a setter, with a value of its own. -/
theorem refused_of_create (hgiven : document.Given) {owner name : String} {cause : AccessError}
    (h : d.create document = .error (.codec (.access owner name cause))) :
    ∃ s ∈ d.properties, d.RefusesDecoded s (.codec (.access owner name cause)) := by
  cases huses : d.usesCreators with
  | false =>
    have hc := usesCreators_eq_false_iff.mp huses
    obtain ⟨hform, hrequests⟩ := honest_of_requests (d := d) hgiven
    rw [create_eq_requests hc] at h
    cases hqs : d.requests document with
    | error e =>
      rw [hqs] at h
      cases h
      exact (hform _ hqs).elim
    | ok x =>
      obtain ⟨qs, ending⟩ := x
      rw [hqs] at h
      obtain ⟨hhonest, hending⟩ := hrequests qs ending hqs
      rcases error_of_fill h with ⟨_, -, he⟩ | ⟨made, left, hcarry⟩
      · cases he
      · rcases refused_of_carried hhonest hending hcarry with hdocument |
          ⟨before, q, after, reached, s, value, rfl, -, -, hchange, hrefuses⟩
        · exact hdocument.elim
        · -- without creators, what is reached is a property
          rcases mem_of_request hqs (q := q) (by simp) hchange with hs | hs
          · exact ⟨s, hs, hrefuses⟩
          · rw [hc] at hs
            cases hs
  | true =>
    have hpending : d.pending.arguments.length = d.creators.length := List.length_replicate
    unfold create at h
    simp only [huses, if_true] at h
    split at h
    · rename_i es ending hshape hcontent
      rw [hshape] at hcontent
      have hkeys := fun e he x hx => hgiven.ofDocument_of_key hcontent (e := e) he (x := x) hx
      exact refused_of_collected (proper_collectEntries hkeys hpending)
        (fun _ => waitsDecoded_of_collectEntries) h
    · exact refused_of_collected (proper_collectItems hpending)
        (fun _ => waitsDecoded_of_collectItems) h
    · have hform := ofDocument_notABean (d := d) (document.seenAs d.shape)
      rw [Except.error.inj h] at hform
      exact hform.elim

end Deserializer

/-- Members without deserializers of their own become paired properties of a draft. -/
theorem DeserializerDraft.paired_ofDescription {d : Description σ} {raised : AccessError → Prop}
    (hd : ∀ m ∈ d.members, m.property.Raising raised ∧ m.deserializer = none) (config : Config) :
    ∀ s ∈ (ofDescription d config).properties, s.Paired raised := by
  intro s hs
  obtain ⟨m, hm, hof⟩ := List.mem_filterMap.mp hs
  obtain ⟨hraising, hcustom⟩ := hd m hm
  exact .member hraising hcustom hof

/--
**Whatever is decoded fits its setter.**

A value that a declared type decodes, from whatever document, and one that it reads from a
literal, is accepted by the type, and its content is what the schema admits. So let the
properties of a deserializer be virtual ones, or members that have no deserializer of their
own and are not bound to another property. Then no document is refused with a mismatch of
values, neither when a bean is created nor by an update that only reaches such properties,
unless the very assignment that was supplied for a property has raised it.
-/
theorem decoded_values_accepted (d : Deserializer σ) {raised : AccessError → Prop}
    (hd : ∀ s ∈ d.properties, s.Paired raised) :
    (∀ (t : ValueType) r j v, t.decode r j = .ok (some v) → t.Owns v) ∧
    (∀ (t : ValueType) literal v, t.ofLiteral literal = some v → t.Owns v) ∧
    ∀ document, document.Given → ∀ owner name expected actual,
      (d.create document = .error (.codec (.access owner name (.valueMismatch expected actual))) →
        raised (.valueMismatch expected actual)) ∧
      ∀ bean left, (∀ s, d.Reaches document bean s → s.Paired raised) →
        d.update document bean =
          .error (.codec (.access owner name (.valueMismatch expected actual))) left →
        raised (.valueMismatch expected actual) := by
  refine ⟨fun t r j v => ValueType.owns_of_decode, fun t literal v => ValueType.owns_of_literal,
    fun document hgiven owner name expected actual => ⟨fun hcreate => ?_, ?_⟩⟩
  · obtain ⟨s, hs, hrefuses⟩ := Deserializer.refused_of_create hgiven hcreate
    cases hrefuses with
    | intro hvalue hset => exact (hd s hs).raised_of_mismatch hvalue hset
  · intro bean left hreaches hupdate
    obtain ⟨s, hs, hrefuses⟩ := Deserializer.refused_of_update hgiven hupdate
    cases hrefuses with
    | intro hvalue hset => exact (hreaches s hs).raised_of_mismatch hvalue hset

/-! ### Pairs of which a side is closed -/

/-- The assignment refuses a value for a reason of its own. -/
def AccessError.IsRejection (e : AccessError) : Prop := ∃ message, e = .rejected message

namespace Pair

theorem leftProperty_raising : (leftProperty).Raising AccessError.IsRejection :=
  .declaredBy type "left" number [.getter left.get .part, .setter left.set, .annotations .empty]
    (by simp)

theorem closedRight_raising : closedRight.Raising AccessError.IsRejection := by
  refine .declaredBy type "right" number
    [.getter Prod.snd .part, .trySetter fun _ => throw (.rejected "closed")] ?_
  intro set hset t s cause s' h
  cases List.mem_singleton.mp ((List.mem_cons.mp hset).resolve_left (by simp))
  cases h
  exact ⟨"closed", rfl⟩

/-- The description of pairs, as lists, of which only the left side can be set. -/
def closedDescription : Description (Tree × Tree) :=
  ⟨type, [.declare .method leftProperty, .declare .field closedRight], some (of 0 0).state,
    some .array⟩

theorem number_wellFormed : number.schema.WellFormed :=
  .of trivial fun part hpart => by cases hpart

end Pair

/-- The right side refuses every number, but never for its type. -/
theorem closed_pair_never_mismatched :
    ∃ d, (DeserializerDraft.ofDescription Pair.closedDescription .default).build = .ok d ∧
      (∀ s ∈ d.properties, s.Paired AccessError.IsRejection) ∧
      d.create (.ofText "[1,2]") =
        .error (.codec (.access "Pair" "right" (.rejected "closed"))) ∧
      (∀ r j v, Pair.number.decode r j = .ok (some v) → Pair.number.schema.Admits v.tree) ∧
      ∀ document, document.Given → ∀ owner name expected actual,
        d.create document ≠ .error (.codec (.access owner name (.valueMismatch expected actual))) ∧
        ∀ bean left, d.update document bean ≠
          .error (.codec (.access owner name (.valueMismatch expected actual))) left := by
  obtain ⟨d, hd⟩ :
      ∃ d, (DeserializerDraft.ofDescription Pair.closedDescription .default).build = .ok d :=
    ⟨_, rfl⟩
  obtain ⟨hkeeps, -⟩ := DeserializerDraft.indexed_of_build hd
  have hpaired : ∀ s ∈ d.properties, s.Paired AccessError.IsRejection := by
    rw [hkeeps.properties]
    refine DeserializerDraft.paired_ofDescription (fun m hm => ?_) .default
    rcases List.mem_pair.mp hm with rfl | rfl
    · exact ⟨Pair.leftProperty_raising, rfl⟩
    · exact ⟨Pair.closedRight_raising, rfl⟩
  have hreached : ∀ document bean s, d.Reaches document bean s →
      s.Paired AccessError.IsRejection := by
    rintro document bean s ⟨before, q, after, ending, reached, value, hqs, -, -, hchange⟩
    rcases Deserializer.mem_of_request hqs (q := q) (by simp) hchange with hs | hs
    · exact hpaired s hs
    · rw [hkeeps.creators] at hs
      cases hs
  have hmismatch : ∀ expected actual,
      ¬ AccessError.IsRejection (.valueMismatch expected actual) := by
    rintro expected actual ⟨message, h⟩
    cases h
  obtain ⟨hdecode, -, hread⟩ := decoded_values_accepted d hpaired
  refine ⟨d, hd, hpaired, ?_, fun r j v hv => (hdecode _ r j v hv).admits Pair.number_wellFormed,
    fun document hgiven owner name expected actual => ⟨fun h => ?_, fun bean left h => ?_⟩⟩
  · cases hd
    rfl
  · exact hmismatch _ _ ((hread document hgiven owner name expected actual).1 h)
  · exact hmismatch _ _ ((hread document hgiven owner name expected actual).2 bean left
      (hreached document bean) h)

end BeanBinding
