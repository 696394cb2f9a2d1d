import BeanBinding.Proofs.Elements
import BeanBinding.Proofs.Synthesis
import Mathlib.Data.List.Induction

/-!
# Updating from a list and from entries

A bean can be updated by place, from a list, or by name, from entries. Both loops hand
values to receivers, one after the other, and stop at the first error. They differ in
whom they ask first when a property and a creator share a name: the element belongs to
the creator, and the entry to the property.

So updating from a list agrees with updating from the entries that give each value the
name of its place as long as it makes no difference, at any place that is reached, which
of the two receives the value.
-/

namespace BeanBinding

variable {σ : Type}

namespace Deserializer

/-! ## Two ways to update -/

/-- The deserializer for beans of another shape. -/
def withShape (d : Deserializer σ) (shape : Shape) : Deserializer σ := { d with shape }

/-- The names of the elements, in order. -/
def elementNames (d : Deserializer σ) : List String := d.elements.map (·.2.name)

/-- Updates a bean from a list of values. -/
def updateFromList (d : Deserializer σ) (r : Position) (js : List Json) :
    ChangeM ReadError σ Unit :=
  (d.withShape .array).update (.ofList r js)

/-- Updates a bean from values under the names of their places. -/
def updateFromEntries (d : Deserializer σ) (r : Position) (js : List Json) :
    ChangeM ReadError σ Unit :=
  (d.withShape .object).update (.ofEntries r (d.elementNames.zip js))

/-- The receiver of an entry: the property of the name, if there is one. -/
def receiver (d : Deserializer σ) (c : Settable σ) : Settable σ := (d.property c.name).getD c

end Deserializer

/-- The error as it reads inside of an object, where another bracket closes. -/
def ReadError.inObject : ReadError → ReadError
  | .fault .noListSeparator => .fault .noObjectSeparator
  | e => e

/-- The outcome as it reads inside of an object. -/
def inObject : EStateM.Result ReadError (Bean σ) Unit → EStateM.Result ReadError (Bean σ) Unit
  | .ok () bean => .ok () bean
  | .error e bean => .error e.inObject bean

/-- Only a fault in front of a separator tells which bracket is missing. -/
theorem ReadError.inObject_of_ne {e : ReadError} (h : e ≠ .fault .noListSeparator) :
    e.inObject = e := by
  unfold inObject
  split
  · exact absurd rfl h
  · rfl

theorem inObject_eq_ok_iff {x : EStateM.Result ReadError (Bean σ) Unit} {bean : Bean σ} :
    inObject x = .ok () bean ↔ x = .ok () bean := by
  cases x with
  | ok a b => rfl
  | error e b => simp [inObject]

namespace Deserializer

variable {d : Deserializer σ} {r : Position} {fault : Fault}

/-! ## Both updates hand values over -/

theorem receive_inObject (s : Settable σ) (j : Json) (bean : Bean σ) :
    d.receive r .noObjectSeparator s j bean = inObject (d.receive r .noListSeparator s j bean) := by
  rw [receive_eq, receive_eq]
  cases s.decoder.decode r j with
  | error e => rfl
  | ok value =>
    dsimp only
    cases s.set value bean with
    | error e bean' => rfl
    | ok a bean' =>
      dsimp only
      split
      · rfl
      · rfl

theorem receiveAll_inObject (xs : List (Settable σ × Json)) (bean : Bean σ) :
    d.receiveAll r .noObjectSeparator xs bean =
      inObject (d.receiveAll r .noListSeparator xs bean) := by
  induction xs generalizing bean with
  | nil => rfl
  | cons x xs ih =>
    have hx := receive_inObject (d := d) (r := r) x.1 x.2 bean
    rw [receiveAll, receiveAll]
    cases h : d.receive r .noListSeparator x.1 x.2 bean with
    | ok a bean' =>
      rw [h] at hx
      rw [change_bind_ok h, change_bind_ok hx, ih]
    | error e bean' =>
      rw [h] at hx
      rw [change_bind_error h, change_bind_error hx]
      rfl

theorem receiveAll_withShape (shape : Shape) (xs : List (Settable σ × Json)) :
    (d.withShape shape).receiveAll r fault xs = d.receiveAll r fault xs := by
  induction xs with
  | nil => rfl
  | cons x xs ih =>
    rw [receiveAll, receiveAll, ih]
    rfl

/-- Entries go to the receivers of their names. -/
theorem updateEntries_eq_receiveAll {cs : List (Settable σ)}
    (h : ∀ c ∈ cs, d.updated c.name = some (d.receiver c)) (js : List Json) :
    d.updateEntries r none (((cs.map (·.name)).zip js).map fun e => ⟨.ok e.1, .ok e.2⟩) =
      d.receiveAll r .noObjectSeparator ((cs.map d.receiver).zip js) := by
  induction cs generalizing js with
  | nil => rfl
  | cons c cs ih =>
    cases js with
    | nil => rfl
    | cons j js =>
      have hrest := ih (fun c' hc' => h c' (List.mem_cons_of_mem c hc')) js
      have hc := h c List.mem_cons_self
      simp only [List.map_cons, List.zip_cons_cons, updateEntries, receiveAll, receive, bind_assoc,
        lift_ok, pure_bind, hrest, hc]
      rfl

/-- Whatever stands in a slot, an update finds the receiver under its name. -/
theorem Indexed.updated_eq (h : d.Indexed) {c : Settable σ} (hc : c ∈ d.elements.map (·.2)) :
    d.updated c.name = some (d.receiver c) := by
  rw [updated, receiver]
  cases hp : d.property c.name with
  | some p => rfl
  | none =>
    rcases mem_of_mem_elements hc with hm | hm
    · exact absurd rfl (h.property_eq_none_iff.mp hp c hm)
    · obtain ⟨k, hk⟩ := List.mem_iff_getElem?.mp hm
      rw [h.creator_eq_some_iff.mpr ⟨hk, rfl⟩]
      rfl

section

variable (h : d.Indexed) {bean : Bean σ} (hb : bean.type = d.bean) {js : List Json}
  (hl : js.length ≤ d.elementOrder.length)

include h hb hl

theorem updateFromList_eq :
    d.updateFromList r js bean =
      d.receiveAll r .noListSeparator ((d.elements.map (·.2)).zip js) bean := by
  rw [← h.length_elements] at hl
  have hupdate := update_ofList (d := d.withShape .array) (r := r) rfl hb hl
  rw [receiveAll_withShape] at hupdate
  exact hupdate

omit hl in
theorem updateFromEntries_eq :
    d.updateFromEntries r js bean =
      d.receiveAll r .noObjectSeparator (((d.elements.map (·.2)).map d.receiver).zip js) bean := by
  have hnames : d.elementNames = (d.elements.map (·.2)).map (·.name) := by
    rw [elementNames, List.map_map]
    rfl
  have hentries := updateEntries_eq_receiveAll (d := d.withShape .object) (r := r)
    (fun c hc => h.updated_eq hc) js
  have hupdate := update_ofEntries (d := d.withShape .object) (r := r) rfl hb
    (d.elementNames.zip js)
  rw [hnames, hentries, receiveAll_withShape] at hupdate
  rw [← hnames] at hupdate
  exact hupdate

end

/-! ## Where they agree -/

/-- Values that reach more receivers. -/
theorem zip_append_right {α β : Type} (xs : List α) (ys ys' : List β) :
    xs.zip (ys ++ ys') = xs.zip ys ++ (xs.drop ys.length).zip ys' := by
  induction ys generalizing xs with
  | nil => simp
  | cons y ys ih =>
    cases xs with
    | nil => simp
    | cons x xs => simp [ih]

theorem zip_snoc {α β : Type} {xs : List α} {ys : List β} {x : α} (y : β)
    (h : xs[ys.length]? = some x) : xs.zip (ys ++ [y]) = xs.zip ys ++ [(x, y)] := by
  rw [zip_append_right, List.drop_eq_getElem?_toList_append, h]
  simp

/-- One value more is handed to the receiver of its place, unless there was an error before. -/
theorem receiveAll_snoc {cs : List (Settable σ)} {js : List Json} {c : Settable σ} (j : Json)
    (h : cs[js.length]? = some c) :
    d.receiveAll r fault (cs.zip (js ++ [j])) =
      (do d.receiveAll r fault (cs.zip js); d.receive r fault c j) := by
  rw [zip_snoc j h, receiveAll_append, receiveAll_singleton]

/-- Two lists of receivers agree on all values exactly if they agree wherever they are asked. -/
theorem receiveAll_agree_iff (d : Deserializer σ) (r : Position) (fault : Fault)
    {cs cs' : List (Settable σ)} (hlen : cs'.length = cs.length) (bean : Bean σ) :
    (∀ js, js.length ≤ cs.length →
        d.receiveAll r fault (cs'.zip js) bean = d.receiveAll r fault (cs.zip js) bean) ↔
      ∀ js j b c c', cs[js.length]? = some c → cs'[js.length]? = some c' →
        d.receiveAll r fault (cs.zip js) bean = .ok () b →
          d.receive r fault c' j b = d.receive r fault c j b := by
  constructor
  · intro hagree js j b c c' hc hc' hrun
    have hlt : js.length < cs.length := (List.getElem?_eq_some_iff.mp hc).1
    -- the lists of the values before, and with one more, tell the last step
    have hbefore := hagree js (by omega)
    have hafter := hagree (js ++ [j]) (by rw [List.length_append]; exact hlt)
    rw [hrun] at hbefore
    rw [receiveAll_snoc j hc', receiveAll_snoc j hc, change_bind_ok hbefore,
      change_bind_ok hrun] at hafter
    exact hafter
  · intro hstep js
    induction js using List.reverseRecOn with
    | nil => intro _; simp
    | append_singleton js j ih =>
      intro hjs
      rw [List.length_append, List.length_singleton] at hjs
      have hbefore := ih (by omega)
      obtain ⟨c, hc⟩ : ∃ c, cs[js.length]? = some c := ⟨_, List.getElem?_eq_getElem (by omega)⟩
      obtain ⟨c', hc'⟩ : ∃ c', cs'[js.length]? = some c' :=
        ⟨_, List.getElem?_eq_getElem (by omega)⟩
      rw [receiveAll_snoc j hc', receiveAll_snoc j hc]
      cases hrun : d.receiveAll r fault (cs.zip js) bean with
      | ok a b =>
        rw [hrun] at hbefore
        rw [change_bind_ok hrun, change_bind_ok hbefore]
        exact hstep js j b c c' hc hc' hrun
      | error e b =>
        -- both have stopped, with one bean left behind
        rw [hrun] at hbefore
        rw [change_bind_error hrun, change_bind_error hbefore]

/-- A property and a creator that share a name decode and set a value alike. -/
def SharesAlike (d : Deserializer σ) : Prop :=
  ∀ p ∈ d.properties, ∀ c ∈ d.creators, p.name = c.name →
    p.decoder = c.decoder ∧ p.set = c.set

/-- Then it makes no difference which of them receives a value. -/
theorem Indexed.receive_receiver (h : d.Indexed) (hs : d.SharesAlike) {c : Settable σ}
    (hc : c ∈ d.elements.map (·.2)) (j : Json) (bean : Bean σ) :
    d.receive r fault (d.receiver c) j bean = d.receive r fault c j bean := by
  rw [receiver]
  cases hp : d.property c.name with
  | none => rfl
  | some p =>
    rw [Option.getD_some]
    obtain ⟨hm, hname⟩ := h.property_eq_some_iff.mp hp
    rcases mem_of_mem_elements hc with hcm | hcm
    · -- a property in its own slot
      rw [List.inj_on_of_nodup_map h.propertyNames hm hcm hname]
    · obtain ⟨hdecoder, hset⟩ := hs p hm c hcm hname
      rw [receive_eq, receive_eq, hname, hdecoder, hset]

/-- The two updates differ at most in who receives a value. -/
theorem Indexed.updates_eq_iff_receive (h : d.Indexed) {bean : Bean σ} (hb : bean.type = d.bean) :
    (∀ js, js.length ≤ d.elementOrder.length →
        d.updateFromEntries r js bean = inObject (d.updateFromList r js bean)) ↔
      ∀ js j b c, (d.elements[js.length]?).map (·.2) = some c →
        d.updateFromList r js bean = .ok () b →
          d.receive r .noObjectSeparator (d.receiver c) j b =
            d.receive r .noObjectSeparator c j b := by
  let cs := d.elements.map (·.2)
  have hlength : cs.length = d.elementOrder.length := by
    rw [List.length_map, h.length_elements]
  have hlist : ∀ js, js.length ≤ d.elementOrder.length →
      inObject (d.updateFromList r js bean) =
        d.receiveAll r .noObjectSeparator (cs.zip js) bean := by
    intro js hjs
    rw [receiveAll_inObject, updateFromList_eq h hb hjs]
  have hentries : ∀ js, d.updateFromEntries r js bean =
      d.receiveAll r .noObjectSeparator ((cs.map d.receiver).zip js) bean :=
    fun js => updateFromEntries_eq h hb
  have hagree := d.receiveAll_agree_iff r .noObjectSeparator
    (List.length_map d.receiver : (cs.map _).length = cs.length) bean
  constructor
  · intro hall js j b c hc hrun
    rw [← List.getElem?_map] at hc
    have hjs : js.length < cs.length := (List.getElem?_eq_some_iff.mp hc).1
    refine hagree.mp ?_ js j b c (d.receiver c) hc ?_ ?_
    · intro ks hks
      rw [← hentries, hall ks (by omega), hlist ks (by omega)]
    · rw [List.getElem?_map, hc, Option.map_some]
    · -- a list that succeeds is received alike in an object
      rw [← hlist js (by omega), hrun]
      rfl
  · intro hstep js hjs
    rw [hentries, hlist js hjs]
    refine hagree.mpr ?_ js (by omega)
    intro ks j b c c' hc hc' hrun
    have hks : ks.length < cs.length := (List.getElem?_eq_some_iff.mp hc).1
    rw [List.getElem?_map, hc, Option.map_some, Option.some.injEq] at hc'
    rw [← hlist ks (by omega), inObject_eq_ok_iff] at hrun
    rw [← hc']
    exact hstep ks j b c (by rw [← List.getElem?_map]; exact hc) hrun

end Deserializer

/--
**The two updates agree exactly if it nowhere matters whom a shared name means.**

A list hands each value to the property or creator in the slot of its place, entries hand
it to the property of that name, if there is one. The updates have the same outcome for
all lists, bean and error included, exactly if the two receivers of each place do the
same with every value at every bean in which the place is reached. That is so if creators
share names only with properties that decode and set alike.
-/
theorem updates_agree_iff {draft : DeserializerDraft σ} {d : Deserializer σ}
    (h : draft.build = .ok d) {bean : Bean σ} (hb : bean.type = d.bean) (r : Position) :
    ((∀ js, js.length ≤ d.elementOrder.length →
        d.updateFromEntries r js bean = inObject (d.updateFromList r js bean)) ↔
      ∀ js j b c, (d.elements[js.length]?).map (·.2) = some c →
        d.updateFromList r js bean = .ok () b →
          d.receive r .noObjectSeparator (d.receiver c) j b =
            d.receive r .noObjectSeparator c j b) ∧
    (d.SharesAlike → ∀ js, js.length ≤ d.elementOrder.length →
      d.updateFromEntries r js bean = inObject (d.updateFromList r js bean)) := by
  have hi := (DeserializerDraft.indexed_of_build h).2
  refine ⟨hi.updates_eq_iff_receive hb, fun hs => (hi.updates_eq_iff_receive hb).mpr ?_⟩
  intro js j b c hc _
  rw [← List.getElem?_map] at hc
  exact hi.receive_receiver hs (List.mem_of_getElem? hc) j b

/-! ### Pairs made from their left side -/

/-- If the left side can be set, a list and entries agree on pairs. -/
theorem updates_agree_settable :
    ∃ d, (Pair.codec.introspectedProperties (Pair.made Pair.leftProperty)).build = .ok d ∧
      d.SharesAlike ∧ ∀ js, js.length ≤ d.elementOrder.length →
        d.updateFromEntries (.start .streamed) js (Pair.of 1 2) =
          inObject (d.updateFromList (.start .streamed) js (Pair.of 1 2)) := by
  obtain ⟨d, hd⟩ :
      ∃ d, (Pair.codec.introspectedProperties (Pair.made Pair.leftProperty)).build = .ok d :=
    ⟨_, rfl⟩
  obtain ⟨hk, -⟩ := DeserializerDraft.indexed_of_build hd
  have hs : d.SharesAlike := by
    intro p hp c hc hname
    rw [hk.properties] at hp
    rw [hk.creators] at hc
    cases List.mem_singleton.mp hc
    rcases List.mem_pair.mp hp with rfl | rfl
    · exact ⟨rfl, (Settable.set_virtual rfl).trans (Settable.set_creator rfl).symm⟩
    · exact absurd hname (by decide)
  exact ⟨d, hd, hs, (updates_agree_iff hd hk.bean.symm (.start .streamed)).2 hs⟩

/-- If the left side cannot be set, its entry is refused and its element is passed over. -/
theorem updates_differ_read_only :
    ∃ d, (Pair.codec.buildDeserializer ⟨[Pair.made Pair.fixedLeft]⟩ Pair.type).value = .ok d ∧
      d.bean = Pair.type ∧ 1 ≤ d.elementOrder.length ∧
      d.updateFromList (.start .streamed) [.number (.ofInt 5)] (Pair.of 1 2) =
        .ok () (Pair.of 1 2) ∧
      d.updateFromEntries (.start .streamed) [.number (.ofInt 5)] (Pair.of 1 2) =
        .error (.codec (.access "Pair" "left" .notWritable)) (Pair.of 1 2) :=
  ⟨_, rfl, rfl, by decide, rfl, rfl⟩

end BeanBinding
