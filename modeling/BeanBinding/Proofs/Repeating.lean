import BeanBinding.Proofs.Making
import BeanBinding.Proofs.Storing

/-!
# Updating twice

An update can be repeated if setters store into fields. Not because each of its writes can:
between the first write into a field and the end of the document another may have come, with
the same name, or with an alias of it, or through the creator for the same side, and the
repetition undoes it at first. But then it comes again. So what has to be compared is not one
write with itself but all of them with all of them, and of these only the last one for each
field counts.

That the repetition is accepted is the other half. Each value is accepted or refused on its
own account, so it is accepted in the second run as in the first.
-/

namespace BeanBinding

variable {σ : Type}

namespace Deserializer

variable {d : Deserializer σ} {fields : Fields σ} {type : BeanType} {bean left : Bean σ}

/-- Setting values one after the other is storing something, the same for all beans. -/
theorem exists_putAll {xs : List (Settable σ × Option Value)}
    (hstores : ∀ x ∈ xs, ∃ f, fields.StoresIn type f x.1.set) (hb : bean.type = type)
    (hrun : d.setAll xs bean = .ok () left) :
    ∃ ws, ∀ other : Bean σ, other.type = type →
      d.setAll xs other = .ok () (fields.putAll ws other) := by
  induction xs generalizing bean with
  | nil => exact ⟨[], fun _ _ => rfl⟩
  | cons x xs ih =>
    obtain ⟨s, value⟩ := x
    obtain ⟨hs, hrest⟩ := List.forall_mem_cons.mp hstores
    rw [setAll] at hrun
    obtain ⟨_, next, hnext, hafter⟩ := change_bind_eq_ok_iff.mp hrun
    obtain ⟨f, hf⟩ := hs
    obtain ⟨c, hput, hc⟩ := (hf value).exists_put hb (set_eq_ok_iff.mp hnext)
    obtain ⟨ws, hws⟩ := ih hrest (by rw [hput, Fields.type_put, hb]) hafter
    refine ⟨⟨f, c⟩ :: ws, fun other hother => ?_⟩
    rw [setAll, change_bind_ok (set_eq_ok_iff.mpr (hc other hother)), Fields.putAll_cons]
    exact hws _ (by rw [Fields.type_put, hother])

/-- **Values that have been set are set again, and nothing changes.** -/
theorem setAll_again {xs : List (Settable σ × Option Value)}
    (hstores : ∀ x ∈ xs, ∃ f, fields.StoresIn type f x.1.set) (hb : bean.type = type)
    (hrun : d.setAll xs bean = .ok () left) :
    left.type = type ∧ d.setAll xs left = .ok () left := by
  obtain ⟨ws, hws⟩ := exists_putAll hstores hb hrun
  have hleft : left = fields.putAll ws bean := by
    rw [hws bean hb] at hrun
    cases hrun
    rfl
  have htype : left.type = type := by rw [hleft, Fields.type_putAll, hb]
  refine ⟨htype, (hws left htype).trans ?_⟩
  rw [hleft, Fields.putAll_putAll_self]

/-- Every change is asked for by a request. -/
theorem exists_request_of_mem {qs : List (Request σ)} {xs : List (Settable σ × Option Value)}
    (h : changesOf qs = .ok xs) {x : Settable σ × Option Value} (hx : x ∈ xs) :
    ∃ q ∈ qs, q.change = .ok (some x) := by
  induction qs generalizing xs with
  | nil =>
    cases h
    cases hx
  | cons q qs ih =>
    obtain ⟨change, hchange, h⟩ := bind_eq_ok_iff.mp h
    obtain ⟨ys, hys, h⟩ := bind_eq_ok_iff.mp h
    cases h
    rcases List.mem_append.mp hx with hx | hx
    · refine ⟨q, List.mem_cons_self, ?_⟩
      rw [hchange, Option.mem_toList.mp hx]
    · obtain ⟨q', hq', hchange'⟩ := ih hys hx
      exact ⟨q', List.mem_cons_of_mem q hq', hchange'⟩

/-- Requests that store are carried out again, and nothing changes. -/
theorem Applies.again {qs : List (Request σ)} (h : d.Applies qs bean left)
    (hstores : ∀ q ∈ qs, ∀ s value, q.change = .ok (some (s, value)) →
      ∃ f, fields.StoresIn type f s.set) (hb : bean.type = type) :
    left.type = type ∧ d.Applies qs left left := by
  obtain ⟨xs, hxs, hset⟩ := h
  have hmem : ∀ x ∈ xs, ∃ f, fields.StoresIn type f x.1.set := by
    rintro ⟨s, value⟩ hx
    obtain ⟨q, hq, hchange⟩ := exists_request_of_mem hxs hx
    exact hstores q hq s value hchange
  obtain ⟨htype, hagain⟩ := setAll_again hmem hb hset
  exact ⟨htype, xs, hxs, hagain⟩

/-- **An update succeeds if its requests are carried out and the document ends as it should.** -/
theorem update_eq_ok_iff {document : Document} :
    d.update document bean = .ok () left ↔ bean.type = d.bean ∧
      ∃ qs, d.requests document = .ok (qs, .ok ()) ∧ d.Applies qs bean left ∧ Whole qs := by
  by_cases hb : bean.type = d.bean
  · rw [update_eq_requests hb]
    cases d.requests document with
    | error e => simp
    | ok found =>
      obtain ⟨qs, ending⟩ := found
      simp only [change_bind_eq_ok_iff, lift_eq_ok_iff, hb, true_and, Except.ok.injEq,
        Prod.mk.injEq]
      constructor
      · rintro ⟨_, next, hqs, rfl, rfl⟩
        exact ⟨qs, ⟨rfl, rfl⟩, forM_carryOut_eq_ok_iff.mp hqs⟩
      · rintro ⟨_, ⟨rfl, rfl⟩, hqs⟩
        exact ⟨(), left, forM_carryOut_eq_ok_iff.mpr hqs, rfl, rfl⟩
  · rw [update_of_other_type hb]
    simp [hb]

end Deserializer

/--
**An update can be repeated.**

Let the properties and creators of a deserializer store into fields, each on its own: what
they store, and whether they accept a value, does not depend on what the bean holds. If a
document updates a bean, it updates the bean that results from this once more, and leaves it
as it is. That holds for documents of either form, for names that come several times, and
for properties that store into the same field.
-/
theorem update_idempotent (d : Deserializer σ) (fields : Fields σ)
    (hstores : ∀ s, s ∈ d.properties ∨ s ∈ d.creators → ∃ f, fields.StoresIn d.bean f s.set)
    {document : Document} {bean left : Bean σ}
    (h : d.update document bean = .ok () left) : d.update document left = .ok () left := by
  obtain ⟨hb, qs, hrequests, happlies, hwhole⟩ := Deserializer.update_eq_ok_iff.mp h
  -- the document asks for the same changes again
  obtain ⟨htype, hagain⟩ := happlies.again
    (fun q hq s value hchange => hstores s (Deserializer.mem_of_request hrequests hq hchange)) hb
  exact Deserializer.update_eq_ok_iff.mpr ⟨htype, qs, hrequests, hagain, hwhole⟩

/-! ### Sides with two names -/

namespace Pair

/-- The left side, under another name. -/
def firstProperty : Property (Tree × Tree) := left.property type "first" number

/-- The right side, under another name, which can only be written. -/
def secondProperty : Property (Tree × Tree) :=
  (Property.declare type "second" number).setter right.set

theorem sets_second : sides.Sets .right secondProperty := by
  have hset : ∀ s t, right.set s t = sides.store .right t s := fun _ _ => rfl
  exact (Fields.Sets.declare _ _ _).setter (fun t => t) hset

/-- A draft for pairs whose sides have two names each; one of the four is a creator's. -/
def twoNamesDraft : DeserializerDraft (Tree × Tree) :=
  ⟨type, .object, true,
    [.virtual rightProperty, .virtual firstProperty, .virtual secondProperty],
    .ofIntrospection (made leftProperty)⟩

end Pair

/-- The left side comes three times, and a null that is passed over; then all come again. -/
theorem pair_updated_twice :
    let document := Document.ofEntries (.start .streamed) [("left", .number (.ofInt 1)),
      ("first", .number (.ofInt 2)), ("right", .number (.ofInt 3)), ("second", .null),
      ("left", .number (.ofInt 4))]
    ∃ d, Pair.twoNamesDraft.build = .ok d ∧
      d.update document (Pair.of 0 0) = .ok () (Pair.of 4 3) ∧
      d.update document (Pair.of 4 3) = .ok () (Pair.of 4 3) := by
  intro document
  obtain ⟨d, hd⟩ : ∃ d, Pair.twoNamesDraft.build = .ok d := ⟨_, rfl⟩
  have hupdate : d.update document (Pair.of 0 0) = .ok () (Pair.of 4 3) := by
    cases hd
    rfl
  refine ⟨d, hd, hupdate, update_idempotent d Pair.sides ?_ hupdate⟩
  cases hd
  rintro s (hs | hs)
  · rcases List.mem_cons.mp hs with rfl | hs
    · exact ⟨Pair.Side.right, Fields.storesIn_virtual (Pair.sets_right _ _).storesIn⟩
    · rcases List.mem_pair.mp hs with rfl | rfl
      · exact ⟨Pair.Side.left, Fields.storesIn_virtual (Pair.sets_left _ _).storesIn⟩
      · exact ⟨Pair.Side.right, Fields.storesIn_virtual Pair.sets_second.storesIn⟩
  · exact ⟨Pair.Side.left, (Pair.storesIn_leftCreator hs).2 _⟩

end BeanBinding
