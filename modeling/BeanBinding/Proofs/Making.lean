import BeanBinding.Proofs.Setting
import BeanBinding.Proofs.Stopping

/-!
# Making a bean is updating a new one

A bean without creators is made before the document is looked at, and then filled. Filling
and updating are written twice: a new bean takes its properties from one table, an update
looks for creators as well. Where there are none, both run the same changes, so a document
gives, or fails to give, what it would make of a bean that was made beforehand.

That holds wherever the document goes wrong, since the changes themselves agree and not
only what they lead to (`create_eq_fill`).
-/

namespace BeanBinding

variable {σ : Type}

/-- The document looks like a bean of a shape: it has entries, or items. -/
def Document.Fits (document : Document) : Shape → Prop
  | .object => ∃ es ending, document.seenAs .object = .entries es ending
  | .array => ∃ is ending, document.seenAs .array = .items is ending

namespace Deserializer

variable {d : Deserializer σ} {document : Document}

/-- Without creators, entries fill a new bean as they update another. -/
theorem fillEntries_eq_updateEntries (hc : d.creators = []) (r : Position)
    (ending : Option Fault) (es : List Entry) :
    d.fillEntries r ending es = d.updateEntries r ending es := by
  rw [fillEntries_eq_handed, updateEntries_eq_handed, updated_eq_property hc]

/-! ## Documents with entries -/

section

variable {r : Position} {ending : Option Fault} {es : List Entry} {bean left : Bean σ}

/-- Entries are set on a new bean, unless they have to be collected first. -/
theorem create_entries (hshape : d.shape = .object) :
    d.create ⟨r, .entries es ending⟩ =
      if d.usesCreators then d.collectEntries r ending es d.pending >>= d.complete
      else fill d.instantiate (d.updateEntries r ending es) := by
  cases huses : d.usesCreators with
  | true => simp only [create, hshape, Document.seenAs, huses, if_true]
  | false =>
    have hc := usesCreators_eq_false_iff.mp huses
    simp only [create, hshape, Document.seenAs, huses, Bool.false_eq_true, if_false,
      fillEntries_eq_updateEntries hc]

/-- Nobody makes anything of entries where items are due. -/
theorem create_entries_of_array (hshape : d.shape = .array) :
    d.create ⟨r, .entries es ending⟩ = .error (.mismatch .map d.expecting) := by
  simp only [create, hshape, Document.seenAs]
  rfl

theorem update_of_other_type (hb : bean.type ≠ d.bean) :
    d.update document bean = .error (.codec (.beanMismatch d.bean.name)) bean := by
  have hget : (get : ChangeM ReadError σ (Bean σ)) bean = .ok bean bean := rfl
  rw [update, change_bind_ok hget, if_pos hb]
  rfl

theorem update_entries_eq_ok_iff :
    d.update ⟨r, .entries es ending⟩ bean = .ok () left ↔
      bean.type = d.bean ∧ d.shape = .object ∧ d.updateEntries r ending es bean = .ok () left := by
  by_cases hb : bean.type = d.bean
  · rw [update_typed hb]
    cases hshape : d.shape with
    | object => simp [Document.seenAs, hb]
    | array =>
      simp only [Document.seenAs, reduceCtorEq, false_and, and_false, iff_false]
      exact fun h => by cases h
  · rw [update_of_other_type hb]
    simp [hb]

end

/-! ## Documents of either form -/

/-- **What fills a new bean is what updates any bean of its type.** -/
theorem create_eq_fill (hc : d.creators = []) (hfits : document.Fits d.shape) :
    ∃ change, d.create document = fill d.instantiate change ∧
      ∀ bean : Bean σ, bean.type = d.bean → d.update document bean = change bean := by
  have huses := usesCreators_eq_false_iff.mpr hc
  cases hshape : d.shape with
  | object =>
    rw [hshape] at hfits
    obtain ⟨es, ending, hes⟩ := hfits
    refine ⟨d.updateEntries document.position ending es, ?_, fun bean hb => ?_⟩
    · simp only [create, hshape, hes, huses, Bool.false_eq_true, if_false,
        fillEntries_eq_updateEntries hc]
    · simp only [update_typed hb, hshape, hes]
  | array =>
    rw [hshape] at hfits
    obtain ⟨is, ending, his⟩ := hfits
    refine ⟨d.updateItems document.position ending d.elements is, ?_, fun bean hb => ?_⟩
    · simp only [create, hshape, his, huses, Bool.false_eq_true, if_false,
        fillItems_eq_updateItems]
    · simp only [update_typed hb, hshape, his]

end Deserializer

/--
**A bean is made first and updated then.**

Let a deserializer have no creators, and let the beans that its instantiator makes be of its
type. From a document that looks like such a bean, as far as it can be read, a bean is
created as follows. If none can be made to start from, creating fails for that reason.
Otherwise it gives the bean that an update with the document makes of the new one, or it
fails with the error of that update.
-/
theorem create_eq_update_of_made (d : Deserializer σ) (hc : d.creators = [])
    (htyped : ∀ made, d.instantiator.make = .ok made → made.type = d.bean) {document : Document}
    (hfits : document.Fits d.shape) :
    (∀ cause, d.instantiator.make = .error cause →
      d.create document = .error (.codec (.instantiation d.bean.name cause))) ∧
    ∀ made, d.instantiator.make = .ok made →
      d.create document =
        match d.update document made with
        | .ok () bean => .ok bean
        | .error e _ => .error e := by
  obtain ⟨change, hcreate, hupdate⟩ := Deserializer.create_eq_fill hc hfits
  refine ⟨fun cause hmake => ?_, fun made hmake => ?_⟩
  · rw [hcreate, Deserializer.instantiate_eq_error hmake]
    rfl
  · rw [hcreate, Deserializer.instantiate_eq_ok hmake, hupdate made (htyped made hmake)]
    rfl

/--
Of a list of two numbers the right one is refused, for a new pair as for the pair of zeros
that it is made from; a list of one number is enough for a pair.
-/
theorem closed_pair_made_first :
    let one := Document.ofList (.start .streamed) [.number (.ofInt 1)]
    let two := Document.ofList (.start .streamed) [.number (.ofInt 1), .number (.ofInt 2)]
    ∃ d, Pair.closedDraft.build = .ok d ∧ d.instantiator.make = .ok (Pair.of 0 0) ∧
      d.create one = .ok (Pair.of 1 0) ∧
      d.create two = .error (.codec (.access "Pair" "right" (.rejected "closed"))) := by
  intro one two
  obtain ⟨d, hd⟩ : ∃ d, Pair.closedDraft.build = .ok d := ⟨_, rfl⟩
  obtain ⟨hkeeps, -⟩ := DeserializerDraft.indexed_of_build hd
  have hmake : d.instantiator.make = .ok (Pair.of 0 0) := by
    rw [hkeeps.instantiator]
    rfl
  have htyped : ∀ made, d.instantiator.make = .ok made → made.type = d.bean := by
    intro made h
    rw [hmake] at h
    cases h
    rw [hkeeps.bean]
    rfl
  have hfits : ∀ js, (Document.ofList (.start .streamed) js).Fits d.shape := by
    intro js
    rw [hkeeps.shape]
    exact ⟨_, _, rfl⟩
  have hcreate := fun js =>
    (create_eq_update_of_made d hkeeps.creators htyped (hfits js)).2 _ hmake
  refine ⟨d, hd, hmake, (hcreate _).trans ?_, (hcreate _).trans ?_⟩
  · cases hd
    rfl
  · cases hd
    rfl

end BeanBinding
