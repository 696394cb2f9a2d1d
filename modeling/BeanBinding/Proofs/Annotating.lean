import BeanBinding.Annotation
import BeanBinding.Proofs.InPlace

/-!
# What annotations say in the end

Annotations are made by calls, one after the other: a call mentions a kind, and may give one
of its attributes a value. They are a table of tables. Kinds are kept in order of first
mention, and under each kind its attributes; tables of either sort are changed in place.

However the calls are mixed, three things can be read off them:

* the kinds are those that are mentioned, with a value or without, in order of first mention;
* an attribute of a kind has the value that it was given last, if it was given any;
* it is that value alone whose type counts when a value of some type is asked for. An earlier
  one of the right type does not come to light behind a later one of another.
-/

namespace BeanBinding

/-! ## Attributes of one kind -/

/-- Attributes are kept in a table by name, and a later value is put in for an earlier one. -/
theorem setAttribute_eq (attr : String) (value : AttributeValue)
    (values : List (String × AttributeValue)) :
    setAttribute attr value values = changeEntry (·.1) attr (fun _ => (attr, value)) values := by
  induction values with
  | nil => rfl
  | cons entry values ih =>
    obtain ⟨name, old⟩ := entry
    rw [setAttribute, changeEntry, ih]
    by_cases hname : name = attr
    · rw [if_pos hname, if_pos hname, hname]
    · rw [if_neg hname, if_neg hname]

theorem lookup_eq_find? (values : List (String × AttributeValue)) (name : String) :
    values.lookup name = (values.find? fun entry => entry.1 = name).map (·.2) := by
  induction values with
  | nil => rfl
  | cons entry values ih =>
    obtain ⟨attr, value⟩ := entry
    by_cases hname : attr = name
    · simp [hname]
    · have hbeq : (name == attr) = false := beq_eq_false_iff_ne.mpr fun h => hname h.symm
      simp [List.lookup_cons, hbeq, hname, ih]

theorem lookup_setAttribute (attr name : String) (value : AttributeValue)
    (values : List (String × AttributeValue)) :
    (setAttribute attr value values).lookup name =
      if name = attr then some value else values.lookup name := by
  have hfind : (changeEntry (·.1) attr (fun _ => (attr, value)) values).find?
        (fun entry => entry.1 = name) =
      if name = attr then some (attr, value) else values.find? fun entry => entry.1 = name := by
    refine find?_changeEntry ?_ values name
    intro entry
    rfl
  rw [setAttribute_eq, lookup_eq_find?, hfind, lookup_eq_find?]
  split
  · rfl
  · rfl

namespace Annotations

/-- The attributes of a kind; there are none if it has not been mentioned. -/
def attributes (as : Annotations) (kind : String) : List (String × AttributeValue) :=
  ((as.find? kind).map (·.values)).getD []

theorem value?_eq (as : Annotations) (kind attr : String) :
    as.value? kind attr = (as.attributes kind).lookup attr := by
  rw [value?, attributes]
  cases as.find? kind with
  | none => rfl
  | some a => rfl

theorem has_iff_mem_kinds {as : Annotations} {kind : String} :
    as.has kind = true ↔ kind ∈ as.kinds := by
  simp [has, find?, kinds]

/-! ## Calls -/

/-- A call that adds to annotations. -/
inductive Call where
  | mark (kind : String)
  | set (kind attr : String) (value : AttributeValue)

namespace Call

/-- The annotations once the call has been made. -/
def apply (as : Annotations) : Call → Annotations
  | mark kind => as.mark kind
  | set kind attr value => as.set kind attr value

/-- The kind that a call mentions. -/
def kind : Call → String
  | mark kind => kind
  | set kind _ _ => kind

/-- The value that a call gives an attribute of a kind, if it gives it one. -/
def given? (kind attr : String) : Call → Option AttributeValue
  | mark _ => none
  | set kind' attr' value => if kind' = kind ∧ attr' = attr then some value else none

/-- What a call makes of the attributes of its kind. -/
def change : Call → List (String × AttributeValue) → List (String × AttributeValue)
  | mark _ => id
  | set _ attr value => setAttribute attr value

/-- What a call makes of the annotation of its kind. -/
def annotation (c : Call) (old : Option Annotation) : Annotation :=
  ⟨c.kind, c.change ((old.map (·.values)).getD [])⟩

theorem kind_annotation (c : Call) (old : Option Annotation) : (c.annotation old).kind = c.kind :=
  rfl

end Call

/-- The annotations that calls make, in their order. -/
def madeBy (calls : List Call) : Annotations := calls.foldl Call.apply .empty

/-- The values that calls give an attribute of a kind, in order. -/
def given (calls : List Call) (kind attr : String) : List AttributeValue :=
  calls.filterMap (Call.given? kind attr)

theorem madeBy_concat (calls : List Call) (c : Call) :
    madeBy (calls ++ [c]) = c.apply (madeBy calls) :=
  List.foldl_concat ..

/-! ## One call -/

/-- Annotations are kept in a table by kind. -/
theorem updateKind_eq (c : Call) (entries : List Annotation) :
    updateKind c.kind c.change entries = changeEntry (·.kind) c.kind c.annotation entries := by
  induction entries with
  | nil => rfl
  | cons a entries ih =>
    rw [updateKind, changeEntry, ih]
    by_cases hkind : a.kind = c.kind
    · rw [if_pos hkind, if_pos hkind, hkind]
      rfl
    · rw [if_neg hkind, if_neg hkind]

theorem entries_apply (as : Annotations) (c : Call) :
    (c.apply as).entries = changeEntry (·.kind) c.kind c.annotation as.entries := by
  rw [← updateKind_eq]
  cases c with
  | mark kind => rfl
  | set kind attr value => rfl

theorem kinds_apply (as : Annotations) (c : Call) :
    (c.apply as).kinds = if c.kind ∈ as.kinds then as.kinds else as.kinds ++ [c.kind] := by
  rw [kinds, entries_apply]
  exact keys_changeEntry c.kind_annotation as.entries

theorem attributes_apply (as : Annotations) (c : Call) (kind : String) :
    (c.apply as).attributes kind =
      if kind = c.kind then c.change (as.attributes kind) else as.attributes kind := by
  rw [attributes, find?, entries_apply, find?_changeEntry c.kind_annotation]
  split
  · rename_i hkind
    rw [hkind]
    rfl
  · rfl

/-- A call changes the value that it gives, and no other. -/
theorem value?_apply (as : Annotations) (c : Call) (kind attr : String) :
    (c.apply as).value? kind attr = (c.given? kind attr).or (as.value? kind attr) := by
  rw [value?_eq, attributes_apply, value?_eq]
  cases c with
  | mark kind' =>
    -- the attributes stay, whether the kind was known or not
    show (if kind = kind' then as.attributes kind else as.attributes kind).lookup attr = _
    rw [ite_self]
    rfl
  | set kind' attr' value =>
    rw [Call.given?, Call.kind, Call.change]
    by_cases hkind : kind = kind'
    · rw [if_pos hkind, lookup_setAttribute]
      by_cases hattr : attr = attr'
      · simp [hkind, hattr]
      · simp [hattr, Ne.symm hattr]
    · simp [hkind, Ne.symm hkind]

/-! ## Calls in a row -/

theorem kinds_madeBy (calls : List Call) :
    (madeBy calls).kinds = (calls.map Call.kind).eraseDups := by
  induction calls using List.reverseRecOn with
  | nil => rfl
  | append_singleton calls c ih =>
    rw [madeBy_concat, kinds_apply, ih, List.map_append]
    exact (eraseDups_concat ..).symm

theorem value?_madeBy (calls : List Call) (kind attr : String) :
    (madeBy calls).value? kind attr = (given calls kind attr).getLast? := by
  induction calls using List.reverseRecOn with
  | nil => rfl
  | append_singleton calls c ih =>
    rw [madeBy_concat, value?_apply, ih, given, given, filterMap_concat, List.getLast?_append]
    cases c.given? kind attr with
    | none => rfl
    | some value => rfl

/-! ## Values of one type -/

/-- A value that is read as one of a type is the last one that was given, and is of that type. -/
theorem bind_value?_eq_some_iff {α : Type} {read : AttributeValue → Option α}
    {make : α → AttributeValue} (h : ∀ value a, read value = some a ↔ value = make a)
    {as : Annotations} {kind attr : String} {a : α} :
    (as.value? kind attr).bind read = some a ↔ as.value? kind attr = some (make a) := by
  simp only [Option.bind_eq_some_iff, h, exists_eq_right]

end Annotations

/--
**A later value takes the place of an earlier one.**

Let calls, in any order and number, make annotations. Their kinds are those that the calls
mention, once each and in order of first mention, and an annotation of a kind is there exactly
if the kind is mentioned. An attribute of a kind has the last value that it was given, or none
if it was given none. Asked for a value of a type, it has that last value if it is of the
type, and nothing otherwise, whatever was given before.
-/
theorem later_values_replace (calls : List Annotations.Call) :
    let as := Annotations.madeBy calls
    as.kinds.Nodup ∧ as.kinds = (calls.map Annotations.Call.kind).eraseDups ∧
      (∀ kind, as.has kind = true ↔ ∃ c ∈ calls, c.kind = kind) ∧
      ∀ kind attr,
        let last := (Annotations.given calls kind attr).getLast?
        as.value? kind attr = last ∧
          (∀ s, as.text? kind attr = some s ↔ last = some (.text s)) ∧
          (∀ b, as.bool? kind attr = some b ↔ last = some (.bool b)) ∧
          ∀ n, as.int? kind attr = some n ↔ last = some (.int n) := by
  intro as
  have hkinds : as.kinds = (calls.map Annotations.Call.kind).eraseDups :=
    Annotations.kinds_madeBy calls
  refine ⟨hkinds ▸ nodup_eraseDups _, hkinds, fun kind => ?_, fun kind attr => ?_⟩
  · rw [Annotations.has_iff_mem_kinds, hkinds, List.mem_eraseDups, List.mem_map]
  · intro last
    have hvalue : as.value? kind attr = last := Annotations.value?_madeBy calls kind attr
    rw [← hvalue]
    refine ⟨rfl, fun _ => Annotations.bind_value?_eq_some_iff fun value _ => ?_,
      fun _ => Annotations.bind_value?_eq_some_iff fun value _ => ?_,
      fun _ => Annotations.bind_value?_eq_some_iff fun value _ => ?_⟩
    · cases value <;> simp [AttributeValue.text?]
    · cases value <;> simp [AttributeValue.bool?]
    · cases value <;> simp [AttributeValue.int?]

example :
    let as := Annotations.madeBy
      [.set "JsonProperty" "index" (.int 2), .mark "Nonnull",
        .set "JsonProperty" "index" (.text "second")]
    as.kinds = ["JsonProperty", "Nonnull"] ∧ as.int? "JsonProperty" "index" = none := by
  decide

end BeanBinding
