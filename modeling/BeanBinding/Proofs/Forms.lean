import BeanBinding.Proofs.Omitting

/-!
# Objects and lists

The same writers write a bean as an object or as a list. An object has an entry for each
writer that has something to write; a list has an element for each writer, so something
stands there for those that have nothing: the value that a writer has for null, or null
itself. That is the only difference. Where an object has an entry, a list has the same
value, and where it has none, what stands in the list tells nothing about the bean.

So the two forms fail together, but for one case: what stands for an entry that is left out
is written in a list only, and a value without a JSON form cannot be.
-/

namespace BeanBinding

variable {σ : Type}

/-! ## One writer -/

namespace Writer

variable {w : Writer σ} {bean : Bean σ}

/--
What stands in a list for what a writer puts into an object: the same, or, if it puts nothing
there, its value for null.
-/
def StandsFor (w : Writer σ) : Option Json → Json → Prop
  | some k, j => j = k
  | none, j =>
    match w.nullSerializer with
    | some v => v.toJson = .ok j
    | none => j = .null

/-- The value that a writer has for null, if it has one, has a JSON form. -/
def WritesNull (w : Writer σ) : Prop := ∀ v, w.nullSerializer = some v → ∃ j, v.toJson = .ok j

theorem placeholder_eq_ok_iff {j : Json} : w.placeholder = .ok j ↔ w.StandsFor none j := by
  rw [placeholder, StandsFor]
  cases w.nullSerializer with
  | none => simp [eq_comm]
  | some v => exact mapError_eq_ok_iff

/-- An element stands for what the writer puts into an object. -/
theorem element_eq_ok_iff_standsFor {j : Json} :
    w.element bean = .ok j ↔ ∃ x, w.field bean = .ok x ∧ w.StandsFor x j := by
  rw [element_eq_ok_iff, ← field_eq_none_iff, placeholder_eq_ok_iff]
  constructor
  · rintro (hfield | ⟨hfield, hj⟩)
    · exact ⟨some j, hfield, rfl⟩
    · exact ⟨none, hfield, hj⟩
  · rintro ⟨x, hfield, hj⟩
    cases x with
    | none => exact .inr ⟨hfield, hj⟩
    | some k =>
      rw [StandsFor] at hj
      exact .inl (hj ▸ hfield)

/-- Something can stand for whatever is put into an object. -/
theorem WritesNull.exists_standsFor (hw : w.WritesNull) (x : Option Json) :
    ∃ j, w.StandsFor x j := by
  cases x with
  | some k => exact ⟨k, rfl⟩
  | none =>
    simp only [StandsFor]
    cases hv : w.nullSerializer with
    | none => exact ⟨.null, rfl⟩
    | some v => exact hw v hv

end Writer

/-! ## All writers -/

namespace Serializer

variable {bean : Bean σ} {ws : List (Writer σ)}

/-- The entries of an object, given what each writer puts into it. -/
def entriesOf (ws : List (Writer σ)) (xs : List (Option Json)) : List (String × Json) :=
  (ws.zip xs).filterMap fun e => e.2.map (e.1.name, ·)

theorem entriesOf_cons (w : Writer σ) (x : Option Json) (xs : List (Option Json)) :
    entriesOf (w :: ws) (x :: xs) = (x.map (w.name, ·)).toList ++ entriesOf ws xs := by
  cases x with
  | none => rfl
  | some k => rfl

/-- The entries are written if no writer fails: then each puts something or nothing. -/
theorem fields_eq_ok_iff {es : List (String × Json)} :
    fields bean ws = .ok es ↔
      ∃ xs, List.Forall₂ (fun w x => w.field bean = .ok x) ws xs ∧ entriesOf ws xs = es := by
  induction ws generalizing es with
  | nil => simp [fields, entriesOf]
  | cons w ws ih =>
    -- what the first writer puts there comes before what the others put there
    have hstep : fields bean (w :: ws) = .ok es ↔ ∃ x rest, w.field bean = .ok x ∧
        fields bean ws = .ok rest ∧ (x.map (w.name, ·)).toList ++ rest = es := by
      rw [fields, bind_eq_ok_iff]
      refine exists_congr fun x => ?_
      cases x with
      | none => simp
      | some k =>
        simp only [bind_eq_ok_iff, exists_and_left]
        refine and_congr_right fun _ => exists_congr fun rest => and_congr_right fun _ => ?_
        exact ⟨Except.ok.inj, congrArg _⟩
    rw [hstep]
    constructor
    · rintro ⟨x, rest, hx, hrest, rfl⟩
      obtain ⟨xs, hxs, rfl⟩ := ih.mp hrest
      exact ⟨x :: xs, .cons hx hxs, entriesOf_cons w x xs⟩
    · rintro ⟨_, hxs, rfl⟩
      cases hxs with
      | cons hx hxs => exact ⟨_, _, hx, ih.mpr ⟨_, hxs, rfl⟩, (entriesOf_cons w _ _).symm⟩

/-- The elements are written if no writer fails on its own. -/
theorem elements_eq_ok_iff {js : List Json} :
    elements bean ws = .ok js ↔ List.Forall₂ (fun w j => w.element bean = .ok j) ws js := by
  refine ⟨forall₂_of_elements, fun h => ?_⟩
  induction h with
  | nil => rfl
  | cons hj _ ih =>
    rw [elements, hj, ih]
    rfl

/-- Each writer puts something or nothing into an object, and that decides on its element. -/
theorem elements_eq_ok_iff_exists_fields {js : List Json} :
    elements bean ws = .ok js ↔
      ∃ xs, List.Forall₂ (fun w x => w.field bean = .ok x) ws xs ∧
        List.Forall₂ (fun e j => e.1.StandsFor e.2 j) (ws.zip xs) js := by
  rw [elements_eq_ok_iff]
  induction ws generalizing js with
  | nil => simp
  | cons w ws ih =>
    constructor
    · intro h
      cases h with
      | cons hj hjs =>
        obtain ⟨x, hx, hstands⟩ := Writer.element_eq_ok_iff_standsFor.mp hj
        obtain ⟨xs, hxs, hrest⟩ := ih.mp hjs
        exact ⟨x :: xs, .cons hx hxs, .cons hstands hrest⟩
    · rintro ⟨_, hxs, hjs⟩
      cases hxs with
      | cons hx hxs =>
        cases hjs with
        | cons hj hjs =>
          exact .cons (Writer.element_eq_ok_iff_standsFor.mpr ⟨_, hx, hj⟩) (ih.mpr ⟨_, hxs, hjs⟩)

/-- If an object is written, a list fails only on what stands for an entry left out. -/
theorem exists_elements {es : List (String × Json)} (h : fields bean ws = .ok es)
    (hnull : ∀ w ∈ ws, w.WritesNull) : ∃ js, elements bean ws = .ok js := by
  obtain ⟨xs, hxs, -⟩ := fields_eq_ok_iff.mp h
  clear h
  induction hxs with
  | nil => exact ⟨[], rfl⟩
  | @cons w x ws xs hx _ ih =>
    obtain ⟨js, hjs⟩ := ih fun w' hw' => hnull w' (List.mem_cons_of_mem _ hw')
    obtain ⟨j, hj⟩ := (hnull w List.mem_cons_self).exists_standsFor x
    have helement : w.element bean = .ok j := Writer.element_eq_ok_iff_standsFor.mpr ⟨x, hx, hj⟩
    exact ⟨j :: js, by rw [elements, helement, hjs]; rfl⟩

/-- With distinct names, an object has under a name what the writer of that name puts there. -/
theorem lookup_name {es : List (String × Json)} (h : fields bean ws = .ok es)
    (hnodup : (ws.map (·.name)).Nodup) {w : Writer σ} (hw : w ∈ ws) {x : Option Json}
    (hx : w.field bean = .ok x) : es.lookup w.name = x := by
  have hnames : (es.map (·.1)).Nodup := hnodup.sublist (names_sublist h)
  cases x with
  | none =>
    have hnot := (name_not_mem_iff h hnodup hw).mpr (Writer.field_eq_none_iff.mp hx)
    rw [List.lookup_eq_none_iff]
    intro e he
    exact bne_iff_ne.mpr fun hname => hnot (hname ▸ List.mem_map_of_mem he)
  | some j =>
    exact (lookup_eq_some_iff_mem hnames).mpr ((mem_fields_iff h).mpr ⟨w, hw, rfl, hx⟩)

/--
If a list is written, each of its places has the element of the writer there, which stands
for what the writer puts into an object; and the object is written as well.
-/
theorem exists_fields_of_elements {js : List Json} (h : elements bean ws = .ok js) :
    ∃ xs, fields bean ws = .ok (entriesOf ws xs) ∧ js.length = ws.length ∧
      xs.length = ws.length ∧ ∀ (k : Nat) (w : Writer σ), ws[k]? = some w → ∃ j x,
        js[k]? = some j ∧ xs[k]? = some x ∧ w.field bean = .ok x ∧ w.StandsFor x j ∧
          ((ws.map (·.name)).Nodup → (entriesOf ws xs).lookup w.name = x) := by
  obtain ⟨xs, hxs, hstands⟩ := elements_eq_ok_iff_exists_fields.mp h
  have hfields : fields bean ws = .ok (entriesOf ws xs) := fields_eq_ok_iff.mpr ⟨xs, hxs, rfl⟩
  have hlength := (forall₂_of_elements h).length_eq
  refine ⟨xs, hfields, hlength.symm, hxs.length_eq.symm, fun k w hw => ?_⟩
  obtain ⟨hk, rfl⟩ := List.getElem?_eq_some_iff.mp hw
  have hkx : k < xs.length := hxs.length_eq ▸ hk
  have hkj : k < js.length := hlength ▸ hk
  have hkz : k < (ws.zip xs).length := by
    rw [hstands.length_eq]
    exact hkj
  have hfield : ws[k].field bean = .ok xs[k] := hxs.get hk hkx
  have hstand := hstands.get hkz hkj
  rw [List.get_eq_getElem, List.get_eq_getElem, List.getElem_zip] at hstand
  exact ⟨js[k], xs[k], List.getElem?_eq_getElem hkj, List.getElem?_eq_getElem hkx, hfield,
    hstand, fun hnodup => lookup_name hfields hnodup (List.getElem_mem hk) hfield⟩

end Serializer

/-! ## Both forms of a bean -/

/--
**A list says what an object says.**

If a bean is written as a list, then it is written as an object as well. The list has one
element for each writer. Each writer puts a value into the object or nothing: the entries
are those values, in order and under the names of their writers. The element of a writer is
that value, or, if there is none, its value for null, or null. If the names are distinct, the
value of a writer is what the object has under its name.

If a bean is written as an object, and the values for null can be written, then it is
written as a list as well.
-/
theorem list_says_what_object_says (type : BeanType) (ws : List (Writer σ)) (bean : Bean σ) :
    let list := (⟨type, .array, ws⟩ : Serializer σ).serialize bean
    let object := (⟨type, .object, ws⟩ : Serializer σ).serialize bean
    (∀ out, list = .ok out → ∃ js xs, out = .list js ∧ js.length = ws.length ∧
      object = .ok (.record (Serializer.entriesOf ws xs)) ∧ xs.length = ws.length ∧
      ∀ (k : Nat) (w : Writer σ), ws[k]? = some w → ∃ j x, js[k]? = some j ∧
        xs[k]? = some x ∧ w.field bean = .ok x ∧ w.StandsFor x j ∧
        ((ws.map (·.name)).Nodup → (Serializer.entriesOf ws xs).lookup w.name = x)) ∧
    (∀ out, object = .ok out → (∀ w ∈ ws, w.WritesNull) → ∃ js, list = .ok (.list js)) := by
  intro list object
  constructor
  · intro out hout
    obtain ⟨htype, js, hjs, rfl⟩ := (Serializer.serialize_eq_ok_iff_elements rfl).mp hout
    obtain ⟨xs, hfields, hlength, hxs, hplaces⟩ := Serializer.exists_fields_of_elements hjs
    have hobject : object = .ok (.record (Serializer.entriesOf ws xs)) :=
      (Serializer.serialize_eq_ok_iff_fields rfl).mpr ⟨htype, _, hfields, rfl⟩
    exact ⟨js, xs, rfl, hlength, hobject, hxs, hplaces⟩
  · intro out hout hnull
    obtain ⟨htype, es, hes, -⟩ := (Serializer.serialize_eq_ok_iff_fields rfl).mp hout
    obtain ⟨js, hjs⟩ := Serializer.exists_elements hes hnull
    exact ⟨js, (Serializer.serialize_eq_ok_iff_elements rfl).mpr ⟨htype, js, hjs, rfl⟩⟩

/-! ### A label that is left out -/

namespace Labelled

/-- A writer of the label that leaves out an empty one, and writes a dash for null. -/
def dashed : Writer (Tree × Option Tree) :=
  { Writer.declare "label" text (.introspected label) with
    nullSerializer := some ⟨text, .text "-"⟩
    suppression := some .empty }

/-- A writer of the number, and one of the label. -/
def writers : List (Writer (Tree × Option Tree)) :=
  [.declare "number" Pair.number (.introspected number), dashed]

end Labelled

/-- An empty label is left out of an object; in a list, a dash stands for it. -/
theorem empty_label_stood_for :
    let object := (⟨Labelled.type, .object, Labelled.writers⟩ : Serializer _).serialize
      (Labelled.of 1 (some ""))
    let list := (⟨Labelled.type, .array, Labelled.writers⟩ : Serializer _).serialize
      (Labelled.of 1 (some ""))
    object = .ok (.record [("number", .number (.ofInt 1))]) ∧
      list = .ok (.list [.number (.ofInt 1), .string "-"]) ∧
      (∃ xs, object = .ok (.record (Serializer.entriesOf Labelled.writers xs)) ∧
        xs[1]? = some none) ∧
      (∃ js, list = .ok (.list js)) := by
  intro object list
  have hobject : object = .ok (.record [("number", .number (.ofInt 1))]) := rfl
  have hlist : list = .ok (.list [.number (.ofInt 1), .string "-"]) := rfl
  obtain ⟨hforward, hbackward⟩ :=
    list_says_what_object_says Labelled.type Labelled.writers (Labelled.of 1 (some ""))
  refine ⟨hobject, hlist, ?_, ?_⟩
  · obtain ⟨js, xs, -, -, hxs, -, hplaces⟩ := hforward _ hlist
    obtain ⟨j, x, -, hx, hfield, -⟩ := hplaces 1 Labelled.dashed rfl
    cases hfield
    exact ⟨xs, hxs, hx⟩
  refine hbackward _ hobject fun w hw v hv => ?_
  rcases List.mem_pair.mp hw with rfl | rfl
  · cases hv
  · cases hv
    exact ⟨.string "-", rfl⟩

end BeanBinding
