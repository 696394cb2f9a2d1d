import BeanBinding.Proofs.Forms

/-!
# Names that are written

Before a serializer is built, the names of its writers are gone through in order, and the
first one that occurred before is refused. An empty draft is refused only if beans without
properties are an error. Nothing else is looked at, so these are all the reasons for which
a draft is refused.

It is enough to protect an object. Each writer adds one entry under its name or none, in
the order of the writers, so whatever is left out of an object, no name occurs twice in
it, and what stands under a name is what the one writer of that name put there.
-/

namespace BeanBinding

variable {σ : Type}

namespace SerializerDraft

/-! ## The first name that is repeated -/

/-- The names before the one that is found are distinct, and none of them was seen. -/
theorem firstRepeated_eq_some_iff {seen names : List String} {name : String} :
    firstRepeated seen names = some name ↔
      ∃ before after, names = before ++ name :: after ∧ before.Nodup ∧ (∀ n ∈ before, n ∉ seen) ∧
        (name ∈ before ∨ name ∈ seen) := by
  induction names generalizing seen with
  | nil => simp [firstRepeated]
  | cons first names ih =>
    rw [firstRepeated]
    by_cases hseen : first ∈ seen
    · rw [if_pos hseen]
      constructor
      · rintro ⟨⟩
        exact ⟨[], names, rfl, List.nodup_nil, by simp, .inr hseen⟩
      · rintro ⟨before, after, hsplit, -, hfresh, -⟩
        cases before with
        | nil => rw [(List.cons.inj hsplit).1]
        | cons n before =>
          -- the first name was seen, so none can stand before the one that is found
          obtain ⟨rfl, -⟩ := List.cons.inj hsplit
          exact absurd hseen (hfresh _ List.mem_cons_self)
    · rw [if_neg hseen, ih]
      constructor
      · rintro ⟨before, after, rfl, hnodup, hfresh, hname⟩
        have hfirst : first ∉ before := fun hmem => hfresh first hmem List.mem_cons_self
        refine ⟨first :: before, after, rfl, List.nodup_cons.mpr ⟨hfirst, hnodup⟩, ?_, ?_⟩
        · intro n hn
          rcases List.mem_cons.mp hn with rfl | hn
          · exact hseen
          · exact fun hmem => hfresh n hn (List.mem_cons_of_mem first hmem)
        · rcases hname with hname | hname
          · exact .inl (List.mem_cons_of_mem first hname)
          · rcases List.mem_cons.mp hname with rfl | hname
            · exact .inl List.mem_cons_self
            · exact .inr hname
      · rintro ⟨before, after, hsplit, hnodup, hfresh, hname⟩
        cases before with
        | nil =>
          obtain ⟨rfl, -⟩ := List.cons.inj hsplit
          rcases hname with hname | hname
          · cases hname
          · exact absurd hname hseen
        | cons n before =>
          obtain ⟨rfl, rfl⟩ := List.cons.inj hsplit
          obtain ⟨hfirst, hnodup⟩ := List.nodup_cons.mp hnodup
          refine ⟨before, after, rfl, hnodup, ?_, ?_⟩
          · intro n hn hmem
            rcases List.mem_cons.mp hmem with rfl | hmem
            · exact hfirst hn
            · exact hfresh n (List.mem_cons_of_mem _ hn) hmem
          · rcases hname with hname | hname
            · rcases List.mem_cons.mp hname with rfl | hname
              · exact .inr List.mem_cons_self
              · exact .inl hname
            · exact .inr (List.mem_cons_of_mem _ hname)

/-- The name of a writer occurs among the writers before it, and those have distinct names. -/
def RepeatsFirst (before : List (Writer σ)) (w : Writer σ) : Prop :=
  w.name ∈ before.map (·.name) ∧ (before.map (·.name)).Nodup

/-- The name that is found is that of the first writer that repeats one. -/
theorem firstRepeated_names_eq_some_iff {ws : List (Writer σ)} {name : String} :
    firstRepeated [] (ws.map (·.name)) = some name ↔
      ∃ before w after, ws = before ++ w :: after ∧ RepeatsFirst before w ∧ w.name = name := by
  rw [firstRepeated_eq_some_iff]
  constructor
  · rintro ⟨names, rest, hsplit, hnodup, -, hname⟩
    obtain ⟨before, behind, hws, rfl, hbehind⟩ := List.map_eq_append_iff.mp hsplit
    obtain ⟨w, after, rfl, rfl, -⟩ := List.map_eq_cons_iff.mp hbehind
    exact ⟨before, w, after, hws, ⟨hname.resolve_right (by simp), hnodup⟩, rfl⟩
  · rintro ⟨before, w, after, rfl, ⟨hname, hnodup⟩, rfl⟩
    exact ⟨before.map (·.name), after.map (·.name), by rw [List.map_append, List.map_cons],
      hnodup, by simp, .inl hname⟩

/-- There is such a writer exactly if two writers have one name. -/
theorem exists_repeatsFirst_iff {ws : List (Writer σ)} :
    (∃ before w after, ws = before ++ w :: after ∧ RepeatsFirst before w) ↔
      ∃ (j k : Nat) (v w : Writer σ), j < k ∧ ws[j]? = some v ∧ ws[k]? = some w ∧
        v.name = w.name := by
  constructor
  · rintro ⟨before, w, after, rfl, hname, -⟩
    obtain ⟨v, hv, hname⟩ := List.mem_map.mp hname
    obtain ⟨j, hj⟩ := List.mem_iff_getElem?.mp hv
    have hlt : j < before.length := (List.getElem?_eq_some_iff.mp hj).1
    exact ⟨j, before.length, v, w, hlt, by rw [List.getElem?_append_left hlt, hj], by simp, hname⟩
  · rintro ⟨j, k, v, w, hjk, hv, hw, hname⟩
    have hrepeated : firstRepeated [] (ws.map (·.name)) ≠ none := by
      intro hnone
      have hk : k < (ws.map (·.name)).length := by
        rw [List.length_map]
        exact (List.getElem?_eq_some_iff.mp hw).1
      refine List.nodup_iff_getElem?_ne_getElem?.mp (firstRepeated_eq_none_iff.mp hnone).1 j k
        hjk hk ?_
      rw [List.getElem?_map, List.getElem?_map, hv, hw, Option.map_some, Option.map_some, hname]
    obtain ⟨name, hfound⟩ := Option.ne_none_iff_exists'.mp hrepeated
    obtain ⟨before, w, after, hws, hrepeats, -⟩ := firstRepeated_names_eq_some_iff.mp hfound
    exact ⟨before, w, after, hws, hrepeats⟩

/-! ## Drafts that are refused -/

variable {draft : SerializerDraft σ}

/-- **A draft is refused if it is empty and must not be, or for the first name repeated.** -/
theorem build_eq_error_iff {e : CodecError} :
    draft.build = .error e ↔
      (draft.writers = [] ∧ draft.failOnEmpty = true ∧
        e = .build draft.bean.name .noProperties) ∨
        ∃ before w after, draft.writers = before ++ w :: after ∧ RepeatsFirst before w ∧
          e = .build draft.bean.name (.duplicateWriter w.name) := by
  rw [build, problem]
  by_cases hempty : (draft.writers.isEmpty && draft.failOnEmpty) = true
  · obtain ⟨hwriters, hfail⟩ := Bool.and_eq_true_iff.mp hempty
    rw [List.isEmpty_iff] at hwriters
    simp [hwriters, hfail, eq_comm]
  · have hnot : ¬ (draft.writers = [] ∧ draft.failOnEmpty = true ∧
        e = .build draft.bean.name .noProperties) := by
      rintro ⟨hwriters, hfail, -⟩
      exact hempty (by rw [hwriters, hfail]; rfl)
    rw [if_neg hempty, or_iff_right hnot]
    cases hfound : firstRepeated [] (draft.writers.map (·.name)) with
    | none =>
      -- no name is found, so no writer repeats one
      simp only [Option.map_none, reduceCtorEq, false_iff]
      rintro ⟨before, w, after, hwriters, hrepeats, -⟩
      rw [firstRepeated_names_eq_some_iff.mpr ⟨before, w, after, hwriters, hrepeats, rfl⟩] at hfound
      cases hfound
    | some name =>
      simp only [Option.map_some, Except.error.injEq]
      constructor
      · rintro rfl
        obtain ⟨before, w, after, hwriters, hrepeats, rfl⟩ :=
          firstRepeated_names_eq_some_iff.mp hfound
        exact ⟨before, w, after, hwriters, hrepeats, rfl⟩
      · rintro ⟨before, w, after, hwriters, hrepeats, rfl⟩
        rw [firstRepeated_names_eq_some_iff.mpr ⟨before, w, after, hwriters, hrepeats, rfl⟩]
          at hfound
        cases hfound
        rfl

end SerializerDraft

/-! ## Objects -/

/--
In an object no name occurs twice, whatever is left out: the names are some of those of the
writers, in their order, and each writer finds under its name what it put there.
-/
theorem Serializer.object_of_nodup {s : Serializer σ} (hs : s.shape = .object)
    (hnodup : (s.writers.map (·.name)).Nodup) {bean : Bean σ} {out : Json}
    (h : s.serialize bean = .ok out) :
    ∃ es, out = .record es ∧ (es.map (·.1)).Nodup ∧
      (es.map (·.1)).Sublist (s.writers.map (·.name)) ∧
      ∀ w ∈ s.writers, w.field bean = .ok (es.lookup w.name) := by
  obtain ⟨-, es, hes, rfl⟩ := (serialize_eq_ok_iff_fields hs).mp h
  have hnames := names_sublist hes
  refine ⟨es, rfl, hnodup.sublist hnames, hnames, fun w hw => ?_⟩
  obtain ⟨x, hx⟩ := exists_field hes hw
  rw [lookup_name hes hnodup hw hx, hx]

/--
**A serializer is built unless a name is repeated, and then no object repeats one.**

A draft is refused exactly if it has no writers though it must have some, or if two writers
have one name. The error in the second case names the first writer whose name occurred
before. Otherwise the serializer has the writers of the draft, and whatever object it
writes of a bean, the names in it are distinct and are a part of the names of the writers,
in their order; under the name of each writer is what this writer put there, or nothing.
-/
theorem built_serializers_repeat_no_name (draft : SerializerDraft σ) :
    ((∃ e, draft.build = .error e) ↔
      (draft.writers = [] ∧ draft.failOnEmpty = true) ∨
        ∃ (j k : Nat) (v w : Writer σ), j < k ∧ draft.writers[j]? = some v ∧
          draft.writers[k]? = some w ∧ v.name = w.name) ∧
    (∀ e, draft.build = .error e ↔
      (draft.writers = [] ∧ draft.failOnEmpty = true ∧
        e = .build draft.bean.name .noProperties) ∨
        ∃ before w after, draft.writers = before ++ w :: after ∧
          SerializerDraft.RepeatsFirst before w ∧
          e = .build draft.bean.name (.duplicateWriter w.name)) ∧
    (∀ s, draft.build = .ok s → s.writers = draft.writers ∧ (s.shape = .object →
      ∀ bean out, s.serialize bean = .ok out → ∃ es, out = .record es ∧
        (es.map (·.1)).Nodup ∧ (es.map (·.1)).Sublist (draft.writers.map (·.name)) ∧
        ∀ w ∈ draft.writers, w.field bean = .ok (es.lookup w.name))) := by
  refine ⟨?_, fun e => SerializerDraft.build_eq_error_iff, fun s hs => ?_⟩
  · rw [← SerializerDraft.exists_repeatsFirst_iff]
    constructor
    · rintro ⟨e, he⟩
      rcases SerializerDraft.build_eq_error_iff.mp he with
        ⟨hwriters, hfail, -⟩ | ⟨before, w, after, hwriters, hrepeats, -⟩
      · exact .inl ⟨hwriters, hfail⟩
      · exact .inr ⟨before, w, after, hwriters, hrepeats⟩
    · rintro (⟨hwriters, hfail⟩ | ⟨before, w, after, hwriters, hrepeats⟩)
      · exact ⟨_, SerializerDraft.build_eq_error_iff.mpr (.inl ⟨hwriters, hfail, rfl⟩)⟩
      · exact ⟨_, SerializerDraft.build_eq_error_iff.mpr
          (.inr ⟨before, w, after, hwriters, hrepeats, rfl⟩)⟩
  · obtain ⟨rfl, hnodup, -⟩ := SerializerDraft.build_eq_ok_iff.mp hs
    exact ⟨rfl, fun hshape bean out hout => Serializer.object_of_nodup hshape hnodup hout⟩

/-! ### A label that is left out, and one that is given twice -/

namespace Labelled

/-- A draft of objects with the given writers. -/
def draftOf (ws : List (Writer (Tree × Option Tree))) : SerializerDraft (Tree × Option Tree) :=
  ⟨type, .object, true, ws, none⟩

end Labelled

/--
A number and its label have different names, so an object without the label has one name. A
second label is refused.
-/
theorem labelled_names_distinct :
    (∃ s, (Labelled.draftOf Labelled.writers).build = .ok s ∧
      s.serialize (Labelled.of 1 (some "")) = .ok (.record [("number", .number (.ofInt 1))]) ∧
      ∃ es, Json.record [("number", .number (.ofInt 1))] = .record es ∧ (es.map (·.1)).Nodup ∧
        (es.map (·.1)).Sublist ["number", "label"] ∧ es.lookup "label" = none) ∧
      (Labelled.draftOf (Labelled.writers ++ Labelled.writers.reverse)).build =
        .error (.build "Labelled" (.duplicateWriter "label")) := by
  obtain ⟨-, -, hbuilt⟩ := built_serializers_repeat_no_name (Labelled.draftOf Labelled.writers)
  obtain ⟨-, herror, -⟩ := built_serializers_repeat_no_name
    (Labelled.draftOf (Labelled.writers ++ Labelled.writers.reverse))
  refine ⟨?_, (herror _).mpr (.inr ⟨Labelled.writers, Labelled.dashed, _, rfl, ?_, rfl⟩)⟩
  · obtain ⟨s, hs⟩ : ∃ s, (Labelled.draftOf Labelled.writers).build = .ok s := ⟨_, rfl⟩
    have hwrite : s.serialize (Labelled.of 1 (some "")) =
        .ok (.record [("number", .number (.ofInt 1))]) := by
      cases hs
      rfl
    have hshape : s.shape = .object := by
      cases hs
      rfl
    obtain ⟨es, hes, hnodup, hsublist, hfields⟩ := (hbuilt s hs).2 hshape _ _ hwrite
    have hlabel := hfields Labelled.dashed (List.mem_pair.mpr (.inr rfl))
    exact ⟨s, hs, hwrite, es, hes, hnodup, hsublist, (Except.ok.inj hlabel).symm⟩
  · exact ⟨by decide, by decide⟩

end BeanBinding
