import BeanBinding.Proofs.Accessors
import BeanBinding.Serializer.Draft
import Mathlib.Data.List.Nodup

/-!
# What a serializer writes

A serializer is a list of writers with distinct names. In object form it writes, in the
order of its writers, one entry for each writer that has something to write, and nothing
else. So an entry can be traced back to the writer of its name, and from there to the
bean: a writer without custom serializers writes the value of its property, or null,
unless it leaves it out or runs into a self-reference.
-/

namespace BeanBinding

variable {σ : Type}

/-! ## Results that may be errors -/

theorem bind_eq_ok_iff {ε α β : Type} {x : Except ε α} {f : α → Except ε β} {b : β} :
    x >>= f = .ok b ↔ ∃ a, x = .ok a ∧ f a = .ok b := by
  cases x with
  | error e => simp [bind, Except.bind]
  | ok a => simp [bind, Except.bind]

theorem mapError_eq_ok_iff {ε ε' α : Type} {x : Except ε α} {f : ε → ε'} {a : α} :
    x.mapError f = .ok a ↔ x = .ok a := by
  cases x with
  | error e => simp [Except.mapError]
  | ok b => simp [Except.mapError]

theorem map_eq_ok_iff {ε α β : Type} {x : Except ε α} {f : α → β} {b : β} :
    x.map f = .ok b ↔ ∃ a, x = .ok a ∧ f a = b := by
  cases x with
  | error e => simp [Except.map]
  | ok a => simp [Except.map]

/-! ## Built serializers -/

namespace SerializerDraft

theorem firstRepeated_eq_none_iff {seen names : List String} :
    firstRepeated seen names = none ↔ names.Nodup ∧ ∀ name ∈ names, name ∉ seen := by
  induction names generalizing seen with
  | nil => simp [firstRepeated]
  | cons name names ih =>
    rw [firstRepeated]
    by_cases hs : name ∈ seen
    · simp [hs]
    · rw [if_neg hs, ih, List.nodup_cons]
      grind

/-- What is wrong with a draft shows in the names of its writers. -/
theorem problem_congr {draft draft' : SerializerDraft σ}
    (hnames : draft.writers.map (·.name) = draft'.writers.map (·.name))
    (hempty : draft.failOnEmpty = draft'.failOnEmpty) : draft.problem = draft'.problem := by
  have hwriters : draft.writers.isEmpty = draft'.writers.isEmpty := by
    rw [← List.isEmpty_map (f := (·.name)), hnames, List.isEmpty_map]
  rw [problem, problem, hnames, hwriters, hempty]

/-- A serializer is its draft, which has writers if it must, and no name that occurs twice. -/
theorem build_eq_ok_iff {draft : SerializerDraft σ} {s : Serializer σ} :
    draft.build = .ok s ↔
      s = ⟨draft.bean, draft.shape, draft.writers⟩ ∧ (draft.writers.map (·.name)).Nodup ∧
        ¬ (draft.writers.isEmpty && draft.failOnEmpty) = true := by
  rw [build, problem]
  by_cases hempty : (draft.writers.isEmpty && draft.failOnEmpty) = true
  · simp [hempty]
  · rw [if_neg hempty]
    cases hrepeated : firstRepeated [] (draft.writers.map (·.name)) with
    | some name =>
      have hnodup : ¬ (draft.writers.map (·.name)).Nodup := by
        intro h
        rw [firstRepeated_eq_none_iff.mpr ⟨h, by simp⟩] at hrepeated
        cases hrepeated
      simp [hnodup]
    | none =>
      have hnodup := (firstRepeated_eq_none_iff.mp hrepeated).1
      simp [hnodup, hempty, eq_comm]

end SerializerDraft

/-! ## Entries -/

namespace Serializer

/-- The entries that are written are those that single writers write, under their names. -/
theorem mem_fields_iff {bean : Bean σ} {ws : List (Writer σ)} {es : List (String × Json)}
    (h : fields bean ws = .ok es) {name : String} {j : Json} :
    (name, j) ∈ es ↔ ∃ w ∈ ws, w.name = name ∧ w.field bean = .ok (some j) := by
  induction ws generalizing es with
  | nil =>
    rw [fields] at h
    cases h
    simp
  | cons w ws ih =>
    rw [fields] at h
    obtain ⟨written, hw, h⟩ := bind_eq_ok_iff.mp h
    cases written with
    | none =>
      rw [ih h]
      simp [hw]
    | some k =>
      obtain ⟨rest, hrest, h⟩ := bind_eq_ok_iff.mp h
      cases h
      simp only [List.mem_cons, Prod.mk.injEq, ih hrest, exists_eq_or_imp, hw, Except.ok.injEq,
        Option.some.injEq]
      grind

/-- Names are written in the order of the writers. -/
theorem names_sublist {bean : Bean σ} {ws : List (Writer σ)} {es : List (String × Json)}
    (h : fields bean ws = .ok es) : (es.map (·.1)).Sublist (ws.map (·.name)) := by
  induction ws generalizing es with
  | nil =>
    rw [fields] at h
    cases h
    exact List.Sublist.slnil
  | cons w ws ih =>
    rw [fields] at h
    obtain ⟨written, hw, h⟩ := bind_eq_ok_iff.mp h
    cases written with
    | none => exact (ih h).cons _
    | some k =>
      obtain ⟨rest, hrest, h⟩ := bind_eq_ok_iff.mp h
      cases h
      exact (ih hrest).cons_cons _

/-! ## Elements -/

/-- Each writer writes one element, at its place. -/
theorem forall₂_of_elements {bean : Bean σ} {ws : List (Writer σ)} {js : List Json}
    (h : elements bean ws = .ok js) :
    List.Forall₂ (fun w j => w.element bean = .ok j) ws js := by
  induction ws generalizing js with
  | nil =>
    rw [elements] at h
    cases h
    exact .nil
  | cons w ws ih =>
    rw [elements] at h
    obtain ⟨j, hj, h⟩ := bind_eq_ok_iff.mp h
    obtain ⟨rest, hrest, h⟩ := bind_eq_ok_iff.mp h
    cases h
    exact .cons hj (ih hrest)

/-- A list is written of a bean of the serializer's type, if its elements are. -/
theorem serialize_eq_ok_iff_elements {s : Serializer σ} (hs : s.shape = .array) {bean : Bean σ}
    {out : Json} :
    s.serialize bean = .ok out ↔
      bean.type = s.bean ∧ ∃ js, elements bean s.writers = .ok js ∧ out = .list js := by
  rw [serialize, hs]
  by_cases htype : bean.type = s.bean
  · rw [if_neg (not_not.mpr htype), map_eq_ok_iff]
    simp only [htype, true_and, eq_comm]
  · rw [if_pos htype]
    simp [htype]

/-- An object is written of a bean of the serializer's type, if its entries are. -/
theorem serialize_eq_ok_iff_fields {s : Serializer σ} (hs : s.shape = .object) {bean : Bean σ}
    {out : Json} :
    s.serialize bean = .ok out ↔
      bean.type = s.bean ∧ ∃ es, fields bean s.writers = .ok es ∧ out = .record es := by
  rw [serialize, hs]
  by_cases htype : bean.type = s.bean
  · rw [if_neg (not_not.mpr htype), map_eq_ok_iff]
    simp only [htype, true_and, eq_comm]
  · rw [if_pos htype]
    simp [htype]

/-- A serializer of lists writes a list, element by element. -/
theorem serialize_list {s : Serializer σ} (hs : s.shape = .array) {bean : Bean σ} {j : Json}
    (h : s.serialize bean = .ok j) :
    ∃ js, j = .list js ∧ List.Forall₂ (fun w j => w.element bean = .ok j) s.writers js := by
  obtain ⟨-, js, hjs, rfl⟩ := (serialize_eq_ok_iff_elements hs).mp h
  exact ⟨js, rfl, forall₂_of_elements hjs⟩

end Serializer

/-! ## Values -/

/-- A value has a written form, and the written form of no value is null. -/
def Written : Option Value → Json → Prop
  | none, j => j = .null
  | some v, j => v.toJson = .ok j

namespace Writer

/-- The writer comes upon the bean itself, and would have to write it. -/
def MeetsSelf (w : Writer σ) (bean : Bean σ) : Prop :=
  w.accessor.readable = true ∧ ∃ r, w.accessor.read bean = .ok (some r) ∧
    w.suppresses r.value = false ∧ bean.yieldsItself r = true

/-- The writer has no serializers of its own. -/
structure Plain (w : Writer σ) : Prop where
  readable : w.accessor.readable = true
  serializer : w.serializer = none
  nullSerializer : w.nullSerializer = none

/-- **A plain writer writes the value it reads.** -/
theorem written_of_field {w : Writer σ} (hw : w.Plain) {bean : Bean σ}
    (hself : ¬ w.MeetsSelf bean) {j : Json} (h : w.field bean = .ok (some j)) :
    ∃ value, (w.accessor.read bean).map (Option.map (·.value)) = .ok value ∧
      Written value j := by
  obtain ⟨e, he, hj⟩ := bind_eq_ok_iff.mp h
  rw [mapError_eq_ok_iff, emit, if_pos hw.readable] at he
  split at he
  · cases he
  · -- null, which is written as such without a serializer for it
    rename_i hread
    refine ⟨none, by rw [hread]; rfl, ?_⟩
    cases he
    simp only [emitNull, hw.nullSerializer] at hj
    split at hj
    · cases hj
    · cases hj
      rfl
  · rename_i r hread
    refine ⟨some r.value, by rw [hread]; rfl, ?_⟩
    split at he
    · cases he
      cases hj
    · rename_i hsup
      split at he
      · -- the bean itself, which was excluded
        rename_i hyield
        exact absurd ⟨hw.readable, r, hread, Bool.eq_false_iff.mpr hsup, hyield⟩ hself
      · cases he
        obtain ⟨k, hk, he⟩ := map_eq_ok_iff.mp hj
        cases he
        rw [hw.serializer, encode] at hk
        exact mapError_eq_ok_iff.mp hk

end Writer

/-! ## Written forms -/

theorem number_ne_broken (n : Option Json.Number) (b : Json.Broken) :
    (n.map Json.number).getD .null ≠ .broken b := by
  cases n with
  | none => intro h; cases h
  | some n => intro h; cases h

/-- What is written is well formed on the outside. -/
theorem Tree.toJson_ne_broken {t : Tree} {j : Json} (h : t.toJson = .ok j) (b : Json.Broken) :
    j ≠ .broken b := by
  cases t with
  | present t | newtypeStruct t => exact toJson_ne_broken (by rwa [toJson] at h) b
  | float x | float32 x =>
    rw [toJson] at h
    cases h
    exact number_ne_broken _ b
  | newtypeVariant | seq | tuple | tupleStruct | tupleVariant | record | recordVariant | map =>
    rw [toJson] at h
    obtain ⟨_, -, h⟩ := bind_eq_ok_iff.mp h
    cases h
    intro hb
    cases hb
  | fail message =>
    rw [toJson] at h
    cases h
  | _ =>
    rw [toJson] at h
    cases h
    intro hb
    cases hb

/-- A wide integer in a running text is an integer again, of digits only. -/
theorem IntKind.isWhole_of_ofDigits {kind : IntKind} {n : Json.Number} {t : Tree}
    (hd : kind.ofDigits n.negative n.whole = .ok t) (hj : t.toJson = .ok (.number n)) :
    n.isWhole = true := by
  have hint : ∃ m, t = .int kind m := by
    unfold ofDigits at hd
    grind
  obtain ⟨m, rfl⟩ := hint
  rw [Tree.toJson] at hj
  cases hj
  rfl

/-- Null is no number, so that nothing of it can stay unread. -/
theorem Schema.leavesRest_null (s : Schema) (mode : Mode) : s.leavesRest mode .null = false := by
  cases s with
  | optional s | newtype _ s => exact s.leavesRest_null mode
  | int kind =>
    cases mode with
    | streamed => rfl
    | loaded => rfl
  | _ => rfl

/-- An integer that decodes from its written form has only digits. -/
theorem IntKind.leavesRest_toJson {kind : IntKind} {r : Position} {t : Tree} {j : Json}
    (hj : t.toJson = .ok j) (hd : (Decoder.int kind).decode r j = .ok t) :
    kind.leavesRest r.mode j = false := by
  unfold leavesRest
  split
  · rename_i n hmode
    by_cases hb : kind.bits = 128
    · have hdigits : kind.ofDigits n.negative n.whole = .ok t := by
        simpa [Decoder.int, hmode, hb, ofLeadingDigits] using hd
      simp [isWhole_of_ofDigits hdigits hj]
    · simp [hb]
  · exact absurd rfl (Tree.toJson_ne_broken hj _)
  · rfl

/-- A value that decodes from its written form leaves nothing of it unread. -/
theorem Schema.leavesRest_toJson {s : Schema} {r : Position} {t : Tree} {j : Json}
    (hj : t.toJson = .ok j) (hd : s.decode r j = .ok t) : s.leavesRest r.mode j = false := by
  cases s with
  | int kind => exact IntKind.leavesRest_toJson hj hd
  | newtype name s =>
    obtain ⟨t', ht', rfl⟩ := map_eq_ok_iff.mp hd
    show s.leavesRest r.mode j = false
    exact leavesRest_toJson (by rwa [Tree.toJson] at hj) ht'
  | optional s =>
    rw [decode, decoder, Decoder.optional] at hd
    show s.leavesRest r.mode j = false
    dsimp only at hd
    split at hd
    · exact s.leavesRest_null r.mode
    · cases hd
    · obtain ⟨t', ht', rfl⟩ := map_eq_ok_iff.mp hd
      exact leavesRest_toJson (by rwa [Tree.toJson] at hj) ht'
  | _ => rfl

theorem Tree.colonFault_toJson {t : Tree} {j : Json} (h : t.toJson = .ok j) :
    j.colonFault = none := by
  cases j with
  | broken b => exact absurd rfl (toJson_ne_broken h b)
  | _ => rfl

/-- What a type decodes beyond null is decoded by its schema. -/
theorem ValueType.decode_some {type : ValueType} {r : Position} {j : Json} {v : Value}
    (h : type.decode r j = .ok (some v)) : type.schema.decode r j = .ok v.tree := by
  unfold ValueType.decode at h
  split at h
  · cases h
  · cases h
  · obtain ⟨t, ht, hv⟩ := map_eq_ok_iff.mp h
    cases hv
    exact ht

/-- **A written value that decodes to itself is read back whole.** -/
theorem ValueType.decode_written {type : ValueType} {r : Position} {value : Option Value} {j : Json}
    (hw : Written value j) (hd : ∀ v, value = some v → type.decode r j = .ok (some v)) :
    type.decode r j = .ok value ∧ type.decoder.leavesRest r.mode j = false ∧
      j.colonFault = none := by
  cases value with
  | none =>
    cases hw
    exact ⟨rfl, type.schema.leavesRest_null r.mode, rfl⟩
  | some v =>
    have hdecode := hd v rfl
    exact ⟨hdecode, Schema.leavesRest_toJson hw (decode_some hdecode), Tree.colonFault_toJson hw⟩

end BeanBinding
