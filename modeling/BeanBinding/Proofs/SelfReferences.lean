import BeanBinding.Proofs.Forms
import BeanBinding.Proofs.Rebinding

/-!
# What the policy on self-references touches

A writer comes upon its own bean if what it reads lies where the bean lies and has its
type. It asks for this last, after null and suppressed values have been dealt with, and
only then for its policy. A value that equals the bean but lies elsewhere is written like
any other, and so is one of another type that lies where the bean lies.

So writers that differ in their policies only can be told apart by self-references and by
nothing else. The policy decides what is written for one, or that it is an error, but not
whether: no policy leaves a self-reference out. Hence objects of one bean that were written
under different policies have the same names, and their values differ for self-references
at most.
-/

namespace BeanBinding

variable {σ : Type}

/-! ## One writer -/

/-- The first writer is the second one with its own policy on self-references. -/
def Writer.UpToPolicy (v w : Writer σ) : Prop := v = { w with selfReference := v.selfReference }

namespace Writer

variable {v w : Writer σ} {bean : Bean σ}

/-- For a self-reference, a writer does what its policy says. -/
theorem MeetsSelf.exists_emit (h : w.MeetsSelf bean) :
    ∃ value, w.emit bean = w.emitSelf bean.type.name value := by
  obtain ⟨hreadable, r, hread, hsuppressed, hitself⟩ := h
  refine ⟨r.value, ?_⟩
  rw [emit, if_pos hreadable, hread]
  dsimp only
  rw [if_neg (Bool.eq_false_iff.mp hsuppressed), if_pos hitself]

/-- No policy leaves a self-reference out. -/
theorem MeetsSelf.isSome (h : w.MeetsSelf bean) {x : Option Json} (hx : w.field bean = .ok x) :
    x.isSome = true := by
  cases x with
  | some j => rfl
  | none =>
    obtain ⟨value, hemit⟩ := h.exists_emit
    have hnothing : w.emitSelf bean.type.name value = .ok .nothing :=
      hemit.symm.trans (field_eq_none_iff.mp hx)
    unfold emitSelf at hnothing
    split at hnothing
    · cases hnothing
    · cases hnothing
    · cases hnothing
    · cases hnothing

/-- A value that lies elsewhere, or is of another type, is no self-reference. -/
theorem not_meetsSelf {r : Reading} (hread : w.accessor.read bean = .ok (some r))
    (hr : r.source ≠ .whole ∨ r.value.type.name ≠ bean.type.name) : ¬ w.MeetsSelf bean := by
  rintro ⟨-, r', hread', -, hitself⟩
  cases hread.symm.trans hread'
  rw [Bean.yieldsItself, Bool.and_eq_true, beq_iff_eq, beq_iff_eq] at hitself
  rcases hr with hsource | htype
  · exact hsource hitself.1
  · exact htype hitself.2

namespace UpToPolicy

theorem of_policy (w : Writer σ) (policy : SelfReference) :
    UpToPolicy { w with selfReference := policy } w := rfl

variable (h : v.UpToPolicy w)

include h

theorem name : v.name = w.name := by
  rw [h]

theorem emit (hself : ¬ w.MeetsSelf bean) : v.emit bean = w.emit bean := by
  have haccessor : v.accessor = w.accessor := by
    rw [h]
  rw [Writer.emit, Writer.emit, haccessor]
  by_cases hreadable : w.accessor.readable = true
  · rw [if_pos hreadable, if_pos hreadable]
    cases hread : w.accessor.read bean with
    | error e => rw [h]
    | ok reading =>
      cases reading with
      | none =>
        rw [h]
        rfl
      | some r =>
        have hsuppresses : v.suppresses r.value = w.suppresses r.value := by
          rw [h]
          rfl
        dsimp only
        rw [hsuppresses]
        cases hsuppressed : w.suppresses r.value with
        | true => rfl
        | false =>
          have hitself : ¬ bean.yieldsItself r = true :=
            fun hitself => hself ⟨hreadable, r, hread, hsuppressed, hitself⟩
          rw [if_neg hitself, if_neg hitself, h]
  · rw [if_neg hreadable, if_neg hreadable]

/-- Where no self-reference is met, the policy makes no difference. -/
theorem alike (hself : ¬ w.MeetsSelf bean) : v.Alike w bean where
  name := h.name
  field := by
    rw [field, field, h.emit hself, h]
    rfl
  placeholder := by
    rw [h]
    rfl

/-- Entries are there under both policies or under none, and differ for self-references only. -/
theorem field_agrees {x y : Option Json} (hx : v.field bean = .ok x) (hy : w.field bean = .ok y) :
    x.isSome = y.isSome ∧ (x = y ∨ w.MeetsSelf bean) := by
  by_cases hself : w.MeetsSelf bean
  · have hself' : v.MeetsSelf bean := by
      rw [h]
      exact hself
    exact ⟨(hself'.isSome hx).trans (hself.isSome hy).symm, .inr hself⟩
  · rw [(h.alike hself).field, hy] at hx
    cases hx
    exact ⟨rfl, .inl rfl⟩

theorem element_agrees {j k : Json} (hj : v.element bean = .ok j) (hk : w.element bean = .ok k) :
    j = k ∨ w.MeetsSelf bean := by
  by_cases hself : w.MeetsSelf bean
  · exact .inr hself
  · rw [(h.alike hself).element, hk] at hj
    exact .inl (Except.ok.inj hj).symm

end UpToPolicy

end Writer

/-! ## All writers -/

namespace Serializer

variable {bean : Bean σ} {vs ws : List (Writer σ)}

/-- Without self-references, writers with other policies write alike. -/
theorem forall₂_alike (h : List.Forall₂ Writer.UpToPolicy vs ws)
    (hself : ∀ w ∈ ws, ¬ w.MeetsSelf bean) : List.Forall₂ (Writer.Alike · · bean) vs ws := by
  induction h with
  | nil => exact .nil
  | cons hfirst _ ih =>
    exact .cons (hfirst.alike (hself _ List.mem_cons_self))
      (ih fun w hw => hself w (List.mem_cons_of_mem _ hw))

/-- What two lists of writers put into an object, writer by writer. -/
theorem fields_agree (h : List.Forall₂ Writer.UpToPolicy vs ws) {es es' : List (String × Json)}
    (hes : fields bean vs = .ok es) (hes' : fields bean ws = .ok es') :
    ∃ put : List (Option Json × Option Json),
      es = entriesOf ws (put.map (·.1)) ∧ es' = entriesOf ws (put.map (·.2)) ∧
        List.Forall₂ (fun w e => w.field bean = .ok e.2 ∧ e.1.isSome = e.2.isSome ∧
          (e.1 = e.2 ∨ w.MeetsSelf bean)) ws put := by
  obtain ⟨xs, hxs, rfl⟩ := fields_eq_ok_iff.mp hes
  obtain ⟨ys, hys, rfl⟩ := fields_eq_ok_iff.mp hes'
  clear hes hes'
  induction h generalizing xs ys with
  | nil =>
    cases hxs
    cases hys
    exact ⟨[], rfl, rfl, .nil⟩
  | @cons v w vs ws hfirst _ ih =>
    cases hxs with
    | @cons _ x _ xs hx hxs =>
      cases hys with
      | @cons _ y _ ys hy hys =>
        obtain ⟨put, hput, hput', hagree⟩ := ih xs hxs ys hys
        refine ⟨(x, y) :: put, ?_, ?_, .cons ⟨hy, hfirst.field_agrees hx hy⟩ hagree⟩
        · rw [List.map_cons, entriesOf_cons, entriesOf_cons, hfirst.name, hput]
        · rw [List.map_cons, entriesOf_cons, entriesOf_cons, hput']

/-- The elements that two lists of writers write, writer by writer. -/
theorem elements_agree (h : List.Forall₂ Writer.UpToPolicy vs ws) {js ks : List Json}
    (hjs : elements bean vs = .ok js) (hks : elements bean ws = .ok ks) :
    ∃ put : List (Json × Json), js = put.map (·.1) ∧ ks = put.map (·.2) ∧
      List.Forall₂ (fun w e => e.1 = e.2 ∨ w.MeetsSelf bean) ws put := by
  rw [elements_eq_ok_iff] at hjs hks
  induction h generalizing js ks with
  | nil =>
    cases hjs
    cases hks
    exact ⟨[], rfl, rfl, .nil⟩
  | cons hfirst _ ih =>
    cases hjs with
    | cons hj hjs =>
      cases hks with
      | cons hk hks =>
        obtain ⟨put, rfl, rfl, hagree⟩ := ih hjs hks
        exact ⟨(_, _) :: put, rfl, rfl, .cons (hfirst.element_agrees hj hk) hagree⟩

end Serializer

/--
**Policies on self-references make a difference for self-references only.**

Take two lists of writers that differ at most in their policies. If no writer meets the bean
itself, both give the same in either form, errors included. If both write an object, each
writer has an entry in both or in neither, and it is the same unless the writer meets the
bean itself; and if both write a list, so are the elements. Nor does the policy of a single
writer show where it reads a value that lies elsewhere than the bean, equal or not, or has
another type.
-/
theorem policies_touch_self_references_only {vs ws : List (Writer σ)}
    (h : List.Forall₂ Writer.UpToPolicy vs ws) (type : BeanType) (bean : Bean σ) :
    let one := fun shape => (⟨type, shape, vs⟩ : Serializer σ).serialize bean
    let other := fun shape => (⟨type, shape, ws⟩ : Serializer σ).serialize bean
    ((∀ w ∈ ws, ¬ w.MeetsSelf bean) → ∀ shape, one shape = other shape) ∧
    (∀ out out', one .object = .ok out → other .object = .ok out' →
      ∃ put : List (Option Json × Option Json),
        out = .record (Serializer.entriesOf ws (put.map (·.1))) ∧
          out' = .record (Serializer.entriesOf ws (put.map (·.2))) ∧
          List.Forall₂ (fun w e => w.field bean = .ok e.2 ∧ e.1.isSome = e.2.isSome ∧
            (e.1 = e.2 ∨ w.MeetsSelf bean)) ws put) ∧
    (∀ out out', one .array = .ok out → other .array = .ok out' →
      ∃ put : List (Json × Json), out = .list (put.map (·.1)) ∧ out' = .list (put.map (·.2)) ∧
        List.Forall₂ (fun w e => e.1 = e.2 ∨ w.MeetsSelf bean) ws put) ∧
    (∀ (w : Writer σ) r, w.accessor.read bean = .ok (some r) →
      (r.source ≠ .whole ∨ r.value.type.name ≠ bean.type.name) → ∀ policy,
        let v := { w with selfReference := policy }
        v.field bean = w.field bean ∧ v.element bean = w.element bean) := by
  intro one other
  refine ⟨fun hself shape => ?_, ?_, ?_, ?_⟩
  · exact Serializer.serialize_congr fun _ => Serializer.forall₂_alike h hself
  · intro out out' hone hother
    obtain ⟨-, es, hes, rfl⟩ := (Serializer.serialize_eq_ok_iff_fields rfl).mp hone
    obtain ⟨-, es', hes', rfl⟩ := (Serializer.serialize_eq_ok_iff_fields rfl).mp hother
    obtain ⟨put, rfl, rfl, hagree⟩ := Serializer.fields_agree h hes hes'
    exact ⟨put, rfl, rfl, hagree⟩
  · intro out out' hone hother
    obtain ⟨-, js, hjs, rfl⟩ := (Serializer.serialize_eq_ok_iff_elements rfl).mp hone
    obtain ⟨-, ks, hks, rfl⟩ := (Serializer.serialize_eq_ok_iff_elements rfl).mp hother
    obtain ⟨put, rfl, rfl, hagree⟩ := Serializer.elements_agree h hjs hks
    exact ⟨put, rfl, rfl, hagree⟩
  · intro w r hread hr policy
    have halike := (Writer.UpToPolicy.of_policy w policy).alike (Writer.not_meetsSelf hread hr)
    exact ⟨halike.field, halike.element⟩

/-! ### A node with itself, a copy of itself, and a name that lies where it lies -/

namespace Node

/-- The type of nodes. -/
def type : BeanType := ⟨"Node"⟩

/-- A node of the given name. -/
def of (name : String) : Bean Tree := ⟨type, .text name⟩

/-- The type of nodes, as values. -/
def node : ValueType := ⟨"Node", .text⟩

/-- The property of the node itself. -/
def itself : Property Tree := (Property.declare type "itself" node).getter id .whole

/-- The property of a copy of the node. -/
def copy : Property Tree := (Property.declare type "copy" node).getterOwned id

/-- The property of the name, which takes up all of the node. -/
def name : Property Tree := (Property.declare type "name" ⟨"text", .text⟩).getter id .whole

/-- A writer of a property with a policy on self-references. -/
def writer (policy : SelfReference) (p : Property Tree) : Writer Tree :=
  { Writer.declare p.name p.valueType (.introspected p) with selfReference := policy }

/-- A serializer of nodes with a policy on self-references. -/
def serializer (policy : SelfReference) : Serializer Tree :=
  ⟨type, .object, [itself, copy, name].map (writer policy)⟩

theorem upToPolicy (policy policy' : SelfReference) :
    List.Forall₂ Writer.UpToPolicy (serializer policy).writers (serializer policy').writers :=
  .cons rfl (.cons rfl (.cons rfl .nil))

end Node

/-- Only what is written for the node itself depends on the policy. -/
theorem copies_written_alike :
    let rest := [("copy", .string "a"), ("name", .string "a")]
    (Node.serializer .fail).serialize (Node.of "a") =
        .error (.codec (.selfReference "Node" "itself")) ∧
      (Node.serializer .writeNull).serialize (Node.of "a") =
        .ok (.record (("itself", .null) :: rest)) ∧
      (Node.serializer .passThrough).serialize (Node.of "a") =
        .ok (.record (("itself", .string "a") :: rest)) ∧
      (∃ put : List (Option Json × Option Json), put.length = 3 ∧
        Json.record (("itself", .null) :: rest) =
          .record (Serializer.entriesOf (Node.serializer .passThrough).writers (put.map (·.1))) ∧
        Json.record (("itself", .string "a") :: rest) =
          .record (Serializer.entriesOf (Node.serializer .passThrough).writers (put.map (·.2)))) ∧
      ∀ policy, (Node.writer policy Node.copy).field (Node.of "a") = .ok (some (.string "a")) := by
  intro rest
  have hnull : (Node.serializer .writeNull).serialize (Node.of "a") =
      .ok (.record (("itself", .null) :: rest)) := rfl
  have hpassed : (Node.serializer .passThrough).serialize (Node.of "a") =
      .ok (.record (("itself", .string "a") :: rest)) := rfl
  obtain ⟨-, hobject, -, hwriter⟩ := policies_touch_self_references_only
    (Node.upToPolicy .writeNull .passThrough) Node.type (Node.of "a")
  obtain ⟨put, hput, hput', hagree⟩ := hobject _ _ hnull hpassed
  refine ⟨rfl, hnull, hpassed, ⟨put, hagree.length_eq.symm, hput, hput'⟩, fun policy => ?_⟩
  obtain ⟨hfield, -⟩ := hwriter (Node.writer .fail Node.copy) ⟨⟨Node.node, .text "a"⟩, .computed⟩
    rfl (.inl (by decide)) policy
  exact hfield.trans rfl

end BeanBinding
