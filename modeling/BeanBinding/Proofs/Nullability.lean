import BeanBinding.Proofs.Accessors
import BeanBinding.Proofs.Declared
import Mathlib.Data.List.Induction

/-!
# Which properties accept null

A property is declared by calls, one after the other. Several of them say something about
null, and they say it in two places. The setter that is installed accepts null or refuses
it; a later setter takes the place of an earlier one, and nothing else changes it. The flag
of nullability is raised by each accessor for optional values, and it is set outright by a
call of its own.

So it is the last setter that decides what becomes of null, wherever the other calls stand.
The flag agrees with it in one direction only: as long as nobody takes the flag back after
the last setter, a property without it refuses null. The other way round a property may be
nullable, because null can be read from it, and refuse null all the same.
-/

namespace BeanBinding

variable {σ : Type}

namespace Property

/-- Whether the setter that the call installs accepts null, if it installs one. -/
def Call.acceptsNull? : Call σ → Option Bool
  | setter _ | trySetter _ => some false
  | setterOpt _ => some true
  | _ => none

variable {p : Property σ} {c : Call σ} {calls : List (Call σ)} {bean : Bean σ}

/-! ## One call -/

theorem owner_apply (p : Property σ) (c : Call σ) : (c.apply p).owner = p.owner := by
  cases c with
  | _ => rfl

theorem writer_apply (h : c.acceptsNull? = none) : (c.apply p).writer = p.writer := by
  cases c with
  | setter | setterOpt | trySetter => cases h
  | _ => rfl

theorem nullable_apply (hp : p.nullable = true) (hc : c ≠ .nullable false) :
    (c.apply p).nullable = true := by
  cases c with
  | nullable b =>
    cases b with
    | true => rfl
    | false => exact absurd rfl hc
  | getterOpt | setterOpt => rfl
  | _ => exact hp

/-- A setter for values that are never null refuses null, once it knows the bean. -/
theorem refuses_apply (hc : c.acceptsNull? = some false) (hb : bean.type = p.owner) :
    (c.apply p).write none bean = .error .nullNotAccepted bean := by
  have hrefuses : (do p.checkOwner; throw .nullNotAccepted : ChangeM AccessError σ Unit) bean =
      .error .nullNotAccepted bean := by
    rw [change_bind_ok (checkOwner_ok hb)]
    rfl
  cases c with
  | setter set => exact hrefuses
  | trySetter set => exact hrefuses
  | _ => cases hc

/-- A setter for optional values is handed null, and its property is nullable. -/
theorem accepts_apply (hc : c.acceptsNull? = some true) (hb : bean.type = p.owner) :
    (c.apply p).nullable = true ∧ ∃ set, c = .setterOpt set ∧
      (c.apply p).write none bean = .ok () { bean with state := set bean.state none } := by
  cases c with
  | setterOpt set => exact ⟨rfl, set, rfl, write_setterOpt_none_eq_ok_iff.mpr ⟨hb, rfl⟩⟩
  | _ => cases hc

/-! ## Calls in a row -/

theorem owner_foldl (p : Property σ) (calls : List (Call σ)) :
    (calls.foldl Call.apply p).owner = p.owner := by
  induction calls generalizing p with
  | nil => rfl
  | cons c calls ih =>
    rw [List.foldl_cons, ih]
    exact owner_apply p c

theorem writer_foldl (h : ∀ c ∈ calls, c.acceptsNull? = none) :
    (calls.foldl Call.apply p).writer = p.writer := by
  induction calls generalizing p with
  | nil => rfl
  | cons c calls ih =>
    obtain ⟨hc, hcalls⟩ := List.forall_mem_cons.mp h
    rw [List.foldl_cons, ih hcalls]
    exact writer_apply hc

theorem nullable_foldl (hp : p.nullable = true) (h : ∀ c ∈ calls, c ≠ .nullable false) :
    (calls.foldl Call.apply p).nullable = true := by
  induction calls generalizing p with
  | nil => exact hp
  | cons c calls ih =>
    obtain ⟨hc, hcalls⟩ := List.forall_mem_cons.mp h
    exact ih (nullable_apply hp hc) hcalls

/-- Calls that make a property writable install a setter, and there is a last one. -/
theorem exists_last_setter (hp : p.writer = none)
    (h : (calls.foldl Call.apply p).isWritable = true) :
    ∃ before c after accepts, calls = before ++ c :: after ∧ c.acceptsNull? = some accepts ∧
      ∀ c' ∈ after, c'.acceptsNull? = none := by
  induction calls using List.reverseRecOn with
  | nil =>
    have hnone : (none : Option (WriteAccess σ)).isSome = true := hp ▸ h
    cases hnone
  | append_singleton calls c ih =>
    rw [List.foldl_append, List.foldl_cons, List.foldl_nil] at h
    cases hc : c.acceptsNull? with
    | some accepts => exact ⟨calls, c, [], accepts, rfl, hc, fun c' hc' => by cases hc'⟩
    | none =>
      have hwritable : (calls.foldl Call.apply p).isWritable = true := by
        rw [isWritable, ← writer_apply hc]
        exact h
      obtain ⟨before, s, after, accepts, rfl, hs, hafter⟩ := ih hwritable
      refine ⟨before, s, after ++ [c], accepts, by simp, hs, ?_⟩
      intro c' hc'
      rcases List.mem_append.mp hc' with hc' | hc'
      · exact hafter c' hc'
      · rw [List.mem_singleton.mp hc']
        exact hc

end Property

/--
**The last setter decides what becomes of null.**

Let calls, in any order and number, declare a property that can be written. One of them is
the last to install a setter. If it is a setter for values that are never null, fallible or
not, null is refused, whatever is said about nullability before or after. If it is a setter
for optional values and the property is nullable, null is stored: the bean that is left is
the one that this setter makes of null. And a property that is not nullable refuses null,
unless its nullability was denied after the last setter.
-/
theorem last_setter_decides_on_null (owner : BeanType) (name : String) (type : ValueType)
    (calls : List (Property.Call σ))
    (hw : (Property.declaredBy owner name type calls).isWritable = true) :
    let p := Property.declaredBy owner name type calls
    ∃ before c after accepts, calls = before ++ c :: after ∧ c.acceptsNull? = some accepts ∧
      (∀ c' ∈ after, c'.acceptsNull? = none) ∧
      ∀ bean : Bean σ, bean.type = owner →
        (accepts = false → p.write none bean = .error .nullNotAccepted bean) ∧
        (accepts = true → p.nullable = true → ∃ set, c = .setterOpt set ∧
          p.write none bean = .ok () { bean with state := set bean.state none }) ∧
        ((∀ c' ∈ after, c' ≠ .nullable false) → p.nullable = false →
          p.write none bean = .error .nullNotAccepted bean) := by
  intro p
  obtain ⟨before, c, after, accepts, hcalls, hc, hafter⟩ := Property.exists_last_setter rfl hw
  refine ⟨before, c, after, accepts, hcalls, hc, hafter, fun bean hb => ?_⟩
  -- the calls behind the last setter leave it alone
  let q := Property.declaredBy owner name type before
  have hp : p = after.foldl Property.Call.apply (c.apply q) := by
    show Property.declaredBy owner name type calls = _
    rw [hcalls, Property.declaredBy, List.foldl_append, List.foldl_cons]
    rfl
  have howner : bean.type = q.owner := by
    rw [hb]
    exact (Property.owner_foldl (Property.declare owner name type) before).symm
  have hwrite : p.write none bean = (c.apply q).write none bean := by
    rw [hp, Property.write, Property.writer_foldl hafter, Property.write]
  have hrefuses : accepts = false → p.write none bean = .error .nullNotAccepted bean := by
    rintro rfl
    rw [hwrite, Property.refuses_apply hc howner]
  refine ⟨hrefuses, fun haccepts _ => ?_, fun hkept hnullable => ?_⟩
  · subst haccepts
    obtain ⟨-, set, hset, hleft⟩ := Property.accepts_apply hc howner
    exact ⟨set, hset, hwrite.trans hleft⟩
  · cases accepts with
    | false => exact hrefuses rfl
    | true =>
      have hstill : p.nullable = true := by
        rw [hp]
        exact Property.nullable_foldl (Property.accepts_apply hc howner).1 hkept
      rw [hnullable] at hstill
      cases hstill

/-! ### Texts that may be missing -/

namespace Motto

/-- The type of beans that are a text, or nothing. -/
def type : BeanType := ⟨"Motto"⟩

/-- The type of their texts. -/
def text : ValueType := ⟨"text", .text⟩

/-- A text, or nothing. -/
def of (content : Option String) : Bean (Option Tree) := ⟨type, content.map .text⟩

/-- Reads the text, or null. -/
def read : Property.Call (Option Tree) := .getterOpt id .part

/-- Writes a text or null. -/
def write : Property.Call (Option Tree) := .setterOpt fun _ t => t

/-- Writes a text. -/
def writeFull : Property.Call (Option Tree) := .setter fun _ t => some t

/-- The property of the text that calls declare. -/
def declaredBy (calls : List (Property.Call (Option Tree))) : Property (Option Tree) :=
  Property.declaredBy type "text" text calls

end Motto

/-- A setter that takes the place of one that refuses null stores it: no text is left. -/
theorem replacing_setter_stores_null :
    let p := Motto.declaredBy [Motto.writeFull, Motto.write]
    p.isWritable = true ∧ p.nullable = true ∧
      p.write none (Motto.of (some "old")) = .ok () (Motto.of none) := by
  intro p
  have hnullable : p.nullable = true := rfl
  obtain ⟨before, c, after, accepts, hcalls, hc, hafter, hnull⟩ :=
    last_setter_decides_on_null Motto.type "text" Motto.text [Motto.writeFull, Motto.write] rfl
  have hlast : c = Motto.write := by
    rcases before with _ | ⟨first, _ | ⟨second, rest⟩⟩
    · -- the first of the two is not the last setter
      obtain ⟨rfl, rfl⟩ := List.cons.inj hcalls
      cases hafter Motto.write (List.mem_singleton.mpr rfl)
    · obtain ⟨rfl, hrest⟩ := List.cons.inj hcalls
      exact (List.cons.inj hrest).1.symm
    · have hlength := congrArg List.length hcalls
      simp at hlength
  subst hlast
  have haccepts : accepts = true := (Option.some.inj hc).symm
  obtain ⟨set, hset, hwrite⟩ := (hnull (Motto.of (some "old")) rfl).2.1 haccepts hnullable
  obtain rfl := Property.Call.setterOpt.inj hset
  exact ⟨rfl, hnullable, hwrite⟩

/-- A property that null is read from is nullable, and refuses null when its setter does. -/
theorem nullable_property_refuses_null :
    let p := Motto.declaredBy [Motto.read, Motto.writeFull]
    p.isWritable = true ∧ p.nullable = true ∧ (Motto.of (some "old")).type = Motto.type ∧
      p.write none (Motto.of (some "old")) = .error .nullNotAccepted (Motto.of (some "old")) :=
  ⟨rfl, rfl, rfl, rfl⟩

end BeanBinding
