import BeanBinding.Constructor
import Mathlib.Data.List.Basic

/-!
# Taking arguments out of their slots

A constructor calls for its arguments one by one, and may go on after a call that failed.
What a call does is settled by its own slot: one that is missing or holds nothing stays as
it is, and a value is gone after the first call on its slot, whether the call had the right
type to be given the value or not.

So no value is handed out twice. But the value of a slot is lost if the first call on it
asks for another type, and that is the only way in which a call is anything but atomic.
-/

namespace BeanBinding

/-! ## Calls -/

/-- How an argument is called for: as a value, or with null or the default in its place. -/
inductive TakingMode where
  | value
  | optional
  | orDefault
deriving DecidableEq, Repr

/-- A call for the argument of a slot. -/
structure Taking where
  mode : TakingMode
  index : Nat
  type : ValueType

/-- A call that was made, with its answer and the arguments on either side of it. -/
structure Taken where
  call : Taking
  before : Arguments
  answer : Except InstantiationError (Option Tree)
  after : Arguments

namespace Taking

def perform (c : Taking) : ArgumentM (Option Tree) :=
  match c.mode with
  | .value => some <$> Arguments.take c.index c.type
  | .optional => Arguments.takeOpt c.index c.type
  | .orDefault => some <$> Arguments.takeOrDefault c.index c.type

/-- The answer of a call to a slot that holds nothing. -/
def answerToNull (c : Taking) (args : Arguments) : Except InstantiationError (Option Tree) :=
  match c.mode with
  | .value => .error (.missingArgument args.owner.name (args.nameOf c.index))
  | .optional => .ok none
  | .orDefault => .ok (some c.type.schema.default)

def made (c : Taking) (args : Arguments) : Taken :=
  match c.perform.run args with
  | .ok t after => ⟨c, args, .ok t, after⟩
  | .error e after => ⟨c, args, .error e, after⟩

end Taking

namespace Arguments

/-- The arguments after the value of a slot is gone. -/
def without (args : Arguments) (index : Nat) : Arguments :=
  { args with slots := args.slots.set index none }

/-- A run of calls, each made on what the ones before it have left. -/
def taken : Arguments → List Taking → List Taken
  | _, [] => []
  | args, c :: calls => c.made args :: taken (c.made args).after calls

/-- What is left after a run of calls. -/
def left : Arguments → List Taking → Arguments
  | args, [] => args
  | args, c :: calls => left (c.made args).after calls

end Arguments

/-- Whether a call is given the value that is in its slot. -/
def Taken.HandsOut (s : Taken) (index : Nat) (v : Value) : Prop :=
  s.call.index = index ∧ s.before.slots[index]? = some (some v) ∧ s.answer = .ok (some v.tree)

/-- What taking arguments out of their slots should be, whatever the calls. -/
structure Arguments.TakenAtomically (args : Arguments) (calls : List Taking) : Prop where
  /-- A call that fails leaves the arguments as they were. -/
  failed : ∀ s ∈ args.taken calls, ∀ e, s.answer = .error e → s.after = s.before
  /-- A call that succeeds empties its own slot and no other. -/
  succeeded : ∀ s ∈ args.taken calls, ∀ t, s.answer = .ok t →
    s.after = s.before.without s.call.index
  /-- No value is given to two calls. -/
  once : ∀ index v, args.slots[index]? = some (some v) →
    (args.taken calls).Pairwise fun s s' => ¬ (s.HandsOut index v ∧ s'.HandsOut index v)
  /-- A value that has not been given away is still there. -/
  kept : ∀ index v, args.slots[index]? = some (some v) →
    (args.left calls).slots[index]? = some (some v) ∨
      ∃ s ∈ args.taken calls, s.HandsOut index v

/-- The first call on a slot asks for the type of a value, if there is a call on the slot. -/
def FirstAsksFor (calls : List Taking) (index : Nat) (v : Value) : Prop :=
  ∀ c, calls.find? (fun c => c.index == index) = some c → v.is c.type = true

/-! ## One call -/

namespace Arguments

/-- A slot that holds nothing has nothing to lose. -/
theorem without_of_null {args : Arguments} {index : Nat} (h : args.slots[index]? = some none) :
    args.without index = args := by
  obtain ⟨hindex, hnull⟩ := List.getElem?_eq_some_iff.mp h
  rw [without, ← hnull, List.set_getElem_self]

/-- The slot is emptied before it is known whether its value has the right type. -/
theorem run_takeOpt (args : Arguments) (index : Nat) (type : ValueType) :
    (takeOpt index type).run args =
      match args.slots[index]? with
      | none => .error (.missingArgument args.owner.name (args.nameOf index)) args
      | some none => .ok none (args.without index)
      | some (some v) =>
        if v.is type then .ok (some v.tree) (args.without index)
        else .error (.argumentType args.owner.name (args.nameOf index) type.name v.type.name)
          (args.without index) := by
  rw [takeOpt, EStateM.run_bind, EStateM.run_get]
  dsimp only
  cases args.slots[index]? with
  | none => rfl
  | some slot =>
    rw [EStateM.run_bind, EStateM.run_set]
    cases slot with
    | none => rfl
    | some v =>
      dsimp only
      rw [Value.take]
      cases v.is type with
      | true => rfl
      | false => rfl

end Arguments

namespace Taking

/-- The three ways to call for an argument differ in what they make of null. -/
theorem made_eq (c : Taking) (args : Arguments) :
    c.made args =
      match (Arguments.takeOpt c.index c.type).run args with
      | .ok (some t) after => ⟨c, args, .ok (some t), after⟩
      | .ok none after => ⟨c, args, c.answerToNull after, after⟩
      | .error e after => ⟨c, args, .error e, after⟩ := by
  obtain ⟨mode, index, type⟩ := c
  rw [made, perform]
  cases mode with
  | optional =>
    dsimp only
    cases (Arguments.takeOpt index type).run args with
    | error e after => rfl
    | ok t after => cases t <;> rfl
  | value =>
    dsimp only
    rw [Arguments.take, ← bind_pure_comp, EStateM.run_bind, EStateM.run_bind]
    cases (Arguments.takeOpt index type).run args with
    | error e after => rfl
    | ok t after => cases t <;> rfl
  | orDefault =>
    dsimp only
    rw [Arguments.takeOrDefault, ← bind_pure_comp, EStateM.run_bind, EStateM.run_bind]
    cases (Arguments.takeOpt index type).run args with
    | error e after => rfl
    | ok t after => cases t <;> rfl

variable {c : Taking} {args : Arguments} {index : Nat} {v : Value}

/-! What a call does, by what is in its slot. -/

theorem made_of_missing (h : args.slots[c.index]? = none) :
    c.made args =
      ⟨c, args, .error (.missingArgument args.owner.name (args.nameOf c.index)), args⟩ := by
  rw [made_eq, Arguments.run_takeOpt, h]

theorem made_of_null (h : args.slots[c.index]? = some none) :
    c.made args = ⟨c, args, c.answerToNull args, args⟩ := by
  rw [made_eq, Arguments.run_takeOpt, h]
  simp only [Arguments.without_of_null h]

theorem made_of_held (h : args.slots[c.index]? = some (some v)) :
    c.made args = ⟨c, args,
      if v.is c.type then .ok (some v.tree)
      else .error (.argumentType args.owner.name (args.nameOf c.index) c.type.name v.type.name),
      args.without c.index⟩ := by
  rw [made_eq, Arguments.run_takeOpt, h]
  dsimp only
  cases v.is c.type with
  | true => rfl
  | false => rfl

@[simp]
theorem made_call : (c.made args).call = c := by
  rcases h : args.slots[c.index]? with _ | _ | v
  · rw [made_of_missing h]
  · rw [made_of_null h]
  · rw [made_of_held h]

@[simp]
theorem made_before : (c.made args).before = args := by
  rcases h : args.slots[c.index]? with _ | _ | v
  · rw [made_of_missing h]
  · rw [made_of_null h]
  · rw [made_of_held h]

/-- A call touches no slot but its own. -/
theorem made_after_of_ne (hindex : c.index ≠ index) :
    (c.made args).after.slots[index]? = args.slots[index]? := by
  rcases h : args.slots[c.index]? with _ | _ | v
  · rw [made_of_missing h]
  · rw [made_of_null h]
  · rw [made_of_held h, Arguments.without, List.getElem?_set_ne hindex]

/-- After a call on a slot there is nothing in it. -/
theorem made_after_self {slot : Option Value} (hslot : args.slots[c.index]? = some slot) :
    (c.made args).after.slots[c.index]? = some none := by
  cases slot with
  | none => rw [made_of_null hslot, hslot]
  | some v =>
    rw [made_of_held hslot, Arguments.without, List.getElem?_set_self]
    exact (List.getElem?_eq_some_iff.mp hslot).1

theorem made_after_ne_held : (c.made args).after.slots[c.index]? ≠ some (some v) := by
  cases h : args.slots[c.index]? with
  | none => rw [made_of_missing h, h]; nofun
  | some slot => rw [made_after_self h]; nofun

theorem made_handsOut_iff (hv : args.slots[index]? = some (some v)) :
    (c.made args).HandsOut index v ↔ c.index = index ∧ v.is c.type = true := by
  rw [Taken.HandsOut, made_call, made_before]
  constructor
  · rintro ⟨rfl, -, hanswer⟩
    refine ⟨rfl, ?_⟩
    by_contra htype
    rw [made_of_held hv, if_neg htype] at hanswer
    cases hanswer
  · rintro ⟨rfl, htype⟩
    exact ⟨rfl, hv, by rw [made_of_held hv, if_pos htype]⟩

/-- A call that succeeds empties its slot. -/
theorem after_of_ok {t : Option Tree} (h : (c.made args).answer = .ok t) :
    (c.made args).after = args.without c.index := by
  rcases hslot : args.slots[c.index]? with _ | _ | v
  · rw [made_of_missing hslot] at h
    cases h
  · rw [made_of_null hslot, Arguments.without_of_null hslot]
  · rw [made_of_held hslot]

/-- A call that fails changes nothing if it does not meet a value of another type in its slot. -/
theorem after_of_error {e : InstantiationError} (h : (c.made args).answer = .error e)
    (htype : ∀ v, args.slots[c.index]? = some (some v) → v.is c.type = true) :
    (c.made args).after = args := by
  rcases hslot : args.slots[c.index]? with _ | _ | v
  · rw [made_of_missing hslot]
  · rw [made_of_null hslot]
  · rw [made_of_held hslot, if_pos (htype v hslot)] at h
    cases h

end Taking

/-! ## Runs of calls -/

namespace Arguments

variable {args : Arguments} {calls : List Taking} {index : Nat} {v : Value}

theorem exists_made_of_mem {s : Taken} (h : s ∈ args.taken calls) :
    ∃ (c : Taking) (reached : Arguments), s = c.made reached := by
  induction calls generalizing args with
  | nil => cases h
  | cons c calls ih =>
    rw [taken, List.mem_cons] at h
    obtain rfl | h := h
    · exact ⟨c, args, rfl⟩
    · exact ih h

/-- There is nothing to be handed out of an empty slot, nor will there be. -/
theorem not_handsOut_of_null (hnull : args.slots[index]? = some none) :
    ∀ s ∈ args.taken calls, ¬ s.HandsOut index v := by
  induction calls generalizing args with
  | nil => simp [taken]
  | cons c calls ih =>
    rw [taken, List.forall_mem_cons]
    constructor
    · rintro ⟨-, hv, -⟩
      rw [Taking.made_before, hnull] at hv
      cases hv
    · by_cases hindex : c.index = index
      · subst hindex
        exact ih (Taking.made_after_self hnull)
      · exact ih (by rwa [Taking.made_after_of_ne hindex])

theorem left_of_null (hnull : args.slots[index]? = some none) :
    (args.left calls).slots[index]? = some none := by
  induction calls generalizing args with
  | nil => exact hnull
  | cons c calls ih =>
    rw [left]
    by_cases hindex : c.index = index
    · subst hindex
      exact ih (Taking.made_after_self hnull)
    · exact ih (by rwa [Taking.made_after_of_ne hindex])

/-- Only the first call on a slot can be given its value. -/
theorem handed_out_once (hv : args.slots[index]? = some (some v)) :
    (args.taken calls).Pairwise fun s s' => ¬ (s.HandsOut index v ∧ s'.HandsOut index v) := by
  induction calls generalizing args with
  | nil => exact .nil
  | cons c calls ih =>
    rw [taken, List.pairwise_cons]
    by_cases hindex : c.index = index
    · subst hindex
      have hnone : ∀ s ∈ (c.made args).after.taken calls, ¬ s.HandsOut c.index v :=
        not_handsOut_of_null (Taking.made_after_self hv)
      exact ⟨fun s hs h => hnone s hs h.2,
        List.pairwise_of_forall_mem_list fun s hs _ _ h => hnone s hs h.1⟩
    · refine ⟨fun s _ h => hindex ?_, ih (by rwa [Taking.made_after_of_ne hindex])⟩
      exact ((Taking.made_handsOut_iff hv).mp h.1).1

theorem firstAsksFor_cons_of_eq {c : Taking} (hindex : c.index = index) :
    FirstAsksFor (c :: calls) index v ↔ v.is c.type = true := by
  simp [FirstAsksFor, hindex]

theorem firstAsksFor_cons_of_ne {c : Taking} (hindex : c.index ≠ index) :
    FirstAsksFor (c :: calls) index v ↔ FirstAsksFor calls index v := by
  simp [FirstAsksFor, hindex]

/-- A value is kept or handed out exactly if the first call on its slot asks for its type. -/
theorem kept_iff (hv : args.slots[index]? = some (some v)) :
    (args.left calls).slots[index]? = some (some v) ∨
        (∃ s ∈ args.taken calls, s.HandsOut index v) ↔
      FirstAsksFor calls index v := by
  induction calls generalizing args with
  | nil => exact iff_of_true (.inl hv) nofun
  | cons c calls ih =>
    rw [left, taken, List.exists_mem_cons_iff, Taking.made_handsOut_iff hv]
    by_cases hindex : c.index = index
    · -- the first call on the slot: what it is not given is gone
      subst hindex
      have hnull := Taking.made_after_self hv
      rw [left_of_null hnull, firstAsksFor_cons_of_eq rfl]
      have hnone : ∀ s ∈ (c.made args).after.taken calls, ¬ s.HandsOut c.index v :=
        not_handsOut_of_null hnull
      simp only [Option.some_inj, reduceCtorEq, true_and, false_or]
      exact or_iff_left fun ⟨s, hs, h⟩ => hnone s hs h
    · rw [firstAsksFor_cons_of_ne hindex, ← ih (by rwa [Taking.made_after_of_ne hindex])]
      simp only [hindex, false_and, false_or]

/-- If no first call on a slot asks for another type, calls that fail change nothing. -/
theorem after_of_error
    (h : ∀ index v, args.slots[index]? = some (some v) → FirstAsksFor calls index v) :
    ∀ s ∈ args.taken calls, ∀ e, s.answer = .error e → s.after = s.before := by
  induction calls generalizing args with
  | nil => simp [taken]
  | cons c calls ih =>
    rw [taken, List.forall_mem_cons]
    constructor
    · intro e he
      rw [Taking.made_before]
      exact Taking.after_of_error he fun v hv => (firstAsksFor_cons_of_eq rfl).mp (h _ v hv)
    · -- what is still in a slot has not been called for, so its first call is still to come
      apply ih
      intro index v hv
      by_cases hindex : c.index = index
      · subst hindex
        exact absurd hv Taking.made_after_ne_held
      · rw [Taking.made_after_of_ne hindex] at hv
        exact (firstAsksFor_cons_of_ne hindex).mp (h index v hv)

end Arguments

open Arguments in
/--
**Taking arguments is atomic unless a call asks for another type.**

Whatever the calls, one that succeeds empties its own slot and no other, and no value is
handed out twice. The calls leave the arguments as they are when they fail, and lose no
value, exactly if the first call on each slot that holds a value asks for the type of that
value.
-/
theorem takenAtomically_iff (args : Arguments) (calls : List Taking) :
    (∀ s ∈ args.taken calls, ∀ t, s.answer = .ok t → s.after = s.before.without s.call.index) ∧
    (∀ index v, args.slots[index]? = some (some v) →
      (args.taken calls).Pairwise fun s s' => ¬ (s.HandsOut index v ∧ s'.HandsOut index v)) ∧
    (args.TakenAtomically calls ↔
      ∀ index v, args.slots[index]? = some (some v) → FirstAsksFor calls index v) := by
  have hok : ∀ s ∈ args.taken calls, ∀ t, s.answer = .ok t →
      s.after = s.before.without s.call.index := by
    intro s hs t ht
    obtain ⟨c, reached, rfl⟩ := exists_made_of_mem hs
    rw [Taking.made_before, Taking.made_call]
    exact Taking.after_of_ok ht
  refine ⟨hok, fun _ _ => handed_out_once, ?_⟩
  constructor
  · intro h index v hv
    exact (kept_iff hv).mp (h.kept index v hv)
  · intro h
    exact ⟨after_of_error h, hok, fun _ _ => handed_out_once,
      fun index v hv => (kept_iff hv).mpr (h index v hv)⟩

/-- Calls out of order, out of range and for what is gone are atomic, if the types are right. -/
theorem taken_out_of_order :
    let count : ValueType := ⟨"i64", .int .i64⟩
    let label : ValueType := ⟨"String", .text⟩
    let args : Arguments :=
      ⟨⟨"Pair"⟩, [], [some ⟨count, .int .i64 7⟩, none, some ⟨label, .text "x"⟩]⟩
    let calls : List Taking :=
      [⟨.optional, 2, label⟩, ⟨.value, 1, count⟩, ⟨.value, 3, count⟩, ⟨.orDefault, 0, count⟩,
        ⟨.value, 0, label⟩]
    args.TakenAtomically calls ∧ (args.taken calls).map (·.answer.toOption) =
      [some (some (.text "x")), none, none, some (some (.int .i64 7)), none] := by
  intro count label args calls
  refine ⟨(takenAtomically_iff args calls).2.2.mpr fun index v hv => ?_, rfl⟩
  rcases index with _ | _ | _ | index
  · cases hv
    rintro c ⟨⟩
    rfl
  · cases hv
  · cases hv
    rintro c ⟨⟩
    rfl
  · cases hv

/-- A value that is asked for by another type is gone when it is asked for by its own. -/
theorem mistyped_value_lost :
    let count : ValueType := ⟨"i64", .int .i64⟩
    let label : ValueType := ⟨"String", .text⟩
    let args : Arguments := ⟨⟨"Pair"⟩, [.declare "left" count], [some ⟨count, .int .i64 7⟩]⟩
    let calls : List Taking := [⟨.value, 0, label⟩, ⟨.value, 0, count⟩]
    (args.taken calls).map (·.answer) =
      [.error (.argumentType "Pair" "left" "String" "i64"),
        .error (.missingArgument "Pair" "left")] ∧
      (args.left calls).slots = [none] ∧ ¬ args.TakenAtomically calls := by
  intro count label args calls
  refine ⟨rfl, rfl, fun hatomic => ?_⟩
  have hfailed := hatomic.failed _ List.mem_cons_self _ rfl
  have hslots := congrArg Arguments.slots hfailed
  cases hslots

end BeanBinding
