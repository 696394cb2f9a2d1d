import BeanBinding.Value
import Mathlib.Data.Nat.Digits.Defs

/-!
# Which integers a literal can declare

The default of a property is declared by a text, whatever the type of the property. For an
integer type three of the four readings of a text come to nothing: it takes neither texts
nor truth values nor floats. There remains the reading as an integer, which has 64 bits and
a sign for every type, before the type itself says what it holds.

So what is read is always the number that the text denotes, and never a part of it. But
types that hold more than 64 bits with a sign cannot be given the numbers beyond.
-/

namespace BeanBinding

namespace Decimal

/-! ## Texts of integers -/

/-- The number that decimal digits spell, each by its place. -/
def placeValue (digits : List Char) : Nat :=
  Nat.ofDigits 10 (digits.reverse.map fun c => c.toNat - '0'.toNat)

/-- A number written by nothing but digits, at least one of them. -/
structure Numeral (cs : List Char) (n : Nat) : Prop where
  nonempty : cs ≠ []
  digits : ∀ c ∈ cs, c.isDigit = true
  value : placeValue cs = n

/-- The integer that a text denotes: a numeral, perhaps behind a sign. -/
inductive Denotes : List Char → Int → Prop where
  | bare {cs : List Char} {n : Nat} (h : Numeral cs n) : Denotes cs n
  | plus {cs : List Char} {n : Nat} (h : Numeral cs n) : Denotes ('+' :: cs) n
  | minus {cs : List Char} {n : Nat} (h : Numeral cs n) : Denotes ('-' :: cs) (-n)

theorem ofDigitChars_eq_placeValue (cs : List Char) :
    Nat.ofDigitChars 10 cs 0 = placeValue cs := by
  rw [Nat.ofDigitChars_eq_foldl, placeValue, Nat.ofDigits_eq_foldr, List.foldr_map,
    List.foldr_reverse]
  simp only [Nat.cast_id, Nat.add_comm]

theorem numeral_toDigits (n : Nat) : Numeral (Nat.toDigits 10 n) n where
  nonempty := Nat.toDigits_ne_nil
  digits _ hc := Nat.isDigit_of_mem_toDigits (by decide) (by decide) hc
  value := by
    rw [← ofDigitChars_eq_placeValue]
    exact Nat.ofDigitChars_ten_toDigits

/-- The usual text of an integer denotes it. -/
theorem denotes_toString (n : Int) : Denotes (toString n).toList n := by
  cases n with
  | ofNat n =>
    have htext : (toString (Int.ofNat n)).toList = Nat.toDigits 10 n := Nat.toList_repr
    rw [htext]
    exact .bare (numeral_toDigits n)
  | negSucc n =>
    have htext : (toString (Int.negSucc n)).toList = '-' :: Nat.toDigits 10 (n + 1) := by
      show ("-" ++ Nat.repr (n + 1)).toList = _
      rw [String.toList_append, Nat.toList_repr]
      rfl
    rw [htext]
    exact .minus (numeral_toDigits (n + 1))

/-! ## Reading them -/

theorem readNat_eq_some_iff {cs : List Char} {n : Nat} : readNat cs = some n ↔ Numeral cs n := by
  rw [readNat, Option.ite_none_right_eq_some, ofDigitChars_eq_placeValue, Option.some_inj]
  constructor
  · rintro ⟨⟨hne, hall⟩, hn⟩
    exact ⟨hne, List.all_eq_true.mp hall, hn⟩
  · intro h
    exact ⟨⟨h.nonempty, List.all_eq_true.mpr h.digits⟩, h.value⟩

/-- What is read is what the text denotes, and every text that denotes an integer is read. -/
theorem readInt_eq_some_iff {text : String} {n : Int} :
    readInt text = some n ↔ Denotes text.toList n := by
  unfold readInt
  constructor
  · intro h
    split at h
    · rename_i cs hcs
      cases hk : readNat cs with
      | none =>
        rw [hk] at h
        cases h
      | some k =>
        rw [hk] at h
        cases h
        rw [hcs]
        exact .minus (readNat_eq_some_iff.mp hk)
    · rename_i cs hcs
      obtain ⟨k, hk, rfl⟩ := Option.map_eq_some_iff.mp h
      rw [hcs]
      exact .plus (readNat_eq_some_iff.mp hk)
    · obtain ⟨k, hk, rfl⟩ := Option.map_eq_some_iff.mp h
      exact .bare (readNat_eq_some_iff.mp hk)
  · intro h
    generalize text.toList = cs at h
    cases h with
    | plus h => exact Option.map_eq_some_iff.mpr ⟨_, readNat_eq_some_iff.mpr h, rfl⟩
    | minus h =>
      show Option.map (fun n => -n) (do let k ← readNat _; pure (k : Int)) = _
      rw [readNat_eq_some_iff.mpr h]
      rfl
    | bare h =>
      -- no sign is a digit
      split
      · exact absurd (h.digits '-' List.mem_cons_self) (by decide)
      · exact absurd (h.digits '+' List.mem_cons_self) (by decide)
      · exact Option.map_eq_some_iff.mpr ⟨_, readNat_eq_some_iff.mpr h, rfl⟩

end Decimal

open Decimal

theorem readInt64_eq_some_iff {literal : String} {n : Int} :
    readInt64 literal = some n ↔ Denotes literal.toList n ∧ IntKind.i64.holds n = true := by
  rw [readInt64, Option.filter_eq_some_iff, readInt_eq_some_iff]

theorem readInt64_toString (n : Int) :
    readInt64 (toString n) = if IntKind.i64.holds n then some n else none := by
  rw [readInt64, readInt_eq_some_iff.mpr (denotes_toString n)]
  rfl

/-! ## Integer types -/

/-- Trying what may be a reading. -/
theorem findSome?_reading {s : Schema} (x : Option Scalar) :
    ([x].filterMap id).findSome? s.ofScalar = x.bind s.ofScalar := by
  cases x with
  | none => rfl
  | some x =>
    show [x].findSome? s.ofScalar = s.ofScalar x
    rw [List.findSome?_singleton]

/-- Of the readings of a literal, an integer type takes the one as an integer alone. -/
theorem findSome?_readings_int (kind : IntKind) (literal : String) :
    (readings literal).findSome? (Schema.int kind).ofScalar =
      (readInt64 literal).bind fun n => if kind.holds n then some (.int kind n) else none := by
  have htext : (some (Scalar.text literal)).bind (Schema.int kind).ofScalar = none := rfl
  have hbool : ((readBool literal).map Scalar.bool).bind (Schema.int kind).ofScalar = none := by
    cases readBool literal with
    | none => rfl
    | some b => rfl
  have hfloat : ((readFloat literal).map Scalar.float).bind (Schema.int kind).ofScalar = none := by
    cases readFloat literal with
    | none => rfl
    | some x => rfl
  show (([_] ++ [_] ++ [_] ++ [_]).filterMap id).findSome? _ = _
  simp only [List.filterMap_append, List.findSome?_append, findSome?_reading, htext, hbool, hfloat,
    Option.none_or, Option.or_none]
  cases readInt64 literal with
  | none => rfl
  | some n => rfl

/-- A literal spells exactly the integers that it denotes, up to 64 bits and those of the type. -/
theorem ofLiteral_int_eq_some_iff {name literal : String} {kind : IntKind} {v : Value} :
    (⟨name, .int kind⟩ : ValueType).ofLiteral literal = some v ↔
      ∃ n, v = ⟨⟨name, .int kind⟩, .int kind n⟩ ∧ Denotes literal.toList n ∧
        IntKind.i64.holds n = true ∧ kind.holds n = true := by
  rw [ValueType.ofLiteral, Schema.ofLiteral, findSome?_readings_int]
  simp only [Option.map_eq_some_iff, Option.bind_eq_some_iff, Option.ite_none_right_eq_some,
    Option.some_inj, readInt64_eq_some_iff]
  constructor
  · rintro ⟨t, ⟨n, ⟨hn, hwide⟩, hheld, rfl⟩, rfl⟩
    exact ⟨n, rfl, hn, hwide, hheld⟩
  · rintro ⟨n, rfl, hn, hwide, hheld⟩
    exact ⟨_, ⟨n, ⟨hn, hwide⟩, hheld, rfl⟩, rfl⟩

theorem ofLiteral_toString (name : String) {kind : IntKind} {n : Int} (hn : kind.holds n = true) :
    (⟨name, .int kind⟩ : ValueType).ofLiteral (toString n) =
      if IntKind.i64.holds n then some ⟨⟨name, .int kind⟩, .int kind n⟩ else none := by
  rw [ValueType.ofLiteral, Schema.ofLiteral, findSome?_readings_int, readInt64_toString]
  cases IntKind.i64.holds n with
  | false => rfl
  | true => simp [hn]

/-- Seven types hold nothing that is wider than 64 bits with a sign. -/
theorem IntKind.holds_i64_iff (kind : IntKind) :
    (∀ n, kind.holds n = true → IntKind.i64.holds n = true) ↔
      kind ≠ .i128 ∧ kind ≠ .u64 ∧ kind ≠ .u128 := by
  constructor
  · intro h
    have hwide := h (1 <<< 63)
    refine ⟨?_, ?_, ?_⟩
    · rintro rfl
      exact absurd (hwide (by decide)) (by decide)
    · rintro rfl
      exact absurd (hwide (by decide)) (by decide)
    · rintro rfl
      exact absurd (hwide (by decide)) (by decide)
  · intro hkind n hn
    have hbounds : IntKind.i64.lowest ≤ kind.lowest ∧ kind.highest ≤ IntKind.i64.highest := by
      cases kind with
      | i128 => exact absurd rfl hkind.1
      | u64 => exact absurd rfl hkind.2.1
      | u128 => exact absurd rfl hkind.2.2
      | _ => decide
    simp only [holds, Bool.and_eq_true, decide_eq_true_eq] at hn ⊢
    exact ⟨hbounds.1.trans hn.1, hn.2.trans hbounds.2⟩

/--
**A literal declares the integer that it denotes, up to 64 bits with a sign.**

The text of an integer that a type holds is read as that integer if it has 64 bits with a
sign, and not at all otherwise. All integers of a type can be declared like this, except
for the two types of 128 bits and the unsigned one of 64. And whatever text is read, it
denotes one integer, which the type holds and which it is read as.
-/
theorem literal_declares_integer (name : String) (kind : IntKind) :
    let type : ValueType := ⟨name, .int kind⟩
    (∀ n : Int, kind.holds n = true → type.ofLiteral (toString n) =
      if IntKind.i64.holds n then some ⟨type, .int kind n⟩ else none) ∧
    ((∀ n, kind.holds n = true → IntKind.i64.holds n = true) ↔
      kind ≠ .i128 ∧ kind ≠ .u64 ∧ kind ≠ .u128) ∧
    ∀ literal v, type.ofLiteral literal = some v →
      ∃ n, v = ⟨type, .int kind n⟩ ∧ kind.holds n = true ∧
        ∀ m, Denotes literal.toList m ↔ m = n := by
  intro type
  refine ⟨fun n hn => ofLiteral_toString name hn, kind.holds_i64_iff, ?_⟩
  intro literal v h
  obtain ⟨n, hv, hn, -, hheld⟩ := ofLiteral_int_eq_some_iff.mp h
  refine ⟨n, hv, hheld, fun m => ?_⟩
  rw [← readInt_eq_some_iff, readInt_eq_some_iff.mpr hn, Option.some_inj, eq_comm]

/-- The lowest integer of 64 bits is a default of a wider type. -/
theorem lowest_default_declared :
    let type : ValueType := ⟨"i128", .int .i128⟩
    let lowest : Int := -9223372036854775808
    IntKind.i128.holds lowest = true ∧
      type.ofLiteral (toString lowest) = some ⟨type, .int .i128 lowest⟩ ∧
      ∀ m, Denotes (toString lowest).toList m ↔ m = lowest := by
  intro type lowest
  have hheld : IntKind.i128.holds lowest = true := by decide
  obtain ⟨hdeclared, -, hdenotes⟩ := literal_declares_integer "i128" .i128
  have hread : type.ofLiteral (toString lowest) = some ⟨type, .int .i128 lowest⟩ :=
    hdeclared lowest hheld
  obtain ⟨n, hn, -, hm⟩ := hdenotes _ _ hread
  cases hn
  exact ⟨hheld, hread, hm⟩

/-- An unsigned integer of 64 bits that has none to spare for a sign is no default. -/
theorem unsigned_default_undeclared :
    IntKind.u64.holds 9223372036854775808 = true ∧
      (⟨"u64", .int .u64⟩ : ValueType).ofLiteral (toString (9223372036854775808 : Int)) = none ∧
      toString (9223372036854775808 : Int) = "9223372036854775808" := by
  have hheld : IntKind.u64.holds 9223372036854775808 = true := by decide
  refine ⟨hheld, ?_, rfl⟩
  rw [ofLiteral_toString "u64" hheld]
  rfl

end BeanBinding
