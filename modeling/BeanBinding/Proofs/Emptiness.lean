import BeanBinding.Json.Printer
import BeanBinding.Proofs.Writing
import Mathlib.Data.Nat.Digits.Defs

/-!
# Emptiness and what is written

Whether a value counts as empty is decided by its kind, without writing it; what a reader
of the text sees is one of four texts that hold nothing. The two agree but for values that
are something and write nothing: records that have no fields, alternatives that have no
name, and floats that are no numbers.

There are two steps. Only four written values have one of the four texts, because every
other text begins differently or has something inside; and only empty values, and those
exceptions, are written as one of the four. A value that cannot be written is not empty,
whatever it is that cannot be.
-/

namespace BeanBinding

/-! ## Floats that are numbers -/

namespace Decimal

open Float.Model

/-- What bits say is a number, neither infinite nor meant to be none. -/
def Binary.IsNumber : Binary → Prop
  | .finite .. => True
  | .nan | .infinite _ => False

/-- The last exponent is set apart for what is no number. -/
theorem isNumber_ofFields_iff {width places word : Nat} :
    (Binary.ofFields width places word).IsNumber ↔
      word >>> places % 2 ^ width ≠ 2 ^ width - 1 := by
  rw [Binary.ofFields]
  simp only [Nat.one_shiftLeft]
  split
  · next hlast => split <;> simp [Binary.IsNumber, hlast]
  · next hlast => split <;> simp [Binary.IsNumber, hlast]

theorem toNat_unpackExponent {format : Format} (word : BitVec format.numBits) :
    (UnpackedFloat.unpackExponent word).toNat =
      word.toNat >>> format.mantissaBitsWithoutImplicit % 2 ^ format.exponentBits := by
  have hbits := format.he
  rw [UnpackedFloat.unpackExponent, BitVec.toNat_cast, BitVec.extractLsb_toNat]
  congr 2
  omega

theorem isFinite_unpack_iff {format : Format} (word : BitVec format.numBits) :
    (UnpackedFloat.unpack format word).isFinite = true ↔
      word.toNat >>> format.mantissaBitsWithoutImplicit % 2 ^ format.exponentBits ≠
        2 ^ format.exponentBits - 1 := by
  have hlast : (UnpackedFloat.unpackExponent word).toNat = 2 ^ format.exponentBits - 1 ↔
      UnpackedFloat.unpackExponent word = -1#_ := by
    rw [BitVec.toNat_eq, BitVec.neg_one_eq_allOnes, BitVec.toNat_allOnes]
  rw [← toNat_unpackExponent, ne_eq, hlast]
  show (if UnpackedFloat.unpackExponent word = -1#_ then _ else if _ then _ else _ :
    UnpackedFloat).isFinite = true ↔ _
  by_cases hexponent : UnpackedFloat.unpackExponent word = -1#_
  · -- the fraction says only which of the two it is, infinite or no number
    refine iff_of_false ?_ (not_not.mpr hexponent)
    rw [if_pos hexponent]
    by_cases hfraction : UnpackedFloat.unpackMantissa word = 0#_
    · rw [if_pos hfraction]
      exact Bool.false_ne_true
    · rw [if_neg hfraction]
      exact Bool.false_ne_true
  · refine iff_of_true ?_ hexponent
    rw [if_neg hexponent]
    by_cases hlowest : UnpackedFloat.unpackExponent word = 0#_
    · rw [if_pos hlowest]
      by_cases hfraction : UnpackedFloat.unpackMantissa word = 0#_
      · rw [dif_pos hfraction]
        rfl
      · rw [dif_neg hfraction]
        rfl
    · rw [if_neg hlowest]
      rfl

theorem isNumber_ofFloat_iff (x : Float) : (Binary.ofFloat x).IsNumber ↔ x.isFinite = true := by
  rw [Binary.ofFloat, isNumber_ofFields_iff]
  exact (@isFinite_unpack_iff .binary64 _).symm

theorem isNumber_ofFloat32_iff (x : Float32) :
    (Binary.ofFloat32 x).IsNumber ↔ x.isFinite = true := by
  rw [Binary.ofFloat32, isNumber_ofFields_iff]
  exact (@isFinite_unpack_iff .binary32 _).symm

end Decimal

/-! ## How texts begin -/

/-- Characters of which the first is a digit. -/
def BeginsWithDigit (cs : List Char) : Prop := ∃ c, cs.head? = some c ∧ c.isDigit = true

theorem beginsWithDigit_toDigits (n : Nat) : BeginsWithDigit (Nat.toDigits 10 n) := by
  have hne : Nat.toDigits 10 n ≠ [] := Nat.toDigits_ne_nil
  refine ⟨_, List.head?_eq_some_head hne, ?_⟩
  exact Nat.isDigit_of_mem_toDigits (by decide) (by decide) (List.head_mem hne)

theorem BeginsWithDigit.append {cs : List Char} (h : BeginsWithDigit cs) (ds : List Char) :
    BeginsWithDigit (cs ++ ds) := by
  obtain ⟨c, hc, hdigit⟩ := h
  exact ⟨c, by rw [List.head?_append, hc, Option.some_or], hdigit⟩

theorem BeginsWithDigit.take {cs : List Char} (h : BeginsWithDigit cs) {count : Nat}
    (hcount : count ≠ 0) : BeginsWithDigit (cs.take count) := by
  obtain ⟨c, hc, hdigit⟩ := h
  exact ⟨c, by rw [List.head?_take, if_neg hcount, hc], hdigit⟩

/-- However a decimal is laid out, there is a digit before the point. -/
theorem Decimal.Scaled.beginsWithDigit_parts (layout : Layout) (d : Scaled) :
    BeginsWithDigit (d.parts layout).whole := by
  have hdigits := beginsWithDigit_toDigits d.digits
  have hzero : BeginsWithDigit ['0'] := ⟨'0', rfl, by decide⟩
  rw [parts]
  split
  · split
    · exact hdigits.append _
    · dsimp only
      split
      · exact hdigits.take (by omega)
      · exact hzero
  · exact hdigits.take one_ne_zero

theorem Text.escape_ne_nil (c : Char) : escape c ≠ [] := by
  unfold escape
  split
  case h_8 => split <;> exact List.cons_ne_nil _ _
  all_goals exact List.cons_ne_nil _ _

namespace Json

theorem Number.beginsWithDigit_ofInt (n : Int) : BeginsWithDigit (Number.ofInt n).whole :=
  beginsWithDigit_toDigits _

/-- A float is written as a number with a digit to begin with, or as null if it is none. -/
theorem number_of_binary (layout : Decimal.Layout) (x : Decimal.Binary) :
    ¬ x.IsNumber ∧ ((Number.ofBinary layout x).map number).getD .null = .null ∨
      x.IsNumber ∧ ∃ n, ((Number.ofBinary layout x).map number).getD .null = .number n ∧
        BeginsWithDigit n.whole := by
  cases x with
  | finite negative mantissa exponent narrow =>
    exact .inr ⟨trivial, _, rfl, Decimal.Scaled.beginsWithDigit_parts _ _⟩
  | nan => exact .inl ⟨id, rfl⟩
  | infinite negative => exact .inl ⟨id, rfl⟩

theorem null_of_not_isNumber (layout : Decimal.Layout) {x : Decimal.Binary} (hx : ¬ x.IsNumber) :
    ((Number.ofBinary layout x).map number).getD .null = .null := by
  obtain ⟨-, hnull⟩ | ⟨hnumber, -⟩ := number_of_binary layout x
  · exact hnull
  · exact absurd hnumber hx

/-- A number begins with its sign or a digit. -/
theorem Number.head?_text {n : Number} (h : BeginsWithDigit n.whole) :
    ∃ c, n.text.head? = some c ∧ (c = '-' ∨ c.isDigit = true) := by
  rw [Number.text]
  cases n.negative with
  | true => exact ⟨'-', rfl, .inl rfl⟩
  | false =>
    obtain ⟨c, hc, hdigit⟩ := (h.append _).append _
    exact ⟨c, hc, .inr hdigit⟩

/-! ## Texts that hold nothing -/

/-- The texts of null, of the empty text and of containers without entries. -/
def blankTexts : List String := ["null", "\"\"", "[]", "\x7b\x7d"]

/-- The four values whose texts these are. -/
inductive Blank : Json → Prop where
  | null : Blank .null
  | string : Blank (.string "")
  | array {ending : Ending} : Blank (.array [] ending)
  | object {ending : Ending} : Blank (.object [] ending)

theorem blank_string_iff {s : String} : (string s).Blank ↔ s = "" := by
  constructor
  · rintro ⟨⟩
    rfl
  · rintro rfl
    exact .string

theorem blank_array_iff {items : List Json} {ending : Ending} :
    (array items ending).Blank ↔ items = [] := by
  constructor
  · rintro ⟨⟩
    rfl
  · rintro rfl
    exact .array

theorem blank_object_iff {entries : List (Key × Json)} {ending : Ending} :
    (object entries ending).Blank ↔ entries = [] := by
  constructor
  · rintro ⟨⟩
    rfl
  · rintro rfl
    exact .object

/-- What is written well enough to have a text of its own. -/
inductive Spelt : Json → Prop where
  | null : Spelt .null
  | bool (b : Bool) : Spelt (.bool b)
  | number {n : Number} (h : BeginsWithDigit n.whole) : Spelt (.number n)
  | string (s : String) : Spelt (.string s)
  | array {items : List Json} {ending : Ending} (h : ∀ item ∈ items, item.text ≠ "") :
    Spelt (.array items ending)
  | object (entries : List (Key × Json)) (ending : Ending) : Spelt (.object entries ending)

/-- Three of the four texts are two marks with nothing between them, and the fourth is a word. -/
theorem head?_of_mem_blankTexts {s : String} (h : s ∈ blankTexts) :
    s.toList.head? = some 'n' ∧ s.toList.length = 4 ∨
      s.toList.head? ∈ [some '"', some '[', some '\x7b'] ∧ s.toList.length = 2 := by
  revert s
  decide

theorem ofList_not_mem_blankTexts {cs : List Char} {c : Char} (hc : cs.head? = some c)
    (h : c = '-' ∨ c.isDigit = true) : String.ofList cs ∉ blankTexts := by
  intro hs
  have hmarks : c ∈ ['n', '"', '[', '\x7b'] := by
    have hhead := head?_of_mem_blankTexts hs
    rw [String.toList_ofList, hc] at hhead
    simp only [List.mem_cons, Option.some_inj] at hhead ⊢
    tauto
  -- none of the four begins as a number does
  obtain rfl | hdigit := h
  · exact absurd hmarks (by decide)
  · have hnone : ['n', '"', '[', '\x7b'].all (fun m => !m.isDigit) = true := by decide
    have hmark := List.all_eq_true.mp hnone c hmarks
    rw [hdigit] at hmark
    cases hmark

/-- A text between two marks is one of the four only if there is nothing between them. -/
theorem enclosed_mem_blankTexts_iff {first last : Char} {inside : List Char}
    (hmarks : String.ofList [first, last] ∈ blankTexts) :
    String.ofList (first :: (inside ++ [last])) ∈ blankTexts ↔ inside = [] := by
  constructor
  · intro h
    have hfirst := head?_of_mem_blankTexts hmarks
    have hwhole := head?_of_mem_blankTexts h
    simp only [String.toList_ofList, List.head?_cons, List.length_cons, List.length_append,
      List.length_nil] at hfirst hwhole
    obtain ⟨-, hlength⟩ | ⟨hmark, -⟩ := hfirst
    · cases hlength
    obtain ⟨hword, -⟩ | ⟨-, hlength⟩ := hwhole
    · rw [hword] at hmark
      exact absurd hmark (by decide)
    · exact List.length_eq_zero_iff.mp (by omega)
  · rintro rfl
    exact hmarks

theorem encode_mem_blankTexts_iff {s : String} : Text.encode s ∈ blankTexts ↔ s = "" := by
  rw [Text.encode, List.cons_append, enclosed_mem_blankTexts_iff (by decide),
    List.flatMap_eq_nil_iff]
  constructor
  · intro h
    rw [← String.toList_eq_nil_iff]
    exact List.eq_nil_iff_forall_not_mem.mpr fun c hc => Text.escape_ne_nil c (h c hc)
  · rintro rfl
    simp

theorem intercalate_eq_empty_iff {texts : List String} (h : ∀ text ∈ texts, text ≠ "") :
    ",".intercalate texts = "" ↔ texts = [] := by
  cases texts with
  | nil => simp
  | cons first rest =>
    have hfirst : first ≠ "" := h first List.mem_cons_self
    cases rest with
    | nil => simp [hfirst]
    | cons second rest => simp [String.append_eq_empty_iff]

theorem itemTexts_eq_map (items : List Json) : itemTexts items = items.map text := by
  induction items with
  | nil => rfl
  | cons item items ih => rw [itemTexts, ih, List.map_cons]

/-- Entries have texts even where their names and values have none. -/
theorem ne_empty_of_mem_entryTexts {entries : List (Key × Json)} :
    ∀ text ∈ entryTexts entries, text ≠ "" := by
  induction entries with
  | nil => simp [entryTexts]
  | cons entry entries ih =>
    rw [entryTexts, List.forall_mem_cons]
    exact ⟨by simp [String.append_eq_empty_iff], ih⟩

theorem entryTexts_eq_nil_iff {entries : List (Key × Json)} :
    entryTexts entries = [] ↔ entries = [] := by
  cases entries with
  | nil => simp [entryTexts]
  | cons entry entries => simp [entryTexts]

/-- A container that writes something between its brackets has something in it. -/
theorem bracketed_mem_blankTexts_iff {first last : Char} {texts : List String}
    (hmarks : String.ofList [first, last] ∈ blankTexts) (htexts : ∀ text ∈ texts, text ≠ "") :
    String.ofList [first] ++ ",".intercalate texts ++ String.ofList [last] ∈ blankTexts ↔
      texts = [] := by
  have htext : String.ofList [first] ++ ",".intercalate texts ++ String.ofList [last] =
      String.ofList (first :: ((",".intercalate texts).toList ++ [last])) := by
    rw [← String.toList_inj]
    simp
  rw [htext, enclosed_mem_blankTexts_iff hmarks, String.toList_eq_nil_iff,
    intercalate_eq_empty_iff htexts]

/-- Of what has a text of its own, four values have one that holds nothing. -/
theorem text_mem_blankTexts_iff {j : Json} (h : j.Spelt) : j.text ∈ blankTexts ↔ j.Blank := by
  cases h with
  | null =>
    rw [text]
    exact iff_of_true (by decide) .null
  | bool b =>
    cases b with
    | true => exact iff_of_false (by rw [text]; decide) nofun
    | false => exact iff_of_false (by rw [text]; decide) nofun
  | @number n hn =>
    obtain ⟨c, hc, hbegin⟩ := Number.head?_text hn
    rw [text]
    exact iff_of_false (ofList_not_mem_blankTexts hc hbegin) nofun
  | string s => rw [text, encode_mem_blankTexts_iff, blank_string_iff]
  | @array items ending hitems =>
    have htexts : ∀ written ∈ items.map text, written ≠ "" := List.forall_mem_map.mpr hitems
    rw [text, itemTexts_eq_map]
    -- the brackets as texts of one character
    show String.ofList ['['] ++ _ ++ String.ofList [']'] ∈ _ ↔ _
    rw [bracketed_mem_blankTexts_iff (by decide) htexts, List.map_eq_nil_iff, blank_array_iff]
  | object entries ending =>
    rw [text]
    show String.ofList ['\x7b'] ++ _ ++ String.ofList ['\x7d'] ∈ _ ↔ _
    rw [bracketed_mem_blankTexts_iff (by decide) ne_empty_of_mem_entryTexts,
      entryTexts_eq_nil_iff, blank_object_iff]

end Json

/-! ## Written values -/

namespace Tree

/-- What a value is behind optional values and the structs around a single one. -/
def core : Tree → Tree
  | .present t => core t
  | .newtypeStruct t => core t
  | t => t

/-- Values that are something, though their texts hold nothing. -/
inductive Silent : Tree → Prop where
  | unitStruct : Silent .unitStruct
  | tupleStruct : Silent (.tupleStruct [])
  | record : Silent (.record [])
  | unnamed : Silent (.unitVariant "")
  | float {x : Float} (h : x.isFinite = false) : Silent (.float x)
  | float32 {x : Float32} (h : x.isFinite = false) : Silent (.float32 x)

theorem itemsToJson_nil_iff {ts : List Tree} : itemsToJson ts = .ok [] ↔ ts = [] := by
  cases ts with
  | nil => simp [itemsToJson]
  | cons t ts => simp [itemsToJson, bind_eq_ok_iff, pure, Except.pure]

theorem fieldsToJson_nil_iff {fields : List (String × Tree)} :
    fieldsToJson fields = .ok [] ↔ fields = [] := by
  cases fields with
  | nil => simp [fieldsToJson]
  | cons field fields => simp [fieldsToJson, bind_eq_ok_iff, pure, Except.pure]

theorem entriesToJson_nil_iff {entries : List (Tree × Tree)} :
    entriesToJson entries = .ok [] ↔ entries = [] := by
  cases entries with
  | nil => simp [entriesToJson]
  | cons entry entries => simp [entriesToJson, bind_eq_ok_iff, pure, Except.pure]

/-- A float of either width, and whether it is a number. -/
inductive IsFloat : Tree → Bool → Prop where
  | float (x : Float) : IsFloat (.float x) x.isFinite
  | float32 (x : Float32) : IsFloat (.float32 x) x.isFinite

/-- Both widths are written by their bits, each in a layout of its own. -/
theorem IsFloat.toJson_eq {t : Tree} {finite : Bool} (h : t.IsFloat finite) :
    ∃ layout x, t.toJson = .ok (((Json.Number.ofBinary layout x).map Json.number).getD .null) ∧
      (x.IsNumber ↔ finite = true) := by
  cases h with
  | float x =>
    exact ⟨Json.layout64, .ofFloat x, by rw [toJson]; rfl, Decimal.isNumber_ofFloat_iff x⟩
  | float32 x =>
    exact ⟨Json.layout32, .ofFloat32 x, by rw [toJson]; rfl, Decimal.isNumber_ofFloat32_iff x⟩

theorem IsFloat.written {t : Tree} {finite : Bool} (h : t.IsFloat finite) {j : Json}
    (hj : t.toJson = .ok j) :
    finite = false ∧ j = .null ∨ finite = true ∧ ∃ n, j = .number n ∧ BeginsWithDigit n.whole := by
  obtain ⟨layout, x, hx, hnumber⟩ := h.toJson_eq
  rw [hx] at hj
  cases hj
  rw [← Bool.not_eq_true, ← hnumber]
  exact Json.number_of_binary layout x

theorem IsFloat.toJson_eq_null {t : Tree} (h : t.IsFloat false) : t.toJson = .ok .null := by
  obtain ⟨layout, x, hx, hnumber⟩ := h.toJson_eq
  rw [hx, Json.null_of_not_isNumber layout (mt hnumber.mp Bool.false_ne_true)]

/-- The number that a value is written as has a digit to begin with. -/
theorem beginsWithDigit_of_toJson {t : Tree} {n : Json.Number} (h : t.toJson = .ok (.number n)) :
    BeginsWithDigit n.whole := by
  cases t with
  | present t | newtypeStruct t => exact beginsWithDigit_of_toJson (by rwa [toJson] at h)
  | int kind m =>
    rw [toJson] at h
    cases h
    exact Json.Number.beginsWithDigit_ofInt m
  | float | float32 =>
    obtain ⟨-, hnull⟩ | ⟨-, m, hm, hdigit⟩ := IsFloat.written (by constructor) h
    · cases hnull
    · cases hm
      exact hdigit
  | newtypeVariant | seq | tuple | tupleStruct | tupleVariant | record | recordVariant | map =>
    rw [toJson] at h
    obtain ⟨_, -, h⟩ := bind_eq_ok_iff.mp h
    cases h
  | _ =>
    rw [toJson] at h
    cases h

theorem text_ne_empty {t : Tree} {j : Json} (h : t.toJson = .ok j) : j.text ≠ "" := by
  cases j with
  | null => rw [Json.text]; decide
  | bool b =>
    cases b with
    | true => rw [Json.text]; decide
    | false => rw [Json.text]; decide
  | number n =>
    obtain ⟨c, hc, -⟩ := Json.Number.head?_text (beginsWithDigit_of_toJson h)
    rw [Json.text]
    intro hempty
    rw [String.ofList_eq_empty_iff.mp hempty] at hc
    cases hc
  | string s =>
    rw [Json.text, Text.encode]
    simp
  | array items ending => simp [Json.text, String.append_eq_empty_iff]
  | object entries ending => simp [Json.text, String.append_eq_empty_iff]
  | broken b => exact absurd rfl (toJson_ne_broken h b)

/-- The items of a list are written values themselves. -/
theorem toJson_of_mem_items {ts : List Tree} {js : List Json} (h : itemsToJson ts = .ok js) :
    ∀ j ∈ js, ∃ t : Tree, t.toJson = .ok j := by
  induction ts generalizing js with
  | nil =>
    rw [itemsToJson] at h
    cases h
    simp
  | cons t ts ih =>
    rw [itemsToJson] at h
    obtain ⟨j, hj, h⟩ := bind_eq_ok_iff.mp h
    obtain ⟨rest, hrest, h⟩ := bind_eq_ok_iff.mp h
    cases h
    exact List.forall_mem_cons.mpr ⟨⟨t, hj⟩, ih hrest⟩

theorem toJson_of_mem_array {t : Tree} {items : List Json} {ending : Json.Ending}
    (h : t.toJson = .ok (.array items ending)) :
    ∀ item ∈ items, ∃ s : Tree, s.toJson = .ok item := by
  cases t with
  | present t | newtypeStruct t => exact toJson_of_mem_array (by rwa [toJson] at h)
  | bytes bs =>
    rw [toJson] at h
    cases h
    exact List.forall_mem_map.mpr fun b _ => ⟨.int .u8 b.toNat, by rw [toJson]⟩
  | seq ts | tuple ts | tupleStruct ts =>
    rw [toJson] at h
    obtain ⟨js, hjs, h⟩ := bind_eq_ok_iff.mp h
    cases h
    exact toJson_of_mem_items hjs
  | float | float32 =>
    obtain ⟨-, hnull⟩ | ⟨-, n, hn, -⟩ := IsFloat.written (by constructor) h <;> contradiction
  | newtypeVariant | tupleVariant | record | recordVariant | map =>
    rw [toJson] at h
    obtain ⟨_, -, h⟩ := bind_eq_ok_iff.mp h
    cases h
  | _ =>
    rw [toJson] at h
    cases h

theorem spelt_of_toJson {t : Tree} {j : Json} (h : t.toJson = .ok j) : j.Spelt := by
  cases j with
  | null => exact .null
  | bool b => exact .bool b
  | number n => exact .number (beginsWithDigit_of_toJson h)
  | string s => exact .string s
  | array items ending =>
    refine .array fun item hitem => ?_
    obtain ⟨s, hs⟩ := toJson_of_mem_array h item hitem
    exact text_ne_empty hs
  | object entries ending => exact .object entries ending
  | broken b => exact absurd rfl (toJson_ne_broken h b)

/-! ## Emptiness -/

/-- Empty values can be written, and hold nothing when they are. -/
theorem blank_of_isEmpty {t : Tree} (h : t.isEmpty = true) : ∃ j, t.toJson = .ok j ∧ j.Blank := by
  cases t with
  | present t | newtypeStruct t =>
    rw [toJson]
    exact blank_of_isEmpty (by rwa [isEmpty] at h)
  | unit | absent => exact ⟨.null, by rw [toJson], .null⟩
  | text s =>
    rw [isEmpty, String.isEmpty_iff] at h
    subst h
    exact ⟨.string "", by rw [toJson], .string⟩
  | bytes bs =>
    rw [isEmpty, List.isEmpty_iff] at h
    subst h
    exact ⟨.list [], by rw [toJson]; rfl, .array⟩
  | seq ts | tuple ts =>
    rw [isEmpty, List.isEmpty_iff] at h
    subst h
    exact ⟨.list [], by rw [toJson, itemsToJson]; rfl, .array⟩
  | map entries =>
    rw [isEmpty, List.isEmpty_iff] at h
    subst h
    exact ⟨.record [], by rw [toJson, entriesToJson]; rfl, .object⟩
  | _ => cases h

/-- A value that holds nothing when it is written is empty, or it is silent. -/
theorem isEmpty_or_silent_of_blank {t : Tree} {j : Json} (h : t.toJson = .ok j) (hj : j.Blank) :
    t.isEmpty = true ∨ t.core.Silent := by
  cases t with
  | present t | newtypeStruct t =>
    rw [toJson] at h
    rw [isEmpty, core]
    exact isEmpty_or_silent_of_blank h hj
  | unit | absent => exact .inl rfl
  | unitStruct => exact .inr .unitStruct
  | float x =>
    obtain ⟨hx, -⟩ | ⟨-, n, rfl, -⟩ := (IsFloat.float x).written h
    · exact .inr (.float hx)
    · cases hj
  | float32 x =>
    obtain ⟨hx, -⟩ | ⟨-, n, rfl, -⟩ := (IsFloat.float32 x).written h
    · exact .inr (.float32 hx)
    · cases hj
  | text s =>
    rw [toJson] at h
    cases h
    rw [isEmpty, String.isEmpty_iff]
    exact .inl (Json.blank_string_iff.mp hj)
  | unitVariant name =>
    rw [toJson] at h
    cases h
    obtain rfl := Json.blank_string_iff.mp hj
    exact .inr .unnamed
  | char c =>
    rw [toJson] at h
    cases h
    exact absurd (Json.blank_string_iff.mp hj) String.singleton_ne_empty
  | bytes bs =>
    rw [toJson] at h
    cases h
    rw [isEmpty, List.isEmpty_iff]
    exact .inl (List.map_eq_nil_iff.mp (Json.blank_array_iff.mp hj))
  | seq ts | tuple ts =>
    rw [toJson] at h
    obtain ⟨js, hjs, h⟩ := bind_eq_ok_iff.mp h
    cases h
    rw [Json.blank_array_iff.mp hj, itemsToJson_nil_iff] at hjs
    rw [isEmpty, List.isEmpty_iff]
    exact .inl hjs
  | tupleStruct ts =>
    rw [toJson] at h
    obtain ⟨js, hjs, h⟩ := bind_eq_ok_iff.mp h
    cases h
    rw [Json.blank_array_iff.mp hj, itemsToJson_nil_iff] at hjs
    subst hjs
    exact .inr .tupleStruct
  | record fields =>
    rw [toJson] at h
    obtain ⟨entries, hentries, h⟩ := bind_eq_ok_iff.mp h
    cases h
    rw [List.map_eq_nil_iff.mp (Json.blank_object_iff.mp hj), fieldsToJson_nil_iff] at hentries
    subst hentries
    exact .inr .record
  | map entries =>
    rw [toJson] at h
    obtain ⟨written, hwritten, h⟩ := bind_eq_ok_iff.mp h
    cases h
    rw [List.map_eq_nil_iff.mp (Json.blank_object_iff.mp hj), entriesToJson_nil_iff] at hwritten
    rw [isEmpty, List.isEmpty_iff]
    exact .inl hwritten
  | newtypeVariant | tupleVariant | recordVariant =>
    -- there is an entry, under the name of the alternative
    rw [toJson] at h
    obtain ⟨_, -, h⟩ := bind_eq_ok_iff.mp h
    cases h
    cases hj
  | bool | int | fail =>
    rw [toJson] at h
    cases h <;> cases hj

/-- Values that are silent count as something, and hold nothing when they are written. -/
theorem blank_of_silent {t : Tree} (h : t.core.Silent) :
    t.isEmpty = false ∧ ∃ j, t.toJson = .ok j ∧ j.Blank := by
  cases t with
  | present t | newtypeStruct t =>
    rw [isEmpty, toJson]
    exact blank_of_silent (by rwa [core] at h)
  | unitStruct => exact ⟨rfl, .null, by rw [toJson], .null⟩
  | tupleStruct ts =>
    cases h
    exact ⟨rfl, .list [], by rw [toJson, itemsToJson]; rfl, .array⟩
  | record fields =>
    cases h
    exact ⟨rfl, .record [], by rw [toJson, fieldsToJson]; rfl, .object⟩
  | unitVariant name =>
    cases h
    exact ⟨rfl, .string "", by rw [toJson], .string⟩
  | float x =>
    cases h with
    | float hx => exact ⟨rfl, .null, (hx ▸ IsFloat.float x).toJson_eq_null, .null⟩
  | float32 x =>
    cases h with
    | float32 hx => exact ⟨rfl, .null, (hx ▸ IsFloat.float32 x).toJson_eq_null, .null⟩
  | _ => cases h

end Tree

/--
**Emptiness agrees with what would be written.**

An empty value can be written, as null, the empty text or a container without entries. A
value that is written as one of these is empty, or it is something that has nothing to
write: a struct of no fields, an alternative whose name is the empty text, or a float that
is no number. And a value that cannot be written is not empty.
-/
theorem emptiness_agrees_with_text (t : Tree) :
    (t.isEmpty = true → ∃ j, t.toJson = .ok j ∧ j.text ∈ Json.blankTexts) ∧
      (∀ j, t.toJson = .ok j → j.text ∈ Json.blankTexts → t.isEmpty = true ∨ t.core.Silent) ∧
      (t.core.Silent → t.isEmpty = false ∧ ∃ j, t.toJson = .ok j ∧ j.text ∈ Json.blankTexts) ∧
      ∀ fault, t.toJson = .error fault → t.isEmpty = false := by
  have htext {j : Json} (hj : t.toJson = .ok j) : j.text ∈ Json.blankTexts ↔ j.Blank :=
    Json.text_mem_blankTexts_iff (Tree.spelt_of_toJson hj)
  refine ⟨fun hempty => ?_, fun j hj hblank => ?_, fun hsilent => ?_, fun fault hfault => ?_⟩
  · obtain ⟨j, hj, hblank⟩ := Tree.blank_of_isEmpty hempty
    exact ⟨j, hj, (htext hj).mpr hblank⟩
  · exact Tree.isEmpty_or_silent_of_blank hj ((htext hj).mp hblank)
  · obtain ⟨hempty, j, hj, hblank⟩ := Tree.blank_of_silent hsilent
    exact ⟨hempty, j, hj, (htext hj).mpr hblank⟩
  · by_contra hempty
    obtain ⟨j, hj, -⟩ := Tree.blank_of_isEmpty (Bool.not_eq_false _ ▸ hempty)
    rw [hfault] at hj
    cases hj

/-- Behind wrappers, an empty text is empty, and a float that is no number is silent. -/
theorem wrapped_values_as_written :
    let label : Tree := .present (.newtypeStruct (.text ""))
    let ratio : Tree := .newtypeStruct (.present (.float (.ofBits 0x7ff8000000000000)))
    let sealed : Tree := .present (.fail "sealed")
    (label.isEmpty = true ∧ ∃ j, label.toJson = .ok j ∧ j.text ∈ Json.blankTexts) ∧
      (ratio.toJson = .ok .null ∧ Json.null.text ∈ Json.blankTexts ∧
        (ratio.isEmpty = true ∨ ratio.core.Silent) ∧ ratio.isEmpty = false) ∧
      sealed.toJson = .error (.refused "sealed") ∧ sealed.isEmpty = false := by
  intro label ratio sealed
  have hnumber : (Float.ofBits 0x7ff8000000000000).isFinite = false := by decide
  have hratio : ratio.toJson = .ok .null := by
    have hfloat : (Tree.float (.ofBits 0x7ff8000000000000)).IsFloat false := hnumber ▸ .float _
    rw [Tree.toJson, Tree.toJson, hfloat.toJson_eq_null]
  have hnull : Json.null.text ∈ Json.blankTexts := by
    rw [Json.text]
    decide
  have hsealed : sealed.toJson = .error (.refused "sealed") := by
    rw [Tree.toJson, Tree.toJson]
  obtain ⟨hlabel, -, -, -⟩ := emptiness_agrees_with_text label
  obtain ⟨-, hblank, hsilent, -⟩ := emptiness_agrees_with_text ratio
  obtain ⟨-, -, -, hfails⟩ := emptiness_agrees_with_text sealed
  exact ⟨⟨rfl, hlabel rfl⟩, ⟨hratio, hnull, hblank _ hratio hnull, (hsilent (.float hnumber)).1⟩,
    hsealed, hfails _ hsealed⟩

/--
An alternative without a name is written as the empty text, and is not empty. It is no
struct and no float.
-/
theorem unnamed_alternative_not_empty :
    let t : Tree := .unitVariant ""
    t.toJson = .ok (.string "") ∧ (Json.string "").text ∈ Json.blankTexts ∧ t.isEmpty = false ∧
      ¬ (t.core = .unitStruct ∨ t.core = .tupleStruct [] ∨ t.core = .record [] ∨
        (∃ x, t.core = .float x) ∨ ∃ x, t.core = .float32 x) := by
  intro t
  refine ⟨by rw [Tree.toJson], by rw [Json.text]; decide, rfl, ?_⟩
  rintro (h | h | h | ⟨x, h⟩ | ⟨x, h⟩) <;> cases h

end BeanBinding
