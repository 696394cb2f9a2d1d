/-!
# Values as trees

Whatever a property holds, a writer sees a tree: scalars, optional values, sequences, records,
maps, and the alternatives of an enumeration. The kinds are kept apart even where they are written
alike, because emptiness and equality tell them apart.
-/

namespace BeanBinding

/-- The integer types by sign and width. -/
inductive IntKind where
  | i8 | i16 | i32 | i64 | i128 | u8 | u16 | u32 | u64 | u128
deriving DecidableEq, Repr

namespace IntKind

def signed : IntKind → Bool
  | i8 | i16 | i32 | i64 | i128 => true
  | u8 | u16 | u32 | u64 | u128 => false

def bits : IntKind → Nat
  | i8 | u8 => 8
  | i16 | u16 => 16
  | i32 | u32 => 32
  | i64 | u64 => 64
  | i128 | u128 => 128

def name (kind : IntKind) : String :=
  (if kind.signed then "i" else "u") ++ toString kind.bits

def lowest (kind : IntKind) : Int :=
  if kind.signed then -((1 <<< (kind.bits - 1) : Nat) : Int) else 0

def highest (kind : IntKind) : Int :=
  ((1 <<< (if kind.signed then kind.bits - 1 else kind.bits) : Nat) : Int) - 1

def holds (kind : IntKind) (n : Int) : Bool := kind.lowest ≤ n && n ≤ kind.highest

end IntKind

/-- A value as a tree. `fail` is a value that refuses to be written. -/
inductive Tree where
  | bool (b : Bool)
  | int (kind : IntKind) (n : Int)
  | float (x : Float)
  | float32 (x : Float32)
  | char (c : Char)
  | text (s : String)
  | bytes (bs : List UInt8)
  | unit
  | absent
  | present (t : Tree)
  | unitStruct
  | newtypeStruct (t : Tree)
  | unitVariant (name : String)
  | newtypeVariant (name : String) (t : Tree)
  | seq (ts : List Tree)
  | tuple (ts : List Tree)
  | tupleStruct (ts : List Tree)
  | tupleVariant (name : String) (ts : List Tree)
  | record (fields : List (String × Tree))
  | recordVariant (name : String) (fields : List (String × Tree))
  | map (entries : List (Tree × Tree))
  | fail (message : String)
deriving Inhabited

namespace Tree

mutual

/--
Equality kind by kind; floats are compared as numbers, so the value that is no number differs from
itself.
-/
def same : Tree → Tree → Bool
  | .bool a, .bool b => a == b
  | .int k m, .int l n => k == l && m == n
  | .float x, .float y => x == y
  | .float32 x, .float32 y => x == y
  | .char a, .char b => a == b
  | .text a, .text b => a == b
  | .bytes a, .bytes b => a == b
  | .unit, .unit => true
  | .absent, .absent => true
  | .present s, .present t => same s t
  | .unitStruct, .unitStruct => true
  | .newtypeStruct s, .newtypeStruct t => same s t
  | .unitVariant a, .unitVariant b => a == b
  | .newtypeVariant a s, .newtypeVariant b t => a == b && same s t
  | .seq ss, .seq ts => sameItems ss ts
  | .tuple ss, .tuple ts => sameItems ss ts
  | .tupleStruct ss, .tupleStruct ts => sameItems ss ts
  | .tupleVariant a ss, .tupleVariant b ts => a == b && sameItems ss ts
  | .record fs, .record gs => sameFields fs gs
  | .recordVariant a fs, .recordVariant b gs => a == b && sameFields fs gs
  | .map es, .map fs => sameEntries es fs
  | .fail a, .fail b => a == b
  | _, _ => false

def sameItems : List Tree → List Tree → Bool
  | [], [] => true
  | s :: ss, t :: ts => same s t && sameItems ss ts
  | _, _ => false

/-- Equality field by field, names included. -/
def sameFields : List (String × Tree) → List (String × Tree) → Bool
  | [], [] => true
  | (a, s) :: ss, (b, t) :: ts => a == b && same s t && sameFields ss ts
  | _, _ => false

def sameEntries : List (Tree × Tree) → List (Tree × Tree) → Bool
  | [], [] => true
  | (a, s) :: ss, (b, t) :: ts => same a b && same s t && sameEntries ss ts
  | _, _ => false

end

/--
Whether a value counts as empty: nothing, the empty text, and sequences, tuples and maps without
entries. Wrappers are looked through; records and the alternatives of enumerations are never empty,
and neither is a value that refuses to be written.
-/
def isEmpty : Tree → Bool
  | .text s => s.isEmpty
  | .bytes bs => bs.isEmpty
  | .unit => true
  | .absent => true
  | .present t => isEmpty t
  | .newtypeStruct t => isEmpty t
  | .seq ts => ts.isEmpty
  | .tuple ts => ts.isEmpty
  | .map es => es.isEmpty
  | _ => false

end Tree

end BeanBinding
