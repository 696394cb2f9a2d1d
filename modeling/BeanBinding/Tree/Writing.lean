import BeanBinding.Json.Number
import BeanBinding.Text.Located
import BeanBinding.Tree.Basic

/-!
# Writing a tree as JSON

Absence, unit values and floats without a number become null, wrappers disappear, and an alternative
of an enumeration is a string or an object with one entry. A map needs names for keys: texts,
characters and plain alternatives serve as they are, numbers and truth values by their text.
-/

namespace BeanBinding

/-- Why a tree has no JSON form. -/
inductive WriteFault where
  | keyNotText
  | keyNotFinite
  | refused (message : String)
deriving DecidableEq, Repr

def WriteFault.message : WriteFault → String
  | keyNotText => "key must be a string"
  | keyNotFinite => "float key must be finite (got NaN or +/-inf)"
  | refused message => Text.settled message

namespace Tree

open Json

/-- The name that the number of a float gives as a key. -/
def numberKey : Option Number → Except WriteFault String
  | some n => .ok (.ofList n.text)
  | none => .error .keyNotFinite

def keyName : Tree → Except WriteFault String
  | .text s => .ok s
  | .char c => .ok (.singleton c)
  | .unitVariant name => .ok name
  | .int _ n => .ok (.ofList (Number.ofInt n).text)
  | .bool b => .ok (if b then "true" else "false")
  | .float x => numberKey (Number.ofFloat x)
  | .float32 x => numberKey (Number.ofFloat32 x)
  | .present t => keyName t
  | .newtypeStruct t => keyName t
  | .fail message => .error (.refused message)
  | _ => .error .keyNotText

mutual

def toJson : Tree → Except WriteFault Json
  | .bool b => .ok (.bool b)
  | .int _ n => .ok (.number (.ofInt n))
  | .float x => .ok (.ofFloat x)
  | .float32 x => .ok (.ofFloat32 x)
  | .char c => .ok (.string (.singleton c))
  | .text s => .ok (.string s)
  | .bytes bs => .ok (.list (bs.map fun b => .number (.ofInt b.toNat)))
  | .unit | .absent | .unitStruct => .ok .null
  | .present t | .newtypeStruct t => toJson t
  | .unitVariant name => .ok (.string name)
  | .newtypeVariant name t => do return .record [(name, ← toJson t)]
  | .seq ts | .tuple ts | .tupleStruct ts => do return .list (← itemsToJson ts)
  | .tupleVariant name ts => do return .record [(name, .list (← itemsToJson ts))]
  | .record fields => do return .record (← fieldsToJson fields)
  | .recordVariant name fields => do return .record [(name, .record (← fieldsToJson fields))]
  | .map entries => do return .record (← entriesToJson entries)
  | .fail message => .error (.refused message)

/-- The JSON forms of the items of a sequence, up to the first that has none. -/
def itemsToJson : List Tree → Except WriteFault (List Json)
  | [] => .ok []
  | t :: ts => do return (← toJson t) :: (← itemsToJson ts)

def fieldsToJson : List (String × Tree) → Except WriteFault (List (String × Json))
  | [] => .ok []
  | (name, t) :: fields => do return (name, ← toJson t) :: (← fieldsToJson fields)

def entriesToJson : List (Tree × Tree) → Except WriteFault (List (String × Json))
  | [] => .ok []
  | (key, t) :: entries => do
    let name ← keyName key
    return (name, ← toJson t) :: (← entriesToJson entries)

end

end Tree

end BeanBinding
