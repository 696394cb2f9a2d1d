import BeanBinding.Json.Number
import BeanBinding.Json.Parser

/-!
# Loading a JSON text as a whole

A loaded value has no faults: every number is in range, every string decodes, containers are closed
and nested no deeper than the limit. The entries of its objects are in ascending order of their
names, each name once; of entries with one name the last is kept.
-/

namespace BeanBinding

/-- Gives a name a value in a list with ascending names. -/
def insertSorted {α : Type} (key : String) (value : α) : List (String × α) → List (String × α)
  | [] => [(key, value)]
  | (k, v) :: entries =>
    if key < k then (key, value) :: (k, v) :: entries
    else if key = k then (key, value) :: entries
    else (k, v) :: insertSorted key value entries

namespace Json

def maxDepth : Nat := 127

mutual

/-- The value without its faults, or the first of them. -/
def load (room : Nat) : Json → Except Fault Json
  | .number n => n.read.map fun _ => .number n
  | .array items ending =>
    match room with
    | 0 => .error .tooDeep
    | room + 1 => do
      let items ← loadItems room items
      match ending.readFault .list with
      | some fault => throw fault
      | none => return .list items
  | .object entries ending =>
    match room with
    | 0 => .error .tooDeep
    | room + 1 => do
      let entries ← loadEntries room entries []
      match ending.readFault .object with
      | some fault => throw fault
      | none => return .record entries
  | .broken b => .error b.readFault
  | j => .ok j

def loadItems (room : Nat) : List Json → Except Fault (List Json)
  | [] => .ok []
  | item :: items => do return (← load room item) :: (← loadItems room items)

/-- The entries without their faults, sorted into those before them. -/
def loadEntries (room : Nat) :
    List (Key × Json) → List (String × Json) → Except Fault (List (String × Json))
  | [], sorted => .ok sorted
  | (.name key, value) :: entries, sorted => do
    loadEntries room entries (insertSorted key (← load room value) sorted)
  | (.broken read _, _) :: _, _ => .error read
  | (.misplaced, _) :: _, _ => .error .keyNotString

end

def hasTrailing (rest : Option (List Char)) : Bool := rest.any fun cs => !(skipBlanks cs).isEmpty

def loadText (text : String) : Except Fault Json := do
  let (j, rest) := parse text
  let j ← load maxDepth j
  if hasTrailing rest then throw .trailingText
  return j

end Json

end BeanBinding
