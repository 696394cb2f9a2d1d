import BeanBinding.Schema.Basic

/-!
# Default values of declared types

What stands for a value that nobody gave: nothing, zero and the empty text where there is no choice,
the first alternative of an enumeration, and records and tuples made of the defaults of their parts.
-/

namespace BeanBinding

mutual

def Schema.default : Schema → Tree
  | .bool => .bool false
  | .int kind => .int kind 0
  | .float => .float 0.0
  | .char => .char '\x00'
  | .text => .text ""
  | .optional _ => .absent
  | .seq _ => .seq []
  | .map _ => .map []
  | .tuple ss => .tuple (defaults ss)
  | .newtype _ s => .newtypeStruct s.default
  | .record _ fields _ => .record (fieldDefaults fields)
  | .enumeration _ variants => firstDefault variants
  | .unit | .any | .closed .. => .unit

def defaults : List Schema → List Tree
  | [] => []
  | s :: ss => s.default :: defaults ss

def fieldDefaults : List (String × Schema) → List (String × Tree)
  | [] => []
  | (name, s) :: fields => (name, s.default) :: fieldDefaults fields

/-- The first alternative, with default values for what it carries. -/
def firstDefault : List (Variant Schema) → Tree
  | [] => .unit
  | ⟨name, _, payload⟩ :: _ =>
    match payload with
    | .nothing => .unitVariant name
    | .single s => .newtypeVariant name s.default
    | .several ss => .tupleVariant name (defaults ss)
    | .named fields => .recordVariant name (fieldDefaults fields)

end

end BeanBinding
