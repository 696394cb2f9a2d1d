import BeanBinding.Json.Number
import BeanBinding.Text.Quoted

/-!
# The text of a JSON value

Compact: no blanks, names and strings quoted, entries in order. A broken value has no text.
-/

namespace BeanBinding.Json

def Key.text : Key → String
  | .name s => Text.encode s
  | _ => ""

mutual

def text : Json → String
  | .null => "null"
  | .bool true => "true"
  | .bool false => "false"
  | .number n => .ofList n.text
  | .string s => Text.encode s
  | .array items _ => "[" ++ ",".intercalate (itemTexts items) ++ "]"
  | .object entries _ => "\x7b" ++ ",".intercalate (entryTexts entries) ++ "\x7d"
  | .broken _ => ""

def itemTexts : List Json → List String
  | [] => []
  | item :: items => item.text :: itemTexts items

def entryTexts : List (Key × Json) → List String
  | [] => []
  | (key, value) :: entries => (key.text ++ ":" ++ value.text) :: entryTexts entries

end

end BeanBinding.Json
