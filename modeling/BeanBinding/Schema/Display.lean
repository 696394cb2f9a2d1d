import BeanBinding.Decimal.Layout
import BeanBinding.Schema.Basic
import BeanBinding.Text.Quoted

/-!
# Showing values to people

The display form names the parts of a value: texts and characters are quoted, records and
alternatives carry their names, and floats always look like floats.
-/

namespace BeanBinding

/-- A displayed float is positional from `0.0001` to below `10 ^ 16`; ties go away from zero. -/
def displayLayout : Decimal.Layout := ⟨-4, 15, false, .away⟩

def displayFloat : Decimal.Binary → String
  | .nan => "NaN"
  | .infinite negative => if negative then "-inf" else "inf"
  | .finite negative mantissa exponent narrow =>
    let digits := Decimal.shortest displayLayout.tie mantissa exponent narrow
    let parts := digits.parts displayLayout
    let text := parts.text displayLayout.plus
    .ofList (if negative then '-' :: text else text)

def bracketed (items : List String) : String := "[" ++ ", ".intercalate items ++ "]"

/-- A name with parts in parentheses; a nameless single part keeps a comma. -/
def parenthesized (name : String) (items : List String) : String :=
  match name, items with
  | "", [item] => "(" ++ item ++ ",)"
  | name, items => name ++ "(" ++ ", ".intercalate items ++ ")"

def braced (entries : List (String × String)) : String :=
  "\x7b" ++ ", ".intercalate (entries.map fun (k, v) => k ++ ": " ++ v) ++ "\x7d"

/-- A name with named parts; the last dots stand for parts that are not shown. -/
def shown (name : String) (parts : List (String × String)) (more : Bool) : String :=
  let parts := parts.map (fun (k, v) => k ++ ": " ++ v) ++ if more then [".."] else []
  if parts.isEmpty then name else name ++ " \x7b " ++ ", ".intercalate parts ++ " \x7d"

def displayOption : Option String → String
  | none => "None"
  | some s => "Some(" ++ s ++ ")"

def displayBool (b : Bool) : String := if b then "true" else "false"

mutual

def Schema.display : Schema → Tree → String
  | .bool, .bool b => displayBool b
  | .int _, .int _ n => toString n
  | .float, .float x => displayFloat (.ofFloat x)
  | .char, .char c => Text.displayQuotedChar c
  | .text, .text s => Text.display s
  | .unit, _ => "()"
  | .optional s, .present t => displayOption (s.display t)
  | .optional _, _ => displayOption none
  | .seq s, .seq ts => bracketed (ts.map s.display)
  | .map s, .map es =>
    braced (es.map fun (key, t) =>
      ((match key with | .text k => Text.display k | _ => ""), s.display t))
  | .tuple ss, .tuple ts => parenthesized "" (displayAll ss ts)
  | .newtype name s, .newtypeStruct t => parenthesized name [s.display t]
  | .record name fields _, .record parts => shown name (displayFields fields parts) false
  | .enumeration _ variants, t => displayVariant variants t
  | .closed _ text, _ => text
  | _, _ => "?"

def displayAll : List Schema → List Tree → List String
  | s :: ss, t :: ts => s.display t :: displayAll ss ts
  | _, _ => []

def displayFields : List (String × Schema) → List (String × Tree) → List (String × String)
  | (name, s) :: fields, (_, t) :: parts => (name, s.display t) :: displayFields fields parts
  | _, _ => []

/-- The display form of an alternative of an enumeration. -/
def displayVariant : List (Variant Schema) → Tree → String
  | [], _ => "?"
  | ⟨written, name, payload⟩ :: variants, t =>
    match payload, t with
    | .nothing, .unitVariant v => if v = written then name else displayVariant variants t
    | .single s, .newtypeVariant v u =>
      if v = written then parenthesized name [s.display u] else displayVariant variants t
    | .several ss, .tupleVariant v ts =>
      if v = written then parenthesized name (displayAll ss ts) else displayVariant variants t
    | .named fields, .recordVariant v parts =>
      if v = written then shown name (displayFields fields parts) false
      else displayVariant variants t
    | _, _ => displayVariant variants t

end

end BeanBinding
