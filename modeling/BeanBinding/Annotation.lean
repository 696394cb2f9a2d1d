/-!
# Annotations

What is known about a property beside its type: annotations of several kinds, each with named
attributes. A kind is listed once, at the place of its first mention, and an attribute keeps the
value that was given last.
-/

namespace BeanBinding

/-- The value of an attribute. -/
inductive AttributeValue where
  | bool (b : Bool)
  | int (n : Int)
  | text (s : String)
deriving DecidableEq, Repr

namespace AttributeValue

def text? : AttributeValue → Option String
  | text s => some s
  | _ => none

def bool? : AttributeValue → Option Bool
  | bool b => some b
  | _ => none

def int? : AttributeValue → Option Int
  | int n => some n
  | _ => none

end AttributeValue

/-- An annotation of one kind with its attributes. -/
structure Annotation where
  kind : String
  values : List (String × AttributeValue)
deriving DecidableEq, Repr

/-- The annotations of a property, argument or type, in order of first mention. -/
structure Annotations where
  entries : List Annotation
deriving DecidableEq, Repr

/-! ## Well-known names -/

namespace Annotations.Kind

/-- Name, order, default and necessity of a property. -/
def property : String := "JsonProperty"

def description : String := "JsonPropertyDescription"

def nonnull : String := "Nonnull"

end Annotations.Kind

namespace Annotations.Attribute

def value : String := "value"

def required : String := "required"

def index : String := "index"

def defaultValue : String := "defaultValue"

end Annotations.Attribute

/-- Gives an attribute a value, in its old place if it has one. -/
def setAttribute (attr : String) (value : AttributeValue) :
    List (String × AttributeValue) → List (String × AttributeValue)
  | [] => [(attr, value)]
  | (name, old) :: rest =>
    if name = attr then (name, value) :: rest else (name, old) :: setAttribute attr value rest

/-- Changes the attributes of a kind, which is appended if it has not been mentioned. -/
def updateKind (kind : String)
    (change : List (String × AttributeValue) → List (String × AttributeValue)) :
    List Annotation → List Annotation
  | [] => [⟨kind, change []⟩]
  | a :: rest =>
    if a.kind = kind then ⟨a.kind, change a.values⟩ :: rest else a :: updateKind kind change rest

namespace Annotations

def empty : Annotations := ⟨[]⟩

def mark (as : Annotations) (kind : String) : Annotations := ⟨updateKind kind id as.entries⟩

def set (as : Annotations) (kind attr : String) (value : AttributeValue) : Annotations :=
  ⟨updateKind kind (setAttribute attr value) as.entries⟩

def isEmpty (as : Annotations) : Bool := as.entries.isEmpty

def find? (as : Annotations) (kind : String) : Option Annotation :=
  as.entries.find? fun a => a.kind = kind

def has (as : Annotations) (kind : String) : Bool := (as.find? kind).isSome

/-- Whether there is an annotation of one of several kinds. -/
def hasAny (as : Annotations) (kinds : List String) : Bool := kinds.any as.has

def value? (as : Annotations) (kind attr : String) : Option AttributeValue :=
  (as.find? kind).bind fun a => a.values.lookup attr

def text? (as : Annotations) (kind attr : String) : Option String :=
  (as.value? kind attr).bind (·.text?)

def bool? (as : Annotations) (kind attr : String) : Option Bool :=
  (as.value? kind attr).bind (·.bool?)

def int? (as : Annotations) (kind attr : String) : Option Int :=
  (as.value? kind attr).bind (·.int?)

/-- The kinds that are mentioned, in order of first mention. -/
def kinds (as : Annotations) : List String := as.entries.map (·.kind)

end Annotations

end BeanBinding
