import BeanBinding.Property

/-!
# Records

A `Record` is a bean state made of named fields with typed contents, for types of beans whose fields
are given as data. Names are unique. An optional field may be empty; any other always has a content.
-/

namespace BeanBinding

/-- A field of a record. -/
structure Field where
  name : String
  type : ValueType
  optional : Bool
  /-- The content, or none for an empty field. -/
  value : Option Tree

/-- Fields in order. -/
abbrev Record := List Field

namespace Record

def field? (name : String) (r : Record) : Option Field := r.find? fun f => f.name = name

def get? (name : String) (r : Record) : Option Tree := (field? name r).bind (·.value)

/-- The content of the field of a name, or the default value of a type. -/
def getD (type : ValueType) (name : String) (r : Record) : Tree :=
  (get? name r).getD type.schema.default

/-- Gives a field a content, or empties it; only an optional field can be emptied. -/
def put (name : String) (value : Option Tree) (r : Record) : Record :=
  r.map fun f => if f.name = name ∧ (value.isSome ∨ f.optional) then { f with value } else f

/-- Gives a field a value; the field has the type of the value from then on. -/
def place (name : String) (v : Value) (r : Record) : Record :=
  r.map fun f => if f.name = name then { f with type := v.type, value := some v.tree } else f

/-- Gives the named fields their values, place by place; null, or no name, leaves things alone. -/
def fill (names : List (Option String)) (values : List (Option Value)) (r : Record) : Record :=
  (names.zip values).foldl (fun r entry =>
    match entry with
    | (some name, some v) => place name v r
    | _ => r) r

/--
Assigns a value to a field, or null to an optional one, of a bean of the owning type. Other beans,
and records without the field, are left alone.
-/
def assign (owner : BeanType) (name : String) : WriteAccess Record := fun value => do
  let bean ← get
  if bean.type ≠ owner then return ()
  match field? name bean.state, value with
  | none, _ => return ()
  | some _, some v => set { bean with state := place name v bean.state }
  | some f, none =>
    if f.optional then set { bean with state := put name none bean.state }
    else throw .nullNotAccepted

/-- The fields as a map from their names to their contents. -/
def toTree (r : Record) : Tree := .map (r.map fun f => (.text f.name, f.value.getD .absent))

end Record

end BeanBinding
