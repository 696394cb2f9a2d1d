import BeanBinding.Tree.Basic

/-!
# What a declared type admits

A property declares which values it can hold. A `Schema` describes such a type far enough to decode
it from JSON, to read it from a literal, and to show it to people: scalars, optional values,
containers, named records and enumerations, and `any` for a tree of whatever shape.
-/

namespace BeanBinding

/-- What an alternative of an enumeration carries. -/
inductive Payload (α : Type) where
  | nothing
  | single (s : α)
  | several (ss : List α)
  | named (fields : List (String × α))

/-- One alternative of an enumeration, with its name in documents and its name for display. -/
structure Variant (α : Type) where
  written : String
  shown : String
  payload : Payload α

/-- A declared type. -/
inductive Schema where
  | bool
  | int (kind : IntKind)
  | float
  | char
  | text
  | unit
  | optional (s : Schema)
  | seq (s : Schema)
  /-- Text keys in ascending order, each once. -/
  | map (s : Schema)
  | tuple (ss : List Schema)
  | newtype (name : String) (s : Schema)
  /-- Named fields; a field with a default may be missing in a document. -/
  | record (name : String) (fields : List (String × Schema)) (defaults : List (String × Tree))
  | enumeration (name : String) (variants : List (Variant Schema))
  /-- Any tree. -/
  | any
  /--
  A type that no document can give, for the stated reason; values are displayed by one fixed text.
  -/
  | closed (reason : String) (shown : String)

end BeanBinding
