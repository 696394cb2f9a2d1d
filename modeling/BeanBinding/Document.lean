import BeanBinding.Config
import BeanBinding.Error
import BeanBinding.Schema.Decoding

/-!
# Documents

A `Document` is what a deserializer reads a bean from: named entries in order, items in order, or
something that is neither. Entries with numbers for names are both, though no use as either: no name
can be read from them, and a pair stands where an item is due. A document ends regularly or with a
fault, and every name and value in it may be faulty; a reader meets the faults in the order in which
they stand.
-/

namespace BeanBinding

/-- A named entry of a document. -/
structure Entry where
  /-- The name, or why there is none. -/
  key : Except ReadError String
  /-- The value, or the fault between it and the name. -/
  value : Except Fault Json

/-- An item of a document, or why no value decodes from it. -/
abbrev Item := Except DecodeError Json

/-- The content of a document. -/
inductive Content where
  | entries (es : List Entry) (ending : Option Fault)
  | items (is : List Item) (ending : Option Fault)
  | numbered (es : List (Int × Int))
  | neither (found : Except Fault Found)

/-- A document, and the position of a decoder of the values in it. -/
structure Document where
  position : Position
  content : Content

namespace Document

def nameOf : Json.Key → Json → Except ReadError String
  | .name s, _ => .ok s
  | .broken read _, _ => .error (.fault read)
  | .misplaced, _ => .error (.fault .keyNotString)

def entryOf (key : Json.Key) (value : Json) : Entry where
  key := nameOf key value
  value := match value.colonFault with
    | some fault => .error fault
    | none => .ok value

def contentOf : Json → Content
  | .object entries ending =>
    .entries (entries.map fun (key, value) => entryOf key value) (ending.readFault .object)
  | .array items ending => .items (items.map .ok) (ending.readFault .list)
  | j => .neither j.found

/-- A JSON value as a document; a bean is a container of its own. -/
def ofJson (mode : Mode) (depth : Nat) (j : Json) : Document :=
  ⟨⟨mode, Json.maxDepth - depth - 1⟩, contentOf j⟩

def ofText (text : String) : Document := ofJson .streamed 0 (Json.parse text).1

/-- The document of a text that is loaded as a whole. -/
def ofLoadedText (text : String) : Except Fault Document :=
  (Json.loadText text).map (ofJson .loaded 0)

/-- A document with integers for names, which no bean has. -/
def ofNumbers (entries : List (Int × Int)) : Document := ⟨.start .loaded, .numbered entries⟩

def numberedEntry (e : Int × Int) : Entry where
  key := .error (.mismatch (.integer e.1) "a property name")
  value := .ok (.number (.ofInt e.2))

/-- What a reader of beans of a shape sees: entries with numbers for names take either form. -/
def seenAs (d : Document) (shape : Shape) : Content :=
  match shape, d.content with
  | .object, .numbered es => .entries (es.map numberedEntry) none
  | .array, .numbered es => .items (es.map fun _ => .error (.mismatch .sequence "option")) none
  | _, content => content

end Document

/-- Decodes the value at the start of a text, or the one that the whole text holds. -/
def ValueDecoder.decodeText (d : ValueDecoder) (mode : Mode) (text : String) :
    Except ReadError (Option Value) := do
  let j ← match mode with
    | .streamed => pure (Json.parse text).1
    | .loaded => (Json.loadText text).mapError .fault
  (d.decode (.start mode) j).mapError .value

end BeanBinding
