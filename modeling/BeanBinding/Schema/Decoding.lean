import BeanBinding.Json.Loading
import BeanBinding.Schema.Basic
import BeanBinding.Schema.DecodeError

/-!
# Decoding JSON by a declared type

A `TreeDecoder` turns a JSON value into a tree or says why it cannot; `Schema.decoder` composes the
one of a declared type. A document is decoded in one of two modes. A *streamed* document is decoded
while its text is read: faults of the text surface where they are met, and only so many containers
may be open at a time. A *loaded* document has been read as a whole before, so it has no faults
left; a few errors are worded differently, because a loaded container is known to its end.

A wide integer in a running text is read to the end of its digits, even if the number goes on. What
is left unread is then in the way of whoever reads on: the container that the value stands in, which
expects a separator or its end there.
-/

namespace BeanBinding

/-- Whether a document is decoded from its running text or after it has been loaded as a whole. -/
inductive Mode where
  | streamed
  | loaded
deriving DecidableEq, Repr

/-- A decoder's position: the mode, and how many more containers it may open in streamed mode. -/
structure Position where
  mode : Mode
  room : Nat

/-- The position of a decoder that has opened a container. -/
def Position.enter (r : Position) : Except DecodeError Position :=
  match r.mode, r.room with
  | .loaded, _ => .ok r
  | .streamed, 0 => .error (.fault .tooDeep)
  | .streamed, room + 1 => .ok ⟨.streamed, room⟩

def Position.start (mode : Mode) : Position := ⟨mode, Json.maxDepth⟩

/--
A way to decode something from a document. `leavesRest` says when a part of the document that
belongs to it stays unread.
-/
structure Decoder (α : Type) where
  decode : Position → Json → Except DecodeError α
  leavesRest : Mode → Json → Bool

/-- A way to turn JSON values into trees. -/
abbrev TreeDecoder := Decoder Tree

namespace Json

/-- What a decoder finds that did not expect this value. -/
def found : Json → Except Fault Found
  | .null => .ok .null
  | .bool b => .ok (.bool b)
  | .number n => n.read.map fun
    | .nat n => .integer n
    | .negative n => .integer n
    | .float x => .float x
  | .string s => .ok (.text s)
  | .array .. => .ok .sequence
  | .object .. => .ok .map
  | .broken b => .error b.readFault

/-- The error of a decoder that expected another kind of value. -/
def mismatch (j : Json) (expected : String) : DecodeError :=
  match j.found with
  | .ok found => .mismatch found expected
  | .error fault => .fault fault

def colonFault : Json → Option Fault
  | .broken (.colon fault) => some fault
  | _ => none

/-- The fault that a reader of an entry meets before the entry's value. -/
def entryFault (key : Key) (value : Json) : Option Fault := key.readFault <|> value.colonFault

end Json

def rejectFault : Option Fault → Except DecodeError Unit
  | none => .ok ()
  | some fault => .error (.fault fault)

/-! ## Integers -/

/-- The integer, if the type holds it. -/
def IntKind.ofInteger (kind : IntKind) (n : Int) : Except DecodeError Tree :=
  if kind.holds n then .ok (.int kind n) else .error (.outside (.integer n) kind.name)

/-- The integer that a JSON number denotes, if the type holds it. -/
def IntKind.ofNumber (kind : IntKind) (n : Json.Number) : Except DecodeError Tree :=
  match n.read with
  | .error fault => .error (.fault fault)
  | .ok (.float x) => .error (.mismatch (.float x) kind.name)
  | .ok (.nat n) => kind.ofInteger n
  | .ok (.negative n) => kind.ofInteger n

/-- The 128-bit integer spelt by the digits before the point, which are all that is looked at. -/
def IntKind.ofDigits (kind : IntKind) (negative : Bool) (digits : List Char) :
    Except DecodeError Tree :=
  let n : Int := Nat.ofDigitChars 10 digits 0
  let n := if negative then -n else n
  if (negative && !kind.signed) || !kind.holds n then .error (.fault .numberRange)
  else .ok (.int kind n)

/-- A 128-bit integer at the place of `j` in a running text. -/
def IntKind.ofLeadingDigits (kind : IntKind) (j : Json) : Except DecodeError Tree :=
  match j with
  | .number n => kind.ofDigits n.negative n.whole
  | .broken (.number negative (some whole) _ _) => kind.ofDigits negative whole
  | .broken (.number true none _ _) =>
    .error (.fault (if kind.signed then .badNumber else .numberRange))
  | .broken .absent => .error (.fault .endInValue)
  | _ => .error (.fault .badNumber)

/--
Whether decoding the integer leaves a part of the number unread: a fraction, an exponent, or what
makes the number a broken one.
-/
def IntKind.leavesRest (kind : IntKind) (mode : Mode) (j : Json) : Bool :=
  match mode, j with
  | .streamed, .number n => kind.bits == 128 && !n.isWhole
  | .streamed, .broken (.number ..) => kind.bits == 128
  | _, _ => false

/-! ## Trees of any shape -/

def Json.Number.decodeAny (n : Json.Number) : Except DecodeError Tree :=
  match n.read with
  | .error fault => .error (.fault fault)
  | .ok (.nat n) => .ok (.int .u64 n)
  | .ok (.negative n) => .ok (.int .i64 n)
  | .ok (.float x) => .ok (.float x)

mutual

/-- Decodes without a declared type: the tree has the shape of the document. -/
def decodeAny (r : Position) : Json → Except DecodeError Tree
  | .null => .ok .unit
  | .bool b => .ok (.bool b)
  | .number n => n.decodeAny
  | .string s => .ok (.text s)
  | .array items ending => do
    let inner ← r.enter
    let ts ← decodeAnyItems inner items
    rejectFault (ending.readFault .list)
    return .seq ts
  | .object entries ending => do
    let inner ← r.enter
    let es ← decodeAnyEntries inner entries
    rejectFault (ending.readFault .object)
    return .map es
  | .broken b => .error (.fault b.readFault)

/-- Decodes the items of an array without a declared type. -/
def decodeAnyItems (r : Position) : List Json → Except DecodeError (List Tree)
  | [] => .ok []
  | item :: items => do return (← decodeAny r item) :: (← decodeAnyItems r items)

/-- Decodes the entries of an object without a declared type, duplicates included. -/
def decodeAnyEntries (r : Position) :
    List (Json.Key × Json) → Except DecodeError (List (Tree × Tree))
  | [] => .ok []
  | (.name key, value) :: entries => do
    return (.text key, ← decodeAny r value) :: (← decodeAnyEntries r entries)
  | (key, value) :: _ => .error (.fault ((Json.entryFault key value).getD .keyNotString))

end

/-! ## Containers -/

/-- Checks that an array ends where its last expected item ended; `total` counts all its items. -/
def finishTuple (mode : Mode) (left : List Json) (total : Nat) (ending : Json.Ending) :
    Except DecodeError Unit :=
  match mode, left, ending with
  | .loaded, [], _ => .ok ()
  | .loaded, _ :: _, _ => .error (.length total "fewer elements in array")
  | .streamed, [], .closed => .ok ()
  | .streamed, [], .textEnds => .error (.fault .endInList)
  | .streamed, [], .commaBeforeClose => .error (.fault .trailingComma)
  | .streamed, _, _ => .error (.fault .trailingText)

/--
The error of an array that ends after `n` items, where `expected` says how many there should be.
-/
def shortTuple (n : Nat) (ending : Json.Ending) (expected : String) : DecodeError :=
  match ending.readFault .list with
  | some fault => .fault fault
  | none => .length n expected

def elementCount (n : Nat) : String := if n = 1 then "1 element" else s!"{n} elements"

/-- How a record or a tuple of fields is named in errors about its length. -/
def withElements (label : String) (n : Nat) : String := s!"{label} with {elementCount n}"

/-- The fields of a record from those that were found, in declared order. -/
def collectFields (defaults found : List (String × Tree)) :
    List String → Except DecodeError (List (String × Tree))
  | [] => .ok []
  | name :: names =>
    match found.lookup name <|> defaults.lookup name with
    | some t => do return (name, t) :: (← collectFields defaults found names)
    | none => .error (.missingField name)

/-! ## Decoders -/

namespace Decoder

/-- A decoder that reads every value to its end. -/
def whole (decode : Position → Json → Except DecodeError Tree) : TreeDecoder :=
  ⟨decode, fun _ _ => false⟩

/-- Decodes a value; a part of it left unread is `fault` to whoever reads on. -/
def decodeBefore (d : TreeDecoder) (fault : Fault) (r : Position) (j : Json) :
    Except DecodeError Tree := do
  let t ← d.decode r j
  rejectFault (if d.leavesRest r.mode j then some fault else none)
  return t

def bool : TreeDecoder := .whole fun _ j =>
  match j with
  | .bool b => .ok (.bool b)
  | j => .error (j.mismatch "a boolean")

/-- Takes an integer. Types of at most 64 bits read any JSON number, wider ones its digits alone. -/
def int (kind : IntKind) : TreeDecoder where
  decode r j :=
    if r.mode = .streamed ∧ kind.bits = 128 then kind.ofLeadingDigits j
    else
      match j with
      | .number n => kind.ofNumber n
      | j => .error (j.mismatch kind.name)
  leavesRest := kind.leavesRest

def float : TreeDecoder := .whole fun _ j =>
  match j with
  | .number n =>
    match n.read with
    | .error fault => .error (.fault fault)
    | .ok (.float x) => .ok (.float x)
    | .ok (.nat n) => .ok (.float (Float.ofNat n))
    | .ok (.negative n) => .ok (.float (Float.ofInt n))
  | j => .error (j.mismatch "f64")

def char : TreeDecoder := .whole fun _ j =>
  match j with
  | .string s =>
    match s.toList with
    | [c] => .ok (.char c)
    | _ => .error (.outside (.text s) "a character")
  | j => .error (j.mismatch "a character")

def text : TreeDecoder := .whole fun _ j =>
  match j with
  | .string s => .ok (.text s)
  | j => .error (j.mismatch "a string")

def unit : TreeDecoder := .whole fun _ j =>
  match j with
  | .null => .ok .unit
  | j => .error (j.mismatch "unit")

/-- Takes null for the absence of a value, and everything else as `d` does. -/
def optional (d : TreeDecoder) : TreeDecoder where
  decode r j :=
    match j with
    | .null => .ok .absent
    | .broken (.word true fault) => .error (.fault fault)
    | j => (d.decode r j).map .present
  leavesRest := d.leavesRest

/-- Takes what `d` takes, inside a wrapper. -/
def newtype (d : TreeDecoder) : TreeDecoder where
  decode r j := (d.decode r j).map .newtypeStruct
  leavesRest := d.leavesRest

/-- Takes an array whose items `d` takes. -/
def seq (d : TreeDecoder) : TreeDecoder := .whole fun r j =>
  match j with
  | .array items ending => do
    let inner ← r.enter
    let ts ← items.mapM (d.decodeBefore .noListSeparator inner)
    rejectFault (ending.readFault .list)
    return .seq ts
  | j => .error (j.mismatch "a sequence")

/-- The entries of an object whose values `d` takes, added to those already sorted in. -/
def sortedEntries (d : TreeDecoder) (r : Position) :
    List (Json.Key × Json) → List (String × Tree) → Except DecodeError (List (String × Tree))
  | [], es => .ok es
  | (.name key, value) :: entries, es => do
    rejectFault value.colonFault
    let t ← d.decodeBefore .noObjectSeparator r value
    sortedEntries d r entries (insertSorted key t es)
  | (key, value) :: _, _ => .error (.fault ((Json.entryFault key value).getD .keyNotString))

/-- Takes an object whose values `d` takes, as a map with ascending keys. -/
def map (d : TreeDecoder) : TreeDecoder := .whole fun r j =>
  match j with
  | .object entries ending => do
    let inner ← r.enter
    let es ← sortedEntries d inner entries []
    rejectFault (ending.readFault .object)
    return .map (es.map fun (key, t) => (.text key, t))
  | j => .error (j.mismatch "a map")

/--
What is wrong with a part of an item left unread: behind the last expected item, the array should
have ended.
-/
def itemFault (last : Bool) : Fault := if last then .trailingText else .noListSeparator

/-- Decodes the items of a tuple of which `n` have been decoded. -/
def positions (r : Position) (expected : String) (ending : Json.Ending) :
    Nat → List TreeDecoder → List Json → Except DecodeError (List Tree)
  | _, [], _ => .ok []
  | n, _ :: _, [] => .error (shortTuple n ending expected)
  | n, d :: ds, item :: items => do
    let t ← d.decodeBefore (itemFault ds.isEmpty) r item
    return t :: (← positions r expected ending (n + 1) ds items)

def tuple (ds : List TreeDecoder) : TreeDecoder := .whole fun r j =>
  let label := s!"a tuple of size {ds.length}"
  match j with
  | .array items ending => do
    let inner ← r.enter
    let ts ← positions inner label ending 0 ds items
    finishTuple r.mode (items.drop ds.length) items.length ending
    return .tuple ts
  | j => .error (j.mismatch label)

/-- Decodes the fields of a record from an array; a missing field takes its default. -/
def fieldPositions (r : Position) (expected : String) (defaults : List (String × Tree))
    (ending : Json.Ending) :
    Nat → List (String × TreeDecoder) → List Json → Except DecodeError (List (String × Tree))
  | _, [], _ => .ok []
  | n, (name, d) :: fields, item :: items => do
    let t ← d.decodeBefore (itemFault fields.isEmpty) r item
    return (name, t) :: (← fieldPositions r expected defaults ending (n + 1) fields items)
  | n, (name, _) :: fields, [] =>
    match ending.readFault .list, defaults.lookup name with
    | some fault, _ => .error (.fault fault)
    | none, none => .error (.length n expected)
    | none, some t => do
      return (name, t) :: (← fieldPositions r expected defaults ending (n + 1) fields [])

/--
Decodes the entries of an object into fields, added to those found before; unknown entries are
skipped.
-/
def fieldEntries (r : Position) (fields : List (String × TreeDecoder)) :
    List (Json.Key × Json) → List (String × Tree) → Except DecodeError (List (String × Tree))
  | [], found => .ok found
  | (.name name, value) :: entries, found =>
    match fields.lookup name with
    | some d =>
      if (found.lookup name).isSome then .error (.duplicateField name)
      else do
        rejectFault value.colonFault
        let t ← d.decodeBefore .noObjectSeparator r value
        fieldEntries r fields entries ((name, t) :: found)
    | none => do
      rejectFault value.skipFault
      fieldEntries r fields entries found
  | (key, value) :: _, _ => .error (.fault ((Json.entryFault key value).getD .keyNotString))

def fieldsOfObject (r : Position) (fields : List (String × TreeDecoder))
    (defaults : List (String × Tree)) (entries : List (Json.Key × Json)) (ending : Json.Ending) :
    Except DecodeError (List (String × Tree)) := do
  let found ← fieldEntries r fields entries []
  rejectFault (ending.readFault .object)
  collectFields defaults found (fields.map Prod.fst)

def fieldsOfArray (r inner : Position) (label : String) (fields : List (String × TreeDecoder))
    (defaults : List (String × Tree)) (items : List Json) (ending : Json.Ending) :
    Except DecodeError (List (String × Tree)) := do
  let found ← fieldPositions inner (withElements label fields.length) defaults ending 0 fields items
  finishTuple r.mode (items.drop fields.length) items.length ending
  return found

/-- Takes an object by the names of the fields, or an array by their positions. -/
def record (name : String) (fields : List (String × TreeDecoder))
    (defaults : List (String × Tree)) : TreeDecoder := .whole fun r j =>
  let label := s!"struct {name}"
  match j with
  | .array items ending => do
    return .record (← fieldsOfArray r (← r.enter) label fields defaults items ending)
  | .object entries ending => do
    return .record (← fieldsOfObject (← r.enter) fields defaults entries ending)
  | j => .error (j.mismatch label)

/-- Takes what an alternative carries; `label` names the alternative in errors. -/
def payload (name label : String) : Payload TreeDecoder → TreeDecoder
  | .nothing => .whole fun _ j =>
    match j with
    | .null => .ok (.unitVariant name)
    | j => .error (j.mismatch "unit")
  | .single d => .whole fun r j => (d.decodeBefore .noValue r j).map (.newtypeVariant name)
  | .several ds => .whole fun r j =>
    let label := s!"tuple variant {label}"
    match r.mode, j with
    | .loaded, .array [] _ => .error (.mismatch .null label)
    | _, .array items ending => do
      let inner ← r.enter
      let ts ← positions inner (withElements label ds.length) ending 0 ds items
      finishTuple r.mode (items.drop ds.length) items.length ending
      return .tupleVariant name ts
    | .streamed, j => .error (j.mismatch label)
    | .loaded, j => .error (j.mismatch "tuple variant")
  | .named fields => .whole fun r j =>
    let label := s!"struct variant {label}"
    match r.mode, j with
    | .streamed, .array items ending => do
      return .recordVariant name (← fieldsOfArray r (← r.enter) label fields [] items ending)
    | _, .object entries ending => do
      return .recordVariant name (← fieldsOfObject (← r.enter) fields [] entries ending)
    | .streamed, j => .error (j.mismatch label)
    | .loaded, j => .error (j.mismatch "struct variant")

/-- What a name that stands alone says, for an alternative with this payload. -/
def plain (name : String) : Payload TreeDecoder → Except DecodeError Tree
  | .nothing => .ok (.unitVariant name)
  | .single _ => .error (.mismatch .plainVariant "newtype variant")
  | .several _ => .error (.mismatch .plainVariant "tuple variant")
  | .named _ => .error (.mismatch .plainVariant "struct variant")

def findVariant (variants : List (Variant TreeDecoder)) (name : String) :
    Except DecodeError (Variant TreeDecoder) :=
  match variants.find? fun v => v.written = name with
  | some v => .ok v
  | none => .error (.unknownVariant name (variants.map (·.written)))

/-- Takes the value of an object's entry as the payload of the alternative that its name selects. -/
def namedPayload (type : String) (variants : List (Variant TreeDecoder)) (name : String) :
    TreeDecoder :=
  .whole fun r j => do
    let v ← findVariant variants name
    rejectFault j.colonFault
    (payload name s!"{type}::{v.shown}" v.payload).decode r j

/-- Takes a name alone, or an object with one entry that gives the name and what it carries. -/
def enumeration (type : String) (variants : List (Variant TreeDecoder)) : TreeDecoder :=
  .whole fun r j =>
    match r.mode, j with
    | _, .string name => do plain name (← findVariant variants name).payload
    | .streamed, .object ((.name name, value) :: more) ending => do
      let t ← (namedPayload type variants name).decode (← r.enter) value
      match more, ending with
      | [], .closed => return t
      | [], .textEnds => throw (.fault .endInObject)
      | _, _ => throw (.fault .noValue)
    | .streamed, .object [] ending => do
      let _ ← r.enter
      throw (.fault (if ending = .textEnds then .endInObject else .noValue))
    | .streamed, .object ((.misplaced, _) :: _) _ => do
      let _ ← r.enter
      throw (.fault .keyNotString)
    | .streamed, .object ((.broken read _, _) :: _) _ => do
      let _ ← r.enter
      throw (.fault read)
    | .streamed, .broken (.string read _) => .error (.fault read)
    | .streamed, .broken .absent => .error (.fault .endInValue)
    | .streamed, _ => .error (.fault .noValue)
    | .loaded, .object [(.name name, value)] _ => (namedPayload type variants name).decode r value
    | .loaded, .object _ _ => .error (.outside .map "map with a single key")
    | .loaded, j => .error (j.mismatch "string or map")

end Decoder

/-! ## Declared types -/

mutual

def Schema.decoder : Schema → TreeDecoder
  | .bool => .bool
  | .int kind => .int kind
  | .float => .float
  | .char => .char
  | .text => .text
  | .unit => .unit
  | .optional s => .optional s.decoder
  | .seq s => .seq s.decoder
  | .map s => .map s.decoder
  | .tuple ss => .tuple (decoders ss)
  | .newtype _ s => .newtype s.decoder
  | .record name fields defaults => .record name (fieldDecoders fields) defaults
  | .enumeration name variants => .enumeration name (variantDecoders variants)
  | .any => .whole decodeAny
  | .closed reason _ => .whole fun _ _ => .error (.closed reason)

def decoders : List Schema → List TreeDecoder
  | [] => []
  | s :: ss => s.decoder :: decoders ss

def fieldDecoders : List (String × Schema) → List (String × TreeDecoder)
  | [] => []
  | (name, s) :: fields => (name, s.decoder) :: fieldDecoders fields

/-- The decoders of the alternatives of an enumeration. -/
def variantDecoders : List (Variant Schema) → List (Variant TreeDecoder)
  | [] => []
  | ⟨written, shown, p⟩ :: vs => ⟨written, shown, payloadDecoder p⟩ :: variantDecoders vs

def payloadDecoder : Payload Schema → Payload TreeDecoder
  | .nothing => .nothing
  | .single s => .single s.decoder
  | .several ss => .several (decoders ss)
  | .named fields => .named (fieldDecoders fields)

end

def Schema.decode (s : Schema) (r : Position) (j : Json) : Except DecodeError Tree :=
  s.decoder.decode r j

/--
Whether decoding a value of the type from a running text leaves a part of it unread, so that the
next reader finds it where a separator is due. Wrappers leave what the type inside leaves;
containers meet it themselves.
-/
def Schema.leavesRest (s : Schema) (mode : Mode) (j : Json) : Bool := s.decoder.leavesRest mode j

end BeanBinding
