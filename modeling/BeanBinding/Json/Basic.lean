/-!
# JSON values, as far as a text holds one

A `Json` is what a text says, read from left to right. A well-formed text gives a value without
`broken` leaves whose containers are all `closed`; a malformed one gives the part before the fault,
and the place and kind of the fault stay in the value. So a reader that stops early, or skips a
value, can report exactly the faults it runs into and no others.

Object entries keep their order, and a name may occur twice.
-/

namespace BeanBinding

/-- A reason why a text is not a JSON document. -/
inductive Fault where
  | endInValue
  | endInList
  | endInString
  | endInObject
  | noColon
  | noListSeparator
  | noObjectSeparator
  | misspelt
  | noValue
  | badEscape
  | badNumber
  | numberRange
  | controlCharacter
  | keyNotString
  | loneSurrogate
  | cutSurrogate
  | trailingComma
  | trailingText
  | tooDeep
deriving DecidableEq, Repr

def Fault.isEnd : Fault → Bool
  | endInValue | endInList | endInString | endInObject => true
  | _ => false

def Fault.message : Fault → String
  | endInValue => "EOF while parsing a value"
  | endInList => "EOF while parsing a list"
  | endInString => "EOF while parsing a string"
  | endInObject => "EOF while parsing an object"
  | noColon => "expected `:`"
  | noListSeparator => "expected `,` or `]`"
  | noObjectSeparator => "expected `,` or `\x7d`"
  | misspelt => "expected ident"
  | noValue => "expected value"
  | badEscape => "invalid escape"
  | badNumber => "invalid number"
  | numberRange => "number out of range"
  | controlCharacter => "control character (\\u0000-\\u001F) found while parsing a string"
  | keyNotString => "key must be a string"
  | loneSurrogate => "lone leading surrogate in hex escape"
  | cutSurrogate => "unexpected end of hex escape"
  | trailingComma => "trailing comma"
  | trailingText => "trailing characters"
  | tooDeep => "recursion limit exceeded"

namespace Json

/-- The sign written before the digits of an exponent. -/
inductive ExponentSign where
  | bare
  | plus
  | minus
deriving DecidableEq, Repr

/--
A number as it is spelt: digits before and after the point, and the exponent if one is written.
-/
structure Number where
  negative : Bool
  whole : List Char
  fraction : List Char
  exponent : Option (ExponentSign × List Char)
deriving DecidableEq, Repr

/-- How the items of a container end. -/
inductive Ending where
  | closed
  /-- The text ends where a separator or the closing bracket is due. -/
  | textEnds
  /-- The text ends after a comma. -/
  | textEndsAfterComma
  /-- The closing bracket follows a comma. -/
  | commaBeforeClose
  /-- Something else stands where a separator or the closing bracket is due. -/
  | noSeparator
deriving DecidableEq, Repr

/-- Which container an ending belongs to. -/
inductive Container where
  | list
  | object
deriving DecidableEq, Repr

/-- What a reader that wants the next item runs into at the end of a container. -/
def Ending.readFault (kind : Container) : Ending → Option Fault
  | closed => none
  | textEnds => some (match kind with | .list => .endInList | .object => .endInObject)
  | textEndsAfterComma => some .endInValue
  | commaBeforeClose => some .trailingComma
  | noSeparator =>
    some (match kind with | .list => .noListSeparator | .object => .noObjectSeparator)

/-- What a reader that skips the container runs into at its end. -/
def Ending.skipFault (kind : Container) : Ending → Option Fault
  | closed => none
  | textEnds => some (match kind with | .list => .endInList | .object => .endInObject)
  | textEndsAfterComma => some (match kind with | .list => .endInValue | .object => .endInObject)
  | commaBeforeClose => some (match kind with | .list => .noValue | .object => .keyNotString)
  | noSeparator =>
    some (match kind with | .list => .noListSeparator | .object => .noObjectSeparator)

/-- A malformed value. -/
inductive Broken where
  /-- The text ends where a value is due. -/
  | absent
  /-- A character that begins no value. -/
  | stray
  /-- A cut or misspelt `null`, `true` or `false`; `isNull` tells the first from the others. -/
  | word (isNull : Bool) (fault : Fault)
  /-- A number that breaks off, with the digits before the point if they are complete. -/
  | number (negative : Bool) (whole : Option (List Char)) (read skip : Fault)
  /-- A string that cannot be decoded; it can be skipped if `skip` is empty. -/
  | string (read : Fault) (skip : Option Fault)
  /-- The colon between a name and its value is missing. -/
  | colon (fault : Fault)
deriving DecidableEq, Repr

/-- The fault that a reader of a broken value reports. -/
def Broken.readFault : Broken → Fault
  | absent => .endInValue
  | stray => .noValue
  | word _ fault => fault
  | number _ _ read _ => read
  | string read _ => read
  | colon fault => fault

/-- The fault that stops a reader which only skips a broken value. -/
def Broken.skipFault : Broken → Option Fault
  | absent => some .endInValue
  | stray => some .noValue
  | word _ fault => some fault
  | number _ _ _ skip => some skip
  | string _ skip => skip
  | colon fault => some fault

/-- The name of an object entry. -/
inductive Key where
  | name (text : String)
  /-- A name that cannot be decoded; it can be skipped if `skip` is empty. -/
  | broken (read : Fault) (skip : Option Fault)
  /-- The entry's value stands in the place of a name. -/
  | misplaced
deriving DecidableEq, Repr

def Key.readFault : Key → Option Fault
  | name _ => none
  | broken read _ => some read
  | misplaced => some .keyNotString

/-- The fault that stops a reader which skips the entry. -/
def Key.skipFault : Key → Option Fault
  | name _ => none
  | broken _ skip => skip
  | misplaced => some .keyNotString

end Json

/-- A JSON value, or the part of one before a fault. -/
inductive Json where
  | null
  | bool (b : Bool)
  | number (n : Json.Number)
  | string (text : String)
  | array (items : List Json) (ending : Json.Ending)
  | object (entries : List (Json.Key × Json)) (ending : Json.Ending)
  | broken (b : Json.Broken)

namespace Json

def list (items : List Json) : Json := .array items .closed

/-- A complete object with the given names, in order. -/
def record (entries : List (String × Json)) : Json :=
  .object (entries.map fun (name, value) => (.name name, value)) .closed

def entry? (j : Json) (name : String) : Option Json :=
  match j with
  | .object entries _ => (entries.find? fun (key, _) => key = .name name).map (·.2)
  | _ => none

mutual

/-- The fault that a reader runs into which skips the value without decoding it. -/
def skipFault : Json → Option Fault
  | .broken b => b.skipFault
  | .array items ending => skipItems items (ending.skipFault .list)
  | .object entries ending => skipEntries entries (ending.skipFault .object)
  | _ => none

/-- The fault met while skipping items, with the fault of the ending if there is none before. -/
def skipItems : List Json → Option Fault → Option Fault
  | [], last => last
  | item :: items, last => item.skipFault <|> skipItems items last

/-- The fault met while skipping entries, with the fault of the ending if there is none before. -/
def skipEntries : List (Key × Json) → Option Fault → Option Fault
  | [], last => last
  | (key, value) :: entries, last => key.skipFault <|> value.skipFault <|> skipEntries entries last

end

end Json

end BeanBinding
