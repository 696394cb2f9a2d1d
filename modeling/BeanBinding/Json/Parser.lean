import BeanBinding.Decimal.Reading
import BeanBinding.Json.Basic

/-!
# Reading JSON values from text

`Json.parse` reads the value at the start of a text and never fails: a fault becomes part of the
value, and nothing after it is read. Every step but the one into a container consumes a character,
so the length of the text bounds the recursion.
-/

namespace BeanBinding.Json

open Decimal (isDigit)

/-- Whether a character may stand between the tokens of a JSON text. -/
def isBlank (c : Char) : Bool := c = ' ' || c = '\n' || c = '\t' || c = '\r'

/-- The text from its first character that is not blank. -/
def skipBlanks (cs : List Char) : List Char := cs.dropWhile isBlank

/-- A value or name together with the text behind it, which is lost after a fault. -/
abbrev Scan (α : Type) := α × Option (List Char)

/-! ## Words and numbers -/

/-- Reads the rest of a word; the text behind it, or the fault at its first wrong character. -/
def scanWord : List Char → List Char → Except Fault (List Char)
  | [], cs => .ok cs
  | _ :: _, [] => .error .endInValue
  | w :: ws, c :: cs => if c = w then scanWord ws cs else .error .misspelt

/-- The value of a word whose first letter has been read. -/
def word (isNull : Bool) (value : Json) (rest : List Char) (cs : List Char) : Scan Json :=
  match scanWord rest cs with
  | .ok cs => (value, some cs)
  | .error fault => (.broken (.word isNull fault), none)

/--
A number that breaks off before `cs`; only a reader tells the end of the text from a wrong
character.
-/
def cutNumber (negative : Bool) (whole : Option (List Char)) (cs : List Char) : Scan Json :=
  let read := if cs.isEmpty then .endInValue else .badNumber
  (.broken (.number negative whole read .badNumber), none)

/-- The exponent of a number, after its mark. -/
def exponentPart (n : Number) (cs : List Char) : Scan Json :=
  let (sign, cs) : ExponentSign × List Char :=
    match cs with
    | '+' :: cs => (.plus, cs)
    | '-' :: cs => (.minus, cs)
    | cs => (.bare, cs)
  let digits := cs.takeWhile isDigit
  if digits = [] then cutNumber n.negative n.whole cs
  else (.number { n with exponent := some (sign, digits) }, some (cs.dropWhile isDigit))

def exponentMark (n : Number) (cs : List Char) : Scan Json :=
  match cs with
  | 'e' :: cs | 'E' :: cs => exponentPart n cs
  | cs => (.number n, some cs)

def fractionPart (n : Number) (cs : List Char) : Scan Json :=
  match cs with
  | '.' :: cs =>
    let digits := cs.takeWhile isDigit
    if digits = [] then cutNumber n.negative n.whole cs
    else exponentMark { n with fraction := digits } (cs.dropWhile isDigit)
  | cs => exponentMark n cs

/-- A number after its sign. A leading zero may not be followed by another digit. -/
def scanNumber (negative : Bool) (cs : List Char) : Scan Json :=
  match cs with
  | '0' :: cs =>
    if cs.head?.any isDigit then (.broken (.number negative none .badNumber .badNumber), none)
    else fractionPart ⟨negative, ['0'], [], none⟩ cs
  | cs =>
    let digits := cs.takeWhile isDigit
    if digits = [] then cutNumber negative none cs
    else fractionPart ⟨negative, digits, [], none⟩ (cs.dropWhile isDigit)

/-! ## Strings -/

/-- One character of a string, or a code written by four hexadecimal digits. -/
inductive Piece where
  | char (c : Char)
  | code (n : Nat)

/-- How the characters of a string end. -/
inductive StringEnd where
  | quote (rest : List Char)
  | textEnds
  | badCode
  | badLetter
  | control

def hexValue (c : Char) : Option Nat :=
  if isDigit c then some (c.toNat - '0'.toNat)
  else if 'a' ≤ c ∧ c ≤ 'f' then some (c.toNat - 'a'.toNat + 10)
  else if 'A' ≤ c ∧ c ≤ 'F' then some (c.toNat - 'A'.toNat + 10)
  else none

/-- The character that a letter after a backslash stands for. -/
def escaped : Char → Option Char
  | '"' => some '"'
  | '\\' => some '\\'
  | '/' => some '/'
  | 'b' => some '\x08'
  | 'f' => some '\x0c'
  | 'n' => some '\n'
  | 'r' => some '\r'
  | 't' => some '\t'
  | _ => none

def hexCode (a b c d : Char) : Option Nat := do
  let a ← hexValue a
  let b ← hexValue b
  let c ← hexValue c
  let d ← hexValue d
  return ((a * 16 + b) * 16 + c) * 16 + d

/--
What is wrong with a code that is not followed by four digits: too few bytes are left, or wrong
ones.
-/
def badCodeEnd (cs : List Char) : StringEnd :=
  if 4 ≤ ((cs.take 4).map Char.utf8Size).foldl (· + ·) 0 then .badCode else .textEnds

/-- The pieces of a string after its opening quote, up to its end or its first fault. -/
def pieces : List Char → List Piece × StringEnd
  | [] => ([], .textEnds)
  | '"' :: cs => ([], .quote cs)
  | ['\\'] => ([], .textEnds)
  | '\\' :: 'u' :: a :: b :: c :: d :: cs =>
    match hexCode a b c d with
    | some n => let (ps, e) := pieces cs; (.code n :: ps, e)
    | none => ([], .badCode)
  | '\\' :: 'u' :: cs => ([], badCodeEnd cs)
  | '\\' :: x :: cs =>
    match escaped x with
    | some c => let (ps, e) := pieces cs; (.char c :: ps, e)
    | none => ([], .badLetter)
  | c :: cs =>
    if c.toNat < 0x20 then ([], .control) else let (ps, e) := pieces cs; (.char c :: ps, e)

/-- The fault at the end of a string, for a reader and for one that skips it. -/
def StringEnd.fault : StringEnd → Option Fault
  | quote _ => none
  | textEnds => some .endInString
  | badCode | badLetter => some .badEscape
  | control => some .controlCharacter

/-- The fault of a reader that needs a second surrogate code where the string ends. -/
def StringEnd.surrogateFault : StringEnd → Fault
  | textEnds => .endInString
  | badCode => .badEscape
  | quote _ | badLetter | control => .cutSurrogate

/-- Whether a code is the first or the second half of a pair. -/
def isLead (n : Nat) : Bool := 0xD800 ≤ n && n ≤ 0xDBFF

def isTrail (n : Nat) : Bool := 0xDC00 ≤ n && n ≤ 0xDFFF

/--
The characters of a string; a code of a pair must be followed, or preceded, by its other half.
-/
def join (e : StringEnd) : List Piece → Except Fault (List Char)
  | [] => match e.fault with
    | none => .ok []
    | some fault => .error fault
  | .char c :: ps => (join e ps).map (c :: ·)
  | .code n :: ps =>
    if isTrail n then .error .loneSurrogate
    else if isLead n then
      match ps with
      | [] => .error e.surrogateFault
      | .char _ :: _ => .error .cutSurrogate
      | .code m :: ps =>
        if isTrail m then
          (join e ps).map (Char.ofNat (0x10000 + (n - 0xD800) * 0x400 + (m - 0xDC00)) :: ·)
        else .error .loneSurrogate
    else (join e ps).map (Char.ofNat n :: ·)

/-- A string after its opening quote: its text, or the faults of reading and of skipping it. -/
def scanString (cs : List Char) : Scan (Except (Fault × Option Fault) String) :=
  let (ps, e) := pieces cs
  let rest := match e with | .quote cs => some cs | _ => none
  match join e ps with
  | .ok text => (.ok (.ofList text), rest)
  | .error fault => (.error (fault, e.fault), rest)

/-! ## Values -/

mutual

def scanValue : Nat → List Char → Scan Json
  | 0, _ => (.broken .absent, none)
  | fuel + 1, cs =>
    match skipBlanks cs with
    | [] => (.broken .absent, none)
    | 'n' :: cs => word true .null ['u', 'l', 'l'] cs
    | 't' :: cs => word false (.bool true) ['r', 'u', 'e'] cs
    | 'f' :: cs => word false (.bool false) ['a', 'l', 's', 'e'] cs
    | '"' :: cs =>
      match scanString cs with
      | (.ok s, rest) => (.string s, rest)
      | (.error (read, skip), rest) => (.broken (.string read skip), rest)
    | '[' :: cs =>
      let (is, ending, rest) := scanItems fuel true cs
      (.array is ending, rest)
    | '\x7b' :: cs =>
      let (es, ending, rest) := scanEntries fuel true cs
      (.object es ending, rest)
    | '-' :: cs => scanNumber true cs
    | c :: cs => if isDigit c then scanNumber false (c :: cs) else (.broken .stray, none)

/-- The items of an array from the place of an item or, at first, of the closing bracket. -/
def scanItems : Nat → Bool → List Char → List Json × Ending × Option (List Char)
  | 0, _, _ => ([], .textEnds, none)
  | fuel + 1, first, cs =>
    match skipBlanks cs with
    | [] => ([], if first then .textEnds else .textEndsAfterComma, none)
    | ']' :: cs => if first then ([], .closed, some cs) else ([], .commaBeforeClose, none)
    | cs =>
      match scanValue fuel cs with
      | (item, none) => ([item], .noSeparator, none)
      | (item, some cs) =>
        match skipBlanks cs with
        | [] => ([item], .textEnds, none)
        | ']' :: cs => ([item], .closed, some cs)
        | ',' :: cs =>
          let (is, ending, rest) := scanItems fuel false cs
          (item :: is, ending, rest)
        | _ => ([item], .noSeparator, none)

/-- The entries of an object from the place of a name or, at first, of the closing brace. -/
def scanEntries : Nat → Bool → List Char → List (Key × Json) × Ending × Option (List Char)
  | 0, _, _ => ([], .textEnds, none)
  | fuel + 1, first, cs =>
    match skipBlanks cs with
    | [] => ([], if first then .textEnds else .textEndsAfterComma, none)
    | '\x7d' :: cs => if first then ([], .closed, some cs) else ([], .commaBeforeClose, none)
    | '"' :: cs =>
      let (key, rest) : Scan Key :=
        match scanString cs with
        | (.ok s, rest) => (.name s, rest)
        | (.error (read, skip), rest) => (.broken read skip, rest)
      match rest with
      | none => ([(key, .broken .absent)], .noSeparator, none)
      | some cs =>
        match skipBlanks cs with
        | [] => ([(key, .broken (.colon .endInObject))], .noSeparator, none)
        | ':' :: cs =>
          match scanValue fuel cs with
          | (item, none) => ([(key, item)], .noSeparator, none)
          | (item, some cs) =>
            match skipBlanks cs with
            | [] => ([(key, item)], .textEnds, none)
            | '\x7d' :: cs => ([(key, item)], .closed, some cs)
            | ',' :: cs =>
              let (es, ending, rest) := scanEntries fuel false cs
              ((key, item) :: es, ending, rest)
            | _ => ([(key, item)], .noSeparator, none)
        | _ => ([(key, .broken (.colon .noColon))], .noSeparator, none)
    | cs => ([(.misplaced, (scanValue fuel cs).1)], .noSeparator, none)

end

/-- The value at the start of a text, and the text behind it if no fault was met. -/
def parse (text : String) : Scan Json := scanValue (2 * text.length + 2) text.toList

end BeanBinding.Json
