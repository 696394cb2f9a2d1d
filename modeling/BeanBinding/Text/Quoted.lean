import BeanBinding.Text.Unmarked

/-!
# Quoted text

Two ways to put a text between double quotes. `encode` escapes what JSON requires: the quote, the
backslash and the control characters, each by its short form if it has one. `display` is meant for
people: it also writes by code every character that would not show.
-/

namespace BeanBinding.Text

/-- The digit of a number below sixteen, in lower case. -/
def hexDigit (n : Nat) : Char := Nat.digitChar n

def escape (c : Char) : List Char :=
  match c with
  | '"' => ['\\', '"']
  | '\\' => ['\\', '\\']
  | '\x08' => ['\\', 'b']
  | '\x0c' => ['\\', 'f']
  | '\n' => ['\\', 'n']
  | '\r' => ['\\', 'r']
  | '\t' => ['\\', 't']
  | c =>
    if c.toNat < 0x20 then
      ['\\', 'u', '0', '0', hexDigit (c.toNat / 16), hexDigit (c.toNat % 16)]
    else [c]

def encode (s : String) : String :=
  .ofList ('"' :: s.toList.flatMap escape ++ ['"'])

/-- The display form of a character between quotes of the kind `quote`. -/
def displayChar (quote : Char) (c : Char) : List Char :=
  if c = '\x00' then ['\\', '0']
  else if c = '\t' then ['\\', 't']
  else if c = '\r' then ['\\', 'r']
  else if c = '\n' then ['\\', 'n']
  else if c = '\\' ∨ c = quote then ['\\', c]
  else if isMarked c then [c]
  else ['\\', 'u', '\x7b'] ++ Nat.toDigits 16 c.toNat ++ ['\x7d']

def display (s : String) : String :=
  .ofList ('"' :: s.toList.flatMap (displayChar '"') ++ ['"'])

def displayQuotedChar (c : Char) : String :=
  .ofList ('\x27' :: displayChar '\x27' c ++ ['\x27'])

end BeanBinding.Text
