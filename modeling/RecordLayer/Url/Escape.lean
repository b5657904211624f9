/-!
# URLs — Escape

A character that a part of a URL may not hold is written as the bytes of its UTF-8 form, each of
them a percent sign and two hexadecimal digits.  Which characters these are depends on the part.
Percent signs stand for themselves, so that escapes already there are kept; only the values of
a form have them escaped too.
-/

namespace RecordLayer.Url

def hexDigit (n : Nat) : Char :=
  "0123456789ABCDEF".toList.getD n '0'

def escapedByte (b : UInt8) : List Char :=
  ['%', hexDigit (b.toNat / 16), hexDigit (b.toNat % 16)]

def escaped (c : Char) : List Char :=
  (String.utf8EncodeChar c).flatMap escapedByte

/-- Escapes the characters that satisfy `p`. -/
def escapeWhere (p : Char → Bool) (s : List Char) : List Char :=
  s.flatMap fun c => if p c then escaped c else [c]

/-! ### What each part may not hold -/

/-- The control characters, and everything past ASCII. -/
def isUnprinted (c : Char) : Bool :=
  c.toNat < 32 || 126 < c.toNat

def isForeignToFragment (c : Char) : Bool :=
  isUnprinted c || c == ' ' || c == '"' || c == '<' || c == '>' || c == '\x60'

def isForeignToQuery (c : Char) : Bool :=
  isUnprinted c || c == ' ' || c == '"' || c == '#' || c == '<' || c == '>'

def isForeignToPath (c : Char) : Bool :=
  isForeignToFragment c || c == '#' || c == '?' || c == '\x7b' || c == '\x7d'

/-- Neither a user nor a password may hold what ends one of them. -/
def isForeignToUser (c : Char) : Bool :=
  isForeignToPath c || c == '/' || c == ':' || c == ';' || c == '=' || c == '@' || c == '[' ||
    c == '\\' || c == ']' || c == '^' || c == '|'

/-! ### Forms -/

/-- A character in the value of a form: a blank becomes a plus sign. -/
def formEscaped (c : Char) : List Char :=
  if c.isAlphanum || c == '*' || c == '-' || c == '.' || c == '_' then [c]
  else if c == ' ' then ['+']
  else escaped c

def formValue (s : List Char) : List Char :=
  s.flatMap formEscaped

end RecordLayer.Url
