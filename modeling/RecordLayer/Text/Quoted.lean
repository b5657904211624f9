import RecordLayer.Text.Digits

/-!
# Text — Quoted

Texts in double quotes, in which a backslash begins an escape: of a quote, a backslash or a
control character by one letter, or of any character by its number in four or eight hexadecimal
digits.
-/

namespace RecordLayer.Text

/-- The character of a one-letter escape. -/
def shortEscape? : Char → Option Char
  | 'b'  => some '\x08'
  | 't'  => some '\t'
  | 'n'  => some '\n'
  | 'f'  => some '\x0c'
  | 'r'  => some '\r'
  | '"'  => some '"'
  | '\\' => some '\\'
  | _    => none

/-- The character with a number in hexadecimal digits. -/
def numbered? (digits : List Char) : Option Char := do
  let n ← numberIn? 16 digits
  if n.isValidChar then some (.ofNat n) else none

/-- A character that may stand without an escape: a tab, or any but the controls of ASCII. -/
def isPrinted (c : Char) : Bool :=
  c == '\t' || (' ' ≤ c && c != '\x7f')

/-- The inside of a quoted text and what follows it, given what follows the opening quote. -/
def throughQuoted? : List Char → Option (List Char × List Char)
  | [] => none
  | '"' :: s => some ([], s)
  | '\\' :: 'u' :: a :: b :: c :: d :: s => do
    let x ← numbered? [a, b, c, d]
    let (inside, rest) ← throughQuoted? s
    some (x :: inside, rest)
  | '\\' :: 'U' :: a :: b :: c :: d :: e :: f :: g :: h :: s => do
    let x ← numbered? [a, b, c, d, e, f, g, h]
    let (inside, rest) ← throughQuoted? s
    some (x :: inside, rest)
  | '\\' :: letter :: s => do
    let x ← shortEscape? letter
    let (inside, rest) ← throughQuoted? s
    some (x :: inside, rest)
  | c :: s =>
    if c ≠ '\\' ∧ isPrinted c then do
      let (inside, rest) ← throughQuoted? s
      some (c :: inside, rest)
    else none

end RecordLayer.Text
