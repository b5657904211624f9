import RecordLayer.Calendar
import RecordLayer.Json
import RecordLayer.Magnitude
import RecordLayer.Text.Blank
import RecordLayer.Text.Digits
import RecordLayer.Text.Scan

/-!
# TOML — Scalar

Truth values, numbers and dates.  Underscores may stand between the digits of a number; an integer
fits in 64 bits with sign, and a number with a fraction or an exponent is not above the doubles.
-/

namespace RecordLayer.Toml
open Text

/-! ### Numbers -/

/-- Digits of a base with single underscores between them, without these. -/
def grouped? (base : Nat) (s : List Char) : Option (List Char) :=
  let groups := cutAt '_' s
  if groups.all fun group => !group.isEmpty && (numberIn? base group).isSome then
    some groups.flatten
  else none

/-- Decimal digits without needless zeros before them. -/
def whole? (s : List Char) : Option (List Char) := do
  let digits ← grouped? 10 s
  if digits.length = 1 ∨ digits.head? ≠ some '0' then some digits else none

/-- Whether a number is negative, and the text behind its sign. -/
def cutSign : List Char → Bool × List Char
  | '-' :: s => (true, s)
  | '+' :: s => (false, s)
  | s        => (false, s)

def withSign (negative : Bool) (n : Nat) : Int :=
  if negative then -(n : Int) else n

def integer? (s : List Char) : Option Int := do
  let n ← match s with
    | '0' :: 'x' :: s => (grouped? 16 s).bind fun ds => (numberIn? 16 ds).map Int.ofNat
    | '0' :: 'o' :: s => (grouped? 8 s).bind fun ds => (numberIn? 8 ds).map Int.ofNat
    | '0' :: 'b' :: s => (grouped? 2 s).bind fun ds => (numberIn? 2 ds).map Int.ofNat
    | s =>
      let (negative, s) := cutSign s
      (whole? s).map fun ds => withSign negative (numberOf ds)
  (wide? n).map Int64.toInt

/-- The least number that rounds to no double. -/
def aboveDoubles : Nat :=
  twoTo 1024 - twoTo 970

/-- The number of some digits and a power of ten is above the doubles. -/
def isAboveDoubles (digits : List Char) (power : Int) : Bool :=
  let digits := digits.dropWhile (· == '0')
  let places := digits.length + power
  if digits.isEmpty || places < 309 then false
  else if 309 < places then true
  else aboveDoubles * tenTo (-power).toNat ≤ numberOf digits * tenTo power.toNat

def isNumberPart (c : Char) : Bool :=
  c.isDigit || c == '_'

/-- The fraction of a number, if a point comes next, and what follows it. -/
def readFraction? : List Char → Option (List Char × List Char)
  | '.' :: s => (grouped? 10 (s.takeWhile isNumberPart)).map fun digits =>
    (digits, s.dropWhile isNumberPart)
  | s => some ([], s)

/-- The exponent that the whole text is. -/
def exponent? : List Char → Option Int
  | 'e' :: s | 'E' :: s =>
    let (negative, s) := cutSign s
    (grouped? 10 s).map fun ds => withSign negative (numberOf ds)
  | _ => none

/-- The text is a number with a fraction or an exponent, infinite or none at all. -/
def isReal (s : List Char) : Bool :=
  let (negative, size) := cutSign s
  let read : Option Bool := do
    let whole ← whole? (size.takeWhile isNumberPart)
    let (fraction, rest) ← readFraction? (size.dropWhile isNumberPart)
    let exponent ← if rest.isEmpty ∧ !fraction.isEmpty then some 0 else exponent? rest
    some (negative || !isAboveDoubles (whole ++ fraction) (exponent - fraction.length))
  size == "inf".toList || size == "nan".toList || read.getD false

/-! ### Dates -/

/-- A number of a fixed width. -/
def fixed (width : Nat) : Scan Nat := fun s =>
  leadingNumber? width width s

def date : Scan Unit := do
  let year ← fixed 4
  Scan.char '-'
  let month ← fixed 2
  Scan.char '-'
  let day ← fixed 2
  let date : Date := ⟨year, month, day⟩
  guard date.isValid

def time : Scan Unit := do
  let hour ← fixed 2
  Scan.char ':'
  let minute ← fixed 2
  Scan.char ':'
  let second ← fixed 2
  guard (hour < 24 && minute < 60 && second ≤ 60)
  if ← Scan.skip ['.'] then
    guard !(← Scan.run Char.isDigit).isEmpty

/-- An offset from universal time, if one is given. -/
def offset : Scan Unit := do
  match ← Scan.peek with
  | none => pure ()
  | some 'Z' | some 'z' =>
    let _ ← Scan.next
  | some _ =>
    let sign ← Scan.next
    guard (sign == '+' || sign == '-')
    let hours ← fixed 2
    Scan.char ':'
    let minutes ← fixed 2
    guard (hours < 24 && minutes < 60)

/-- The time of a day behind its date. -/
def timeOfDate : Scan Unit := do
  time
  offset

def isDate (s : List Char) : Bool :=
  (Scan.all? date s).isSome

/-- A date with a time behind a `T`, or a time without a date. -/
def isDateTime (s : List Char) : Bool :=
  let dateTime : Scan Unit := do
    date
    let mark ← Scan.next
    guard (mark == 'T' || mark == 't')
    timeOfDate
  (Scan.all? dateTime s).isSome || (Scan.all? time s).isSome

/-! ### Scalars -/

/-- A character of truth values, numbers and dates. -/
def isScalarChar (c : Char) : Bool :=
  c.isAlphanum || c == '+' || c == '-' || c == '_' || c == '.' || c == ':'

/-- A date or time: no setting takes one, so it stands as an object without entries. -/
def moment : Json :=
  .object []

/-- The scalar of a text without blanks. -/
def scalarOf? (s : List Char) : Option Json :=
  if s = "true".toList then some (.bool true)
  else if s = "false".toList then some (.bool false)
  else match integer? s with
    | some n => some (.int n)
    | none =>
      if isReal s then some (.real (.ofList s))
      else if isDateTime s then some moment
      else none

/-- A scalar; a blank may stand between a date and its time. -/
def scalar : Scan Json := do
  let s ← Scan.run isScalarChar
  if isDate s then
    match ← get with
    | ' ' :: c :: _ =>
      if c.isDigit then
        let _ ← Scan.next
        guard (Scan.all? timeOfDate (← Scan.run isScalarChar)).isSome
    | _ => pure ()
    return moment
  else (scalarOf? s).getM

end RecordLayer.Toml
