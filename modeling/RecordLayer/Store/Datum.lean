import RecordLayer.Row

/-!
# Store — Datum

The values of cells and how they are turned into each other.  A column's affinity says which way
a value is turned when it is stored or held against the column.  Numbers compare by value, whole
or not; null comes before numbers, numbers before texts, texts before bytes.
-/

namespace RecordLayer.Store

/-- What a cell holds. -/
inductive Datum where
  | null
  | int (n : Int64)
  | real (d : Double)
  | text (s : String)
  | blob (bytes : List UInt8)
deriving DecidableEq, Inhabited

/-- The class of a column's type: which way values are turned. -/
inductive Affinity where
  | numeric
  | real
  | text
  | none
deriving DecidableEq

def Affinity.isNumeric : Affinity → Bool
  | numeric | real => true
  | text | none    => false

/-! ### Numbers in texts -/

/-- A number in digits, `significand · 10 ^ power`; it is whole if it has neither a point nor an
exponent. -/
structure Numeral where
  negative : Bool
  digits : List Char
  significand : Nat
  power : Int
  whole : Bool

namespace Numeral

/-- The characters that may stand around a number in a text. -/
def isAround (c : Char) : Bool :=
  c == ' ' || ('\t' ≤ c && c ≤ '\r')

/-- Adds a digit to the significand while it has room; the flag says whether the digit was
taken. -/
def take (n : Nat) (c : Char) : Nat × Bool :=
  if n < (twoTo 64 - 10) / 10 then (n * 10 + Text.digitValue c, true) else (n, false)

/-- The significand of digits before and behind the point, and its power of ten: digits for
which there is no room count before the point and are lost behind it. -/
def significandOf (before behind : List Char) : Nat × Int :=
  let (n, power) := before.foldl (fun (n, power) c =>
    let (n, taken) := take n c
    (n, if taken then power else power + 1)) (0, (0 : Int))
  behind.foldl (fun (n, power) c =>
    let (n, taken) := take n c
    (n, if taken then power - 1 else power)) (n, power)

/-- The exponent at the head of a text, with its letter, and what follows. -/
def exponent? (s : List Char) : Option (Int × List Char) := do
  let c :: s := s | none
  guard (c == 'e' || c == 'E')
  let (negative, s) := match s with
    | '-' :: s => (true, s)
    | '+' :: s => (false, s)
    | s        => (false, s)
  let n ← Text.natural? (s.takeWhile Char.isDigit)
  -- no double is so small or so large that a greater exponent could count
  let n : Int := min n 10000
  return (if negative then -n else n, s.dropWhile Char.isDigit)

/-- The number without a sign at the head of a text, and what follows. -/
def unsigned? (negative : Bool) (s : List Char) : Option (Numeral × List Char) := do
  let before := s.takeWhile Char.isDigit
  let s := s.dropWhile Char.isDigit
  let (pointed, s) := match s with
    | '.' :: s => (true, s)
    | s        => (false, s)
  let behind := if pointed then s.takeWhile Char.isDigit else []
  let s := if pointed then s.dropWhile Char.isDigit else s
  guard !(before ++ behind).isEmpty
  let (significand, power) := significandOf before behind
  match exponent? s with
  | some (shift, s) => return (⟨negative, before, significand, power + shift, false⟩, s)
  | none => return (⟨negative, before, significand, power, !pointed⟩, s)

/-- The text without such characters at its ends. -/
def bare (s : List Char) : List Char :=
  ((s.dropWhile isAround).reverse.dropWhile isAround).reverse

/-- The number at the head of a text, and what follows. -/
def leading? : List Char → Option (Numeral × List Char)
  | '-' :: s => unsigned? true s
  | '+' :: s => unsigned? false s
  | s        => unsigned? false s

/-- The number that a text writes, blanks around it passed over. -/
def read? (s : List Char) : Option Numeral :=
  match leading? (bare s) with
  | some (n, []) => some n
  | _            => none

def double (n : Numeral) : Double :=
  .ofScientific n.negative n.significand n.power

/-- The whole number of 64 bits, if it is one. -/
def int? (n : Numeral) : Option Int64 :=
  if n.whole then
    let size : Int := Text.numberOf n.digits
    wide? (if n.negative then -size else size)
  else none

/-- The number as a value. -/
def datum (n : Numeral) : Datum :=
  match n.int? with
  | some n => .int n
  | none   => .real n.double

end Numeral

namespace Datum

/-- The value that a record's value is bound as: truth values as 0 and 1, decimals and instants
as text. -/
def ofValue : Value → Datum
  | .null        => null
  | .text s      => text s
  | .int n       => int n
  | .bool b      => int (if b then 1 else 0)
  | .decimal d   => text (toString d)
  | .timestamp t => text (toString t)

def toCell : Datum → Cell
  | null       => .null
  | int n      => .int n
  | real d     => .double d
  | text s     => .text s
  | blob bytes => .blob bytes

/-! ### Turning values -/

/-- A text that writes a number as that number. -/
def asNumber : Datum → Datum
  | text s => ((Numeral.read? s.toList).map Numeral.datum).getD (text s)
  | d      => d

/-- A double that is a whole number within those of 64 bits as that number. -/
def asWhole : Datum → Datum
  | real d =>
    match d.int?.bind wide? with
    | some n => if n = Int64.minValue ∨ n = Int64.maxValue then real d else int n
    | none => real d
  | d => d

def asReal : Datum → Datum
  | int n => real (.ofInt n.toInt)
  | d     => d

/-- A number as the text that writes it. -/
def asText : Datum → Datum
  | int n  => text (toString n.toInt)
  | real d => text (.ofList d.render)
  | d      => d

/-- The value as a column with an affinity stores it. -/
def stored : Affinity → Datum → Datum
  | .numeric, d => d.asNumber.asWhole
  | .real,    d => d.asNumber.asWhole.asReal
  | .text,    d => d.asText
  | .none,    d => d

/-! ### Order -/

/-- The place of a kind of value among the kinds. -/
def rank : Datum → Nat
  | null   => 0
  | int _  => 1
  | real _ => 1
  | text _ => 2
  | blob _ => 3

/-- A number in units of `2⁻¹⁰⁷⁴`. -/
def units : Datum → Int
  | int n  => n.toInt * Double.unit
  | real d => d.units
  | _      => 0

/-- The order of values. -/
def less (a b : Datum) : Bool :=
  match a, b with
  | int a,  int b  => a < b
  | text a, text b => a < b
  | blob a, blob b => a < b
  | a, b => a.rank < b.rank || (a.rank == b.rank && a.units < b.units)

/-- Neither comes before the other. -/
def same (a b : Datum) : Bool :=
  !a.less b && !b.less a

/-- The affinity by which two sides of a comparison are turned: that of a column against
anything else, and numbers if one of two columns holds them. -/
def shared : Option Affinity → Option Affinity → Affinity
  | some a, some b => if a.isNumeric || b.isNumeric then .numeric else .none
  | some a, none | none, some a => a
  | none, none => .none

def isText : Datum → Bool
  | text _ => true
  | _      => false

/-- Two values turned for a comparison. -/
def turned (a : Affinity) (x y : Datum) : Datum × Datum :=
  if a.isNumeric then (x.asNumber, y.asNumber)
  else if a = .text ∧ (x.isText || y.isText) then (x.asText, y.asText)
  else (x, y)

/-! ### Arithmetic -/

/-- The number that a value counts as: nothing for null, for a text the number that it begins
with, or zero. -/
def number? : Datum → Option Datum
  | null   => none
  | int n  => some (int n)
  | real d => some (real d)
  | text s => some (((Numeral.leading? (Numeral.bare s.toList)).map (·.1.datum)).getD (int 0))
  | blob _ => some (int 0)

def negated (d : Datum) : Datum :=
  match d.number? with
  | some (int n) =>
    match wide? (-n.toInt) with
    | some n => int n
    | none => real (.ofInt (-n.toInt))
  | some (real d) => real d.negated
  | _ => null

/-- Two numbers combined: whole if both are and the result fits, otherwise the nearest double to
the exact result, which is a quotient of units. -/
def combined (whole : Int → Int → Int) (exact : Int → Int → Int × Nat) (x y : Datum) : Datum :=
  match x.number?, y.number? with
  | some (int a), some (int b) =>
    match wide? (whole a.toInt b.toInt) with
    | some n => int n
    | none => real (.ofInt (whole a.toInt b.toInt))
  | some a, some b =>
    let (num, den) := exact a.units b.units
    real (.ofUnits (num < 0) num.natAbs den)
  | _, _ => null

def plus : Datum → Datum → Datum :=
  combined (· + ·) fun a b => (a + b, 1)

def minus : Datum → Datum → Datum :=
  combined (· - ·) fun a b => (a - b, 1)

def times : Datum → Datum → Datum :=
  combined (· * ·) fun a b => (a * b, Double.unit)

/-- The text that a value is taken for, bytes as the text that they write. -/
def text? (d : Datum) : Option String :=
  match d.asText with
  | text s     => some s
  | blob bytes => some (Text.lossyUtf8 bytes)
  | _          => none

/-- The texts of two values behind each other. -/
def joined (x y : Datum) : Datum :=
  match x.text?, y.text? with
  | some s, some t => text (s ++ t)
  | _, _ => null

/-- A value as a condition: nothing for null, otherwise whether it is a number other than
zero. -/
def truth? (d : Datum) : Option Bool :=
  d.number?.map fun d => d.units != 0

def ofTruth : Option Bool → Datum
  | some b => int (if b then 1 else 0)
  | none   => null

end Datum

end RecordLayer.Store
