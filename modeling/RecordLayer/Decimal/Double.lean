import RecordLayer.Magnitude
import RecordLayer.Text.Digits

/-!
# Decimals — Double

Floating-point numbers of 64 bits as exact values: a double is a whole number of units of
`2⁻¹⁰⁷⁴`, and the double nearest to a quotient of units is the one that rounding gives, a half
going to the even neighbour.
-/

namespace RecordLayer

/-- A floating-point number of 64 bits. -/
structure Double where
  bits : UInt64
deriving DecidableEq, Inhabited

/-- The whole number nearest to a quotient, a half going to the even one. -/
def nearest (num den : Nat) : Nat :=
  let low := num / den
  let rest := 2 * (num % den)
  if rest < den then low
  else if den < rest then low + 1
  else low + low % 2

namespace Double

def negative (d : Double) : Bool :=
  twoTo 63 ≤ d.bits.toNat

/-- The eleven bits of the exponent. -/
def exponentBits (d : Double) : Nat :=
  d.bits.toNat / twoTo 52 % twoTo 11

/-- The fifty-two bits of the fraction. -/
def fraction (d : Double) : Nat :=
  d.bits.toNat % twoTo 52

/-- Neither an infinity nor NaN. -/
def isFinite (d : Double) : Bool :=
  d.exponentBits != 2047

/-- The mantissa of a finite number. -/
def mantissa (d : Double) : Nat :=
  if d.exponentBits = 0 then d.fraction else d.fraction + twoTo 52

/-- The power of two above `2⁻¹⁰⁷⁴` that the mantissa is multiplied by. -/
def shift (d : Double) : Nat :=
  d.exponentBits - 1

/-- The units of `2⁻¹⁰⁷⁴` in one. -/
def unit : Nat :=
  twoTo 1074

/-- The size in units of `2⁻¹⁰⁷⁴`; that of an infinity lies above all others. -/
def size (d : Double) : Nat :=
  d.mantissa * twoTo d.shift

/-- The value in units of `2⁻¹⁰⁷⁴`. -/
def units (d : Double) : Int :=
  if d.negative then -(d.size : Int) else d.size

/-- The bits of an infinity without its sign. -/
def infinityBits : Nat :=
  2047 * twoTo 52

/-- The double nearest to a quotient of units; from the middle behind the largest finite one it
is an infinity. -/
def ofUnits (negative : Bool) (num den : Nat) : Double :=
  let shift := (num / den).log2 - 52
  let bits := shift * twoTo 52 + nearest num (den * twoTo shift)
  let sign := if negative then twoTo 63 else 0
  ⟨.ofNat (sign + min bits infinityBits)⟩

/-- The double nearest to `m · 2 ^ e`. -/
def ofBinary (negative : Bool) (m : Nat) (e : Int) : Double :=
  if 0 ≤ e then ofUnits negative (m * unit * twoTo e.toNat) 1
  else ofUnits negative (m * unit) (twoTo (-e).toNat)

/-- The double nearest to a whole number. -/
def ofInt (n : Int) : Double :=
  ofBinary (n < 0) n.natAbs 0

/-- The whole number that a double is. -/
def int? (d : Double) : Option Int :=
  if d.isFinite ∧ d.size % unit = 0 then
    let n : Int := d.size / unit
    some (if d.negative then -n else n)
  else none

/-- The number with the other sign. -/
def negated (d : Double) : Double :=
  ⟨if d.negative then d.bits - .ofNat (twoTo 63) else d.bits + .ofNat (twoTo 63)⟩

/-! ### Numbers in digits -/

/-- A number `m · 2 ^ e` of 64 bits. -/
structure Extended where
  mantissa : Nat
  exponent : Int

namespace Extended

/-- The nearest number of 64 bits. -/
def rounded (m : Nat) (e : Int) : Extended :=
  let excess := m.log2 - 63
  ⟨nearest m (twoTo excess), e + excess⟩

def times (a b : Extended) : Extended :=
  rounded (a.mantissa * b.mantissa) (a.exponent + b.exponent)

/-- A power of ten. -/
def tens (n : Nat) : Extended :=
  rounded (tenTo n) 0

/-- A power of a tenth. -/
def tenths (n : Nat) : Extended :=
  let places := 64 + (tenTo n).log2
  rounded (nearest (twoTo places) (tenTo n)) (-(places : Int))

/-- The number multiplied by a factor several times. -/
def timesOften (factor : Extended) : Nat → Extended → Extended
  | 0, x => x
  | n + 1, x => timesOften factor n (x.times factor)

/-- The number multiplied by a power of ten: by hundreds of places, tens and ones, each product
rounded. -/
def scaled (x : Extended) (power : Int) : Extended :=
  let n := power.natAbs
  let factor := if 0 ≤ power then tens else tenths
  timesOften (factor 1) (n % 10)
    (timesOften (factor 10) (n / 10 % 10) (timesOften (factor 100) (n / 100) x))

end Extended

/-- The digits of a number moved into its mantissa while it has less than 64 bits. -/
def filled : Nat → Nat → Nat × Nat
  | 0, m => (m, 0)
  | n + 1, m => if m < (twoTo 64 - 1) / 10 then filled n (m * 10) else (m, n + 1)

/-- The zeros at the end of a mantissa taken off, at most so many. -/
def emptied : Nat → Nat → Nat × Nat
  | 0, m => (m, 0)
  | n + 1, m => if m % 10 = 0 then emptied n (m / 10) else (m, n + 1)

/-- The double of `m · 10 ^ power`, for a mantissa of at most 64 bits. -/
def ofScientific (negative : Bool) (m : Nat) (power : Int) : Double :=
  if m = 0 then ofUnits negative 0 1
  else
    let (m, power) :=
      if 0 ≤ power then
        let (m, left) := filled power.natAbs m
        (m, (left : Int))
      else
        let (m, left) := emptied power.natAbs m
        (m, -(left : Int))
    let x := Extended.scaled ⟨m, 0⟩ power
    ofBinary negative x.mantissa x.exponent

/-! ### The text of fifteen digits -/

/-- The number of digits of a whole number. -/
def width (n : Nat) : Nat :=
  (Nat.toDigits 10 n).length

/-- How many places lie between the point and the first digit of a number below one. -/
def placesBefore (size : Nat) : Nat → Nat → Nat
  | 0, places => places
  | n + 1, places =>
    if unit ≤ size * tenTo places then places else placesBefore size n (places + 1)

/-- The power of ten of the first digit of a size above zero. -/
def leadingPower (size : Nat) : Int :=
  if unit ≤ size then (width (size / unit) : Int) - 1 else -(placesBefore size 400 0 : Int)

/-- The first fifteen digits of a size above zero as a whole number, a half rounded up, and the
power of ten of the first of them. -/
def fifteenDigits (size : Nat) : Nat × Int :=
  let power := leadingPower size
  let digits :=
    if power ≤ 14 then (2 * size * tenTo (14 - power).toNat + unit) / (2 * unit)
    else (2 * size + unit * tenTo (power - 14).toNat) / (2 * unit * tenTo (power - 14).toNat)
  if width digits = 15 then (digits, power) else (digits / 10, power + 1)

/-- Digits without the zeros at their end. -/
def shortened (digits : List Char) : List Char :=
  (digits.reverse.dropWhile (· == '0')).reverse

/-- A fraction with at least one digit. -/
def withFraction (whole fraction : List Char) : List Char :=
  whole ++ '.' :: (if fraction.isEmpty then ['0'] else fraction)

/-- The text of a finite size: fifteen digits, a point with a digit behind it, and an exponent
where the first digit stands more than fifteen places before or more than four places behind the
point. -/
def renderSize (size : Nat) : List Char :=
  if size = 0 then ['0', '.', '0']
  else
    let (number, power) := fifteenDigits size
    let digits := shortened (Text.paddedDigits 15 number)
    if power < -4 ∨ 14 < power then
      withFraction (digits.take 1) (digits.drop 1) ++
        ['e', if power < 0 then '-' else '+'] ++ Text.paddedDigits 2 power.natAbs
    else if power < 0 then
      withFraction ['0'] (List.replicate (power.natAbs - 1) '0' ++ digits)
    else
      let places := power.toNat + 1
      withFraction ((digits ++ List.replicate places '0').take places) (digits.drop places)

/-- The text of a double. -/
def render (d : Double) : List Char :=
  (if d.negative ∧ d.size ≠ 0 then ['-'] else []) ++
    if d.isFinite then renderSize d.size else ['I', 'n', 'f']

end Double

end RecordLayer
