import RecordLayer.Decimal.Basic
import RecordLayer.Text.Digits

/-!
# Decimals — Numeral

Reading decimals.  A plain numeral is a sign, digits with at most one point among them, and
underscores anywhere after the first digit; digits past the reach of the mantissa or the scale
are rounded away after the point and refused before it.  A numeral that is not plain may be
scientific: a plain one, `e` or `E`, and a whole exponent of at most 28 either way.
-/

namespace RecordLayer.Decimal
open Text

/-- What has been read of a numeral: its digits as one number, whether any was seen, and how
many of them stand after the point, if a point was seen. -/
structure Reading where
  mantissa : Nat
  seen : Bool
  places : Option Nat

/-- Rounds a full mantissa by the first digit that no longer fits.  A mantissa that overflows by
rounding up gives up its last place. -/
def Reading.rounded? (r : Reading) (digit : Nat) : Option Reading :=
  if digit < 5 then some r
  else if r.mantissa + 1 < twoTo 96 then some { r with mantissa := r.mantissa + 1 }
  else match r.places with
    | some (n + 1) => some { r with mantissa := (r.mantissa + 5) / 10, places := some n }
    | _ => none

/-- Reads the digits of a plain numeral, its sign already gone. -/
def readDigits (r : Reading) : List Char → Option Reading
  | [] => if r.seen then some r else none
  | c :: s =>
    if c.isDigit then
      let grown := r.mantissa * 10 + digitValue c
      match r.places with
      | none =>
        if grown < twoTo 96 then readDigits { r with mantissa := grown, seen := true } s else none
      | some n =>
        if n < 28 ∧ grown < twoTo 96 then
          readDigits ⟨grown, true, some (n + 1)⟩ s
        else if s.all fun d => d.isDigit || d == '_' then r.rounded? (digitValue c)
        else none
    else if c == '.' && r.places.isNone then readDigits { r with places := some 0 } s
    else if c == '_' && r.seen then readDigits r s
    else none

/-- A plain numeral; zero has no sign. -/
def plain? (s : List Char) : Option Decimal :=
  let (negative, digits) := match s with
    | '-' :: rest => (true, rest)
    | '+' :: rest => (false, rest)
    | _ => (false, s)
  match readDigits ⟨0, false, none⟩ digits with
  | none => none
  | some r => ofParts? (negative && r.mantissa != 0) r.mantissa (r.places.getD 0)

/-- A mantissa with its last `n` places rounded away, a half away from zero. -/
def dropPlaces (mantissa n : Nat) : Nat :=
  (mantissa + tenTo n / 2) / tenTo n

/-- A decimal moved `n` places to the right; places past the finest are rounded away first, and
the sign stays even if nothing else does. -/
def shiftDown? (d : Decimal) (n : Nat) : Option Decimal :=
  if d.scale + n ≤ 28 then ofParts? d.negative d.mantissa (d.scale + n)
  else ofParts? d.negative (dropPlaces d.mantissa (d.scale + n - 28)) 28

/-- A decimal moved `n` places to the left; one that has too few places becomes whole. -/
def shiftUp? (d : Decimal) (n : Nat) : Option Decimal :=
  if n ≤ d.scale then ofParts? d.negative d.mantissa (d.scale - n)
  else ofParts? d.negative (d.mantissa * tenTo (n - d.scale)) 0

/-- The text behind a plus sign, if it begins with one. -/
def afterPlus : List Char → List Char
  | '+' :: s => s
  | s        => s

/-- A scientific numeral.  A plus sign may stand before the size of the exponent, also behind a
minus sign. -/
def scientific? (s : List Char) : Option Decimal :=
  let isMark (c : Char) := c == 'e' || c == 'E'
  match s.dropWhile (!isMark ·) with
  | [] => none
  | _ :: exponent =>
    match plain? (s.takeWhile (!isMark ·)) with
    | none => none
    | some base =>
      let (down, size) := match exponent with
        | '-' :: rest => (true, rest)
        | _ => (false, exponent)
      match natural? (afterPlus size) with
      | none => none
      | some n =>
        if 28 < n then none
        else if down then shiftDown? base n
        else shiftUp? base n

/-- The decimal a text stands for, without blanks around it. -/
def parse? (s : List Char) : Option Decimal :=
  (plain? s).or (scientific? s)

def ofText? (s : String) : Option Decimal :=
  parse? s.toList

end RecordLayer.Decimal
