import RecordLayer.Decimal.Basic
import RecordLayer.Decimal.Double

/-!
# Decimals — Binary

Decimals from binary floating-point numbers of 64 bits.  The power of two is turned into a
power of ten one factor at a time, within the 96 bits of a mantissa; then places beyond the
finest one, digits beyond the 52 bits that a double can vouch for, and trailing zeros go.
-/

namespace RecordLayer.Decimal

/-- A mantissa and a power of ten. -/
structure Scaled where
  mantissa : Nat
  power : Int

/-- Halves `n` times: a factor 2 cancels, or the half becomes five tenths, or, if that is too
large, the last bit is given up. -/
def Scaled.halved : Nat → Scaled → Scaled
  | 0, v => v
  | n + 1, ⟨m, x⟩ =>
    if m % 2 == 0 then halved n ⟨m / 2, x + 1⟩
    else if m * 5 < twoTo 96 then halved n ⟨m * 5, x⟩
    else halved n ⟨m / 2, x + 1⟩

/-- Doubles `n` times, if the mantissa has the room. -/
def doubled? : Nat → Nat → Option Nat
  | 0, m => some m
  | n + 1, m => if m < twoTo 95 then doubled? n (m * 2) else none

/-- One digit less, a half rounded up. -/
def Scaled.shorter (v : Scaled) : Scaled :=
  ⟨(v.mantissa + 5) / 10, v.power + 1⟩

/-- Drops the places beyond the finest one; a last digit that would have to go is nothing. -/
def Scaled.reachable : Nat → Scaled → Scaled
  | 0, v => v
  | n + 1, v =>
    if -28 ≤ v.power then v
    else if v.mantissa < 10 then ⟨0, 0⟩ else reachable n v.shorter

/-- Drops places while the mantissa has more than 52 bits. -/
def Scaled.warranted : Nat → Scaled → Scaled
  | 0, v => v
  | n + 1, v => if v.power < 0 ∧ twoTo 52 ≤ v.mantissa then warranted n v.shorter else v

/-- Drops trailing zeros after the point. -/
def Scaled.stripped : Nat → Scaled → Scaled
  | 0, v => v
  | n + 1, v =>
    if v.power < 0 ∧ v.mantissa % 10 = 0 then stripped n ⟨v.mantissa / 10, v.power + 1⟩ else v

/-- The decimal of `mantissa · 2 ^ exponent`, or nothing if it is too large. -/
def ofBinary? (negative : Bool) (mantissa : Nat) (exponent : Int) : Option Decimal :=
  if mantissa = 0 then ofParts? negative 0 0
  else
    let whole : Option Scaled :=
      if exponent < 0 then some (Scaled.halved exponent.natAbs ⟨mantissa, exponent⟩)
      else (doubled? exponent.natAbs mantissa).map (⟨·, 0⟩)
    match whole with
    | none => none
    | some v =>
      let v := v.reachable (v.power.natAbs + 1)
      let v := v.warranted v.power.natAbs
      let v := v.stripped v.power.natAbs
      if v.power ≤ 0 then ofParts? negative v.mantissa v.power.natAbs else none

/-- The decimal of a floating-point number of 64 bits; infinities, NaN and numbers from `2⁹⁶` up
have none. -/
def ofDouble? (d : Double) : Option Decimal :=
  if d.isFinite then ofBinary? d.negative d.mantissa ((d.shift : Int) - 1074) else none

end RecordLayer.Decimal
