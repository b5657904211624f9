import RecordLayer.Magnitude
import RecordLayer.Text.Digits

/-!
# Decimals

Decimal numbers of 96 bits: a sign, a whole mantissa below `2⁹⁶` and a scale of at most 28
places.  The scale is kept (`1.5` and `1.50` are written differently) while comparison is by
value, which is the mantissa counted in units of `10⁻²⁸`.
-/

namespace RecordLayer

structure Decimal where
  negative : Bool
  mantissa : Nat
  scale : Nat
  mantissa_lt : mantissa < twoTo 96
  scale_le : scale ≤ 28
deriving DecidableEq

namespace Decimal

instance : Inhabited Decimal := ⟨⟨false, 0, 0, by decide, by decide⟩⟩

def zero : Decimal := ⟨false, 0, 0, by decide, by decide⟩

/-- The decimal of these parts, if they are in range. -/
def ofParts? (negative : Bool) (mantissa scale : Nat) : Option Decimal :=
  if h : mantissa < twoTo 96 ∧ scale ≤ 28 then some ⟨negative, mantissa, scale, h.1, h.2⟩
  else none

/-- A whole number of 64 bits, without places. -/
def ofInt (n : Int64) : Decimal where
  negative := n.toInt < 0
  mantissa := n.toInt.natAbs
  scale := 0
  mantissa_lt := by
    have h₁ := n.le_toInt
    have h₂ := n.toInt_lt
    have h₃ : twoTo 96 = 79228162514264337593543950336 := rfl
    omega
  scale_le := by decide

/-- The value in units of `10⁻²⁸`, the finest place. -/
def units (d : Decimal) : Int :=
  let size : Int := d.mantissa * tenTo (28 - d.scale)
  if d.negative then -size else size

/-- Equality by value. -/
def same (a b : Decimal) : Bool := a.units == b.units

@[simp] theorem same_refl (a : Decimal) : a.same a = true := by simp [same]

theorem same_iff {a b : Decimal} : a.same b = true ↔ a.units = b.units := by simp [same]

/-- The digits of a mantissa, the last `scale` of them after a point. -/
def digitsWithPoint (mantissa scale : Nat) : List Char :=
  let digits := Text.paddedDigits (scale + 1) mantissa
  if scale = 0 then digits
  else digits.take (digits.length - scale) ++ '.' :: digits.drop (digits.length - scale)

/-- The written form: a sign if negative, the whole part, and as many places as the scale. -/
def render (d : Decimal) : List Char :=
  (if d.negative then ['-'] else []) ++ digitsWithPoint d.mantissa d.scale

instance : ToString Decimal := ⟨fun d => .ofList d.render⟩

end Decimal

end RecordLayer
