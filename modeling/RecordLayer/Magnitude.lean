/-!
# Magnitude

Powers of ten and of two, by which this library scales numbers and bounds them, and the whole
numbers that fit in 64 bits with sign.
-/

namespace RecordLayer

/-- Ten to a power: a one and so many zeros. -/
def tenTo (zeros : Nat) : Nat :=
  Nat.pow 10 zeros

/-- Two to a power: the numbers below it are those of so many bits. -/
def twoTo (bits : Nat) : Nat :=
  Nat.pow 2 bits

theorem tenTo_pos (n : Nat) : 0 < tenTo n := Nat.pow_pos (by decide)

/-- A whole number in 64 bits with sign, if it fits. -/
def wide? (n : Int) : Option Int64 :=
  if -(twoTo 63 : Int) ≤ n ∧ n < twoTo 63 then some (.ofInt n) else none

theorem wide?_toInt (n : Int64) : wide? n.toInt = some n := by
  have h₁ := n.le_toInt
  have h₂ := n.toInt_lt
  have h₃ : twoTo 63 = 9223372036854775808 := rfl
  rw [wide?, if_pos (by omega), Int64.ofInt_toInt]

end RecordLayer
