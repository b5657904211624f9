import RecordLayer.Json
import RecordLayer.Magnitude

/-!
# JSON — Content

What a document holds, for a reader that wants one type of content and no other.
-/

namespace RecordLayer.Json

def asText? : Json → Option String
  | text s => some s
  | _      => none

def asBool? : Json → Option Bool
  | bool b => some b
  | _      => none

/-- An integer of 64 bits with sign. -/
def asInt? : Json → Option Int64
  | int n => wide? n
  | _     => none

/-- A whole number below a bound. -/
def asNatural? (bound : Nat) : Json → Option Nat
  | int n => if 0 ≤ n ∧ n < bound then some n.toNat else none
  | _     => none

/-- An optional content: null is absent. -/
def orAbsent {α : Type} (read? : Json → Option α) : Json → Option (Option α)
  | null => some none
  | doc  => (read? doc).map some

end RecordLayer.Json
