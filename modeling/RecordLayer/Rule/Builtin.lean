import RecordLayer.Rule
import RecordLayer.Rule.Email

/-!
# Rules — Builtin

The rules that every rulebook starts with: `required`, the comparisons of a value's measure with
a bound, `email` and `oneof`.  Texts measure their number of characters, numbers themselves.
-/

namespace RecordLayer.Rulebook
open Text

/-- What the comparison rules measure, in units of `10⁻²⁸`. -/
def measure? : Value → Option Int
  | .text s    => some (s.length * tenTo 28)
  | .int n     => some (Decimal.ofInt n).units
  | .decimal d => some d.units
  | .null | .bool _ | .timestamp _ => none

/-- The check that a value's measure stands in a relation to the bound. -/
def comparison (relation : Int → Int → Bool) : Check := fun v param =>
  match param.bind Decimal.ofText?, measure? v with
  | some bound, some measure => relation measure bound.units
  | _, _ => false

/-- The value's text is one of the parameter's words. -/
def oneOf : Check := fun v param =>
  (words (param.getD "").toList).contains v.render.toList

def required : Check := fun v _ => !v.isBlank

def email : Check := fun v _ => v.asText?.any fun s => Email.isAddress s.toList

/-- The rules that every rulebook starts with. -/
def builtin : Rulebook :=
  .ofList [
    ("required", required),
    ("gte", comparison fun a b => b ≤ a),
    ("min", comparison fun a b => b ≤ a),
    ("lte", comparison fun a b => a ≤ b),
    ("max", comparison fun a b => a ≤ b),
    ("gt", comparison fun a b => b < a),
    ("lt", comparison fun a b => a < b),
    ("len", comparison fun a b => a == b),
    ("email", email),
    ("oneof", oneOf)]

end RecordLayer.Rulebook
